import FormulaEngine.Text.Basic

/-! Sets of characters as sorted lists of boundaries. A set that holds the ranges `a..b-1`,
`c..d-1`, … is written `[a, b, c, d, …]`, so a character belongs to it exactly when the number of
boundaries at or below its code point is odd. -/

namespace FormulaEngine

/-- A set of characters, given by the code points where membership changes. -/
structure CharSet where
  boundaries : List Nat

namespace CharSet

def contains (s : CharSet) (c : Char) : Bool :=
  (s.boundaries.takeWhile (· ≤ c.toNat)).length % 2 == 1

@[simp] theorem contains_empty (c : Char) : contains ⟨[]⟩ c = false := rfl

/-- Below its first boundary a set holds nothing. -/
theorem contains_of_lt {b : Nat} {bs : List Nat} {c : Char} (h : c.toNat < b) :
    contains ⟨b :: bs⟩ c = false := by
  have : ¬ b ≤ c.toNat := by omega
  simp [contains, this]

end CharSet

end FormulaEngine
