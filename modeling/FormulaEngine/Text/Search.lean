import FormulaEngine.Text.Basic

/-! Searching for one text in another, and cutting a text at counted places. -/

namespace FormulaEngine.Text

/-- Looks for `needle` in a rest that starts `skipped` characters into the text. -/
def findFrom (needle : Text) (skipped : Nat) : Text → Option Nat
  | [] => if needle.isEmpty then some skipped else none
  | c :: rest =>
    if needle.isPrefixOf (c :: rest) then some skipped else findFrom needle (skipped + 1) rest

/-- How many characters stand before the first occurrence of `needle`. -/
def find? (needle haystack : Text) : Option Nat := findFrom needle 0 haystack

/-- The first `n` characters, or all when there are fewer. -/
def left (t : Text) (n : Nat) : Text := t.take n

/-- The last `n` characters, or all when there are fewer. -/
def right (t : Text) (n : Nat) : Text := t.drop (t.length - n)

/-- `count` characters after the first `skipped`. -/
def middle (t : Text) (skipped count : Nat) : Text := (t.drop skipped).take count

/-- A hit is an occurrence: `needle` stands at the place that is reported. -/
theorem findFrom_sound {needle : Text} {skipped k : Nat} {t : Text}
    (h : findFrom needle skipped t = some k) :
    skipped ≤ k ∧ needle <+: t.drop (k - skipped) := by
  induction t generalizing skipped with
  | nil =>
    simp only [findFrom] at h
    split at h
    · rename_i he
      cases h
      simp_all
    · contradiction
  | cons c rest ih =>
    simp only [findFrom] at h
    split at h
    · rename_i hp
      cases h
      simpa using hp
    · obtain ⟨hle, hpre⟩ := ih h
      have : k - skipped = (k - (skipped + 1)) + 1 := by omega
      refine ⟨by omega, ?_⟩
      rw [this, List.drop_succ_cons]
      exact hpre

end FormulaEngine.Text
