import FormulaEngine.Text.Basic

/-! How many arguments a function takes. -/

namespace FormulaEngine

inductive Arity where
  | exactly (n : Nat)
  | atLeast (n : Nat)
  deriving DecidableEq, Repr

namespace Arity

def accepts : Arity → Nat → Bool
  | exactly n, count => count == n
  | atLeast n, count => n ≤ count

def toText : Arity → Text
  | exactly n => Text.ofNat n
  | atLeast n => "at least ".toList ++ Text.ofNat n

end Arity

end FormulaEngine
