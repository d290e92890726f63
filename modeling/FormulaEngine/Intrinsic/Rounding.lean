import FormulaEngine.Decimal.Places
import FormulaEngine.Intrinsic.Body

/-! Functions that round. -/

namespace FormulaEngine.Intrinsic

variable {A : Type}

def roundToPlaces (c : Context A) (x places : A) : Run Float := do
  let v ← c.number x
  let n ← c.number places
  return Decimal.roundPlaces v n

def ceiling (c : Context A) (x : A) : Run Float := do
  return Binary64.round .upward (← c.number x)

def floor (c : Context A) (x : A) : Run Float := do
  return Binary64.round .downward (← c.number x)

end FormulaEngine.Intrinsic
