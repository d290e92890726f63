import FormulaEngine.Binary64.Power
import FormulaEngine.Binary64.Rounding

/-! Rounding to decimal places. The number is scaled by a power of ten, rounded to a whole number
with ties to even, and scaled back. -/

namespace FormulaEngine.Decimal

/-- The number of places is itself rounded, and kept between 0 and 15. From `10^16` on a number has
no places left to round. -/
def roundPlaces (v places : Float) : Float :=
  let places := max 0 (min (Binary64.nearestInt64 places) 15)
  if v.abs ≥ 1e16 then v
  else
    let scale := Binary64.integerPower 10 places
    let scaled := Binary64.round .halfToEven (v * scale) / scale
    if Binary64.isFinite scaled then scaled else v

end FormulaEngine.Decimal
