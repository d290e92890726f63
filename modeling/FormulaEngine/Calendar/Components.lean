import FormulaEngine.Calendar.DateError
import FormulaEngine.Calendar.DateTime

/-! Dates and date-times from whole numbers. The year is one of 1 to 9999. -/

namespace FormulaEngine

def Date.ofComponents (year month day : Int) : Except DateError Date :=
  if 1 ≤ year ∧ year ≤ 9999 ∧ 1 ≤ month ∧ 1 ≤ day then
    match Date.of? year month.toNat day.toNat with
    | some d => .ok d
    | none => .error (.noSuchDate year month day)
  else .error (.noSuchDate year month day)

/-- The date is judged before the time. -/
def DateTime.ofComponents (year month day hour minute second : Int) :
    Except DateError DateTime := do
  let date ← Date.ofComponents year month day
  if 0 ≤ hour ∧ 0 ≤ minute ∧ 0 ≤ second then
    match TimeOfDay.of? hour.toNat minute.toNat second.toNat 0 with
    | some time => .ok ⟨date, time⟩
    | none => .error (.noSuchTime hour minute second)
  else .error (.noSuchTime hour minute second)

end FormulaEngine
