import FormulaEngine.Calendar.DateError
import FormulaEngine.Calendar.DateTime
import FormulaEngine.DateFormat.Fields
import FormulaEngine.DateFormat.Picture

/-! Reading a date-time by a picture. The text has to match once; then its fields make a date, a
time of day, or both. A date without a time means midnight, and a time without a date means
today. -/

namespace FormulaEngine.DateFormat

namespace Fields

/-- The year. A year of two digits lies between 1970 and 2069; next to a full year it has to agree
with it. -/
def fullYear? (f : Fields) : Option Int :=
  match f.year, f.yearOfCentury with
  | some y, none => some y
  | some y, some c => if 0 ≤ y ∧ y % 100 = c then some y else none
  | none, some c => some (if c < 70 then 2000 + c else 1900 + c)
  | none, none => none

/-- The date, if year, month and day are known, such a day exists in the years -262143 to 262142,
and it is the weekday that was given. -/
def date? (f : Fields) : Option Date := do
  let y ← f.fullYear?
  let m ← f.month
  let d ← f.day
  let date ← if -262143 ≤ y ∧ y ≤ 262142 then Date.of? y m d else none
  if f.weekday = none ∨ f.weekday = some date.weekday then some date else none

/-- The time of day, if hour and minute are known. A fraction needs a second; second 60 is the leap
second behind second 59. -/
def time? (f : Fields) : Option TimeOfDay := do
  let half ← f.half
  let hour ← f.hourOfHalf
  let minute ← f.minute
  if f.nanosecond.isSome ∧ f.second.isNone then none
  else
    let second := f.second.getD 0
    let nanosecond := f.nanosecond.getD 0
    if second = 60 then TimeOfDay.of? (half * 12 + hour) minute 59 (1000000000 + nanosecond)
    else TimeOfDay.of? (half * 12 + hour) minute second nanosecond

/-- What the fields stand for on a given day. -/
def dateTime? (f : Fields) (today : Date) : Option DateTime :=
  match f.date?, f.time? with
  | some d, some t => some ⟨d, t⟩
  | some d, none => some (.atMidnight d)
  | none, some t => some ⟨today, t⟩
  | none, none => none

end Fields

/-- The date-time that a text means by a picture, today being known. -/
def read (picture text : Text) (today : Date) : Except DateError DateTime :=
  let text := Text.trim text
  match (matchItems? {} (patternItems (patternOf picture)) text).bind (·.dateTime? today) with
  | some t => .ok t
  | none => .error (.unreadable text picture)

end FormulaEngine.DateFormat
