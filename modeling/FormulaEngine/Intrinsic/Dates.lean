import FormulaEngine.Calendar.Components
import FormulaEngine.Calendar.Serial
import FormulaEngine.DateFormat.Read
import FormulaEngine.Intrinsic.Body

/-! Functions on dates, which are serials. -/

namespace FormulaEngine.Intrinsic

variable {A : Type}

/-- A result of the calendar as a step of an evaluation. -/
def dated {α : Type} (r : Except DateError α) : Run α :=
  .ofExcept (r.mapError DateError.toFormulaError)

/-- The date that an argument denotes. -/
def dateOf (c : Context A) (x : A) : Run Date := do
  dated (Serial.toDate (← c.number x))

/-- The whole number nearest to an argument. -/
def wholeOf (c : Context A) (x : A) : Run Int := do
  return Binary64.nearestInt64 (← c.number x)

/-- Days from a serial to today. -/
def daysToToday (c : Context A) (x : A) : Run Float := do
  return Serial.ofDate c.today - (← c.number x)

/-- Days from a serial to now. -/
def daysToNow (c : Context A) (x : A) : Run Float := do
  return Serial.ofDateTime c.now - (← c.number x)

def dayOf (c : Context A) (x : A) : Run Float := do
  return Float.ofNat (← dateOf c x).day

def weekOf (c : Context A) (x : A) : Run Float := do
  return Float.ofNat (← dateOf c x).isoWeek

def monthOf (c : Context A) (x : A) : Run Float := do
  return Float.ofNat (← dateOf c x).month

def yearOf (c : Context A) (x : A) : Run Float := do
  return Float.ofInt (← dateOf c x).year

def startOfWeek (c : Context A) (x : A) : Run Float := do
  return Serial.ofDate ((← dateOf c x).startOfWeek c.firstDay)

def startOfMonth (c : Context A) (x : A) : Run Float := do
  return Serial.ofDate (← dateOf c x).firstOfMonth

def endOfMonth (c : Context A) (x : A) : Run Float := do
  return Serial.ofDate (← dateOf c x).lastOfMonth

def fromDateParts (c : Context A) (year month day : A) : Run Float := do
  let y ← wholeOf c year
  let m ← wholeOf c month
  let d ← wholeOf c day
  return Serial.ofDate (← dated (Date.ofComponents y m d))

def fromDateTimeParts (c : Context A) (year month day hour minute second : A) : Run Float := do
  let y ← wholeOf c year
  let m ← wholeOf c month
  let d ← wholeOf c day
  let h ← wholeOf c hour
  let mi ← wholeOf c minute
  let s ← wholeOf c second
  return Serial.ofDateTime (← dated (DateTime.ofComponents y m d h mi s))

/-- The serial that a text means by a picture. -/
def fromText (c : Context A) (picture x : A) : Run Float := do
  let format ← c.text picture
  let t ← c.text x
  return Serial.ofDateTime (← dated (DateFormat.read format t c.today))

end FormulaEngine.Intrinsic
