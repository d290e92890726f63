import FormulaEngine.Binary64.Rounding
import FormulaEngine.Calendar.DateError
import FormulaEngine.Calendar.DateTime

/-! Date-times as numbers. A serial counts days from 1899-12-30, and its fraction is the time of
day. Before that date the days count backwards, but the fraction still counts forwards from
midnight: -1.25 is six in the morning of 1899-12-29. -/

namespace FormulaEngine.Serial

/-- The day number of 1899-12-30, the day of serial zero. -/
def epochDays : Int := 693593

def dayMilliseconds : Int := 86400000

/-- Serials lie strictly between this one, the day before 0100-01-01 … -/
def lowest : Float := -657435

/-- … and this one, 10000-01-01. -/
def highest : Float := 2958466

/-- Whole milliseconds from the epoch, cut off toward it. -/
def milliseconds (t : DateTime) : Int :=
  (t.nanoseconds - epochDays * (86400 * 1000000000)).tdiv 1000000

/-- Before the epoch, turns the time of day around: from counting back to counting forwards. -/
def foldNegative (ms : Int) : Int :=
  let rest := ms.tmod dayMilliseconds
  if ms < 0 ∧ rest ≠ 0 then ms - (dayMilliseconds + rest) * 2 else ms

/-- The way back. -/
def unfoldNegative (ms : Int) : Int :=
  if ms < 0 then ms - ms.tmod dayMilliseconds * 2 else ms

def ofDateTime (t : DateTime) : Float :=
  Float.ofInt (foldNegative (milliseconds t)) / Float.ofInt dayMilliseconds

def ofDate (d : Date) : Float := ofDateTime (.atMidnight d)

/-- The milliseconds nearest to a serial, halves away from zero. -/
def nearestMilliseconds (serial : Float) : Int :=
  let half : Float := if serial ≥ 0 then 0.5 else -0.5
  Binary64.toInt64 (serial * Float.ofInt dayMilliseconds + half)

/-- The date-time of a serial, to the nearest millisecond. -/
def toDateTime (serial : Float) : Except DateError DateTime :=
  if lowest < serial ∧ serial < highest then
    .ok (.ofMilliseconds
      (epochDays * dayMilliseconds + unfoldNegative (nearestMilliseconds serial)))
  else .error (.serialOutOfRange serial)

def toDate (serial : Float) : Except DateError Date := (toDateTime serial).map (·.date)

/-- The cut-off remainder of a negative number is minus the remainder of its magnitude. -/
theorem tmod_of_nonpos {a b : Int} (h : a ≤ 0) : a.tmod b = -((-a) % b) := by
  have := Int.neg_tmod (-a) b
  rw [Int.neg_neg] at this
  rw [this, Int.tmod_eq_emod_of_nonneg (by omega)]

/-- Turning the time of day around and back again changes nothing. -/
theorem unfoldNegative_foldNegative (ms : Int) : unfoldNegative (foldNegative ms) = ms := by
  by_cases h : ms < 0
  · have hf : foldNegative ms ≤ ms := by
      simp only [foldNegative, dayMilliseconds, tmod_of_nonpos (Int.le_of_lt h)]
      split <;> omega
    have hn : foldNegative ms < 0 := by omega
    simp only [unfoldNegative, if_pos hn, tmod_of_nonpos (Int.le_of_lt hn)]
    simp only [foldNegative, dayMilliseconds, tmod_of_nonpos (Int.le_of_lt h)]
    split <;> omega
  · simp [unfoldNegative, foldNegative, h]

end FormulaEngine.Serial
