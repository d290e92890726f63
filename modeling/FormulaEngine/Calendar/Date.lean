import FormulaEngine.Calendar.Weekday

/-! Days of the proleptic Gregorian calendar, and their numbering from 0001-01-01, which has number
zero and is a Monday. Every day number belongs to exactly one date. -/

namespace FormulaEngine.Calendar

def isLeap (year : Int) : Bool := (year % 4 == 0 && year % 100 != 0) || year % 400 == 0

/-- Days in a month of a common or leap year. -/
def monthLength (leap : Bool) (month : Nat) : Nat :=
  if month = 2 then (if leap then 29 else 28)
  else if month = 4 ∨ month = 6 ∨ month = 9 ∨ month = 11 then 30
  else 31

/-- Days of the year before the first of a month. -/
def daysBeforeMonth (leap : Bool) : Nat → Nat
  | 0 => 0
  | 1 => 0
  | m + 2 => daysBeforeMonth leap (m + 1) + monthLength leap (m + 1)

/-- Days from 0001-01-01 to the first day of a year. -/
def daysBeforeYear (year : Int) : Int :=
  let y := year - 1
  365 * y + y / 4 - y / 100 + y / 400

def yearLength (leap : Bool) : Nat := if leap then 366 else 365

/-- The year that holds a day number. The average length of a year leads to it or to one of its
neighbours. -/
def yearOf (n : Int) : Int :=
  let guess := 400 * n / 146097 + 1
  if n < daysBeforeYear guess then guess - 1
  else if daysBeforeYear (guess + 1) ≤ n then guess + 1
  else guess

/-- The month that holds the day with `n` days of the year before it. -/
def monthOf (leap : Bool) (n : Nat) : Nat :=
  (List.range' 1 12).countP fun m => daysBeforeMonth leap m ≤ n

theorem daysBeforeYear_succ (y : Int) :
    daysBeforeYear (y + 1) = daysBeforeYear y + yearLength (isLeap y) := by
  simp only [daysBeforeYear, yearLength, isLeap]
  by_cases h4 : y % 4 = 0 <;> by_cases h100 : y % 100 = 0 <;> by_cases h400 : y % 400 = 0 <;>
    simp [h4, h100, h400] <;> omega

theorem yearOf_bounds (n : Int) :
    daysBeforeYear (yearOf n) ≤ n ∧ n < daysBeforeYear (yearOf n + 1) := by
  have near : daysBeforeYear (400 * n / 146097 + 1 - 1) ≤ n ∧
      n < daysBeforeYear (400 * n / 146097 + 1 + 1 + 1) := by
    simp only [daysBeforeYear]
    omega
  simp only [yearOf]
  generalize 400 * n / 146097 + 1 = guess at near
  split
  · rename_i below
    exact ⟨near.1, by simpa using below⟩
  · split
    · rename_i above
      exact ⟨above, near.2⟩
    · omega

theorem monthOf_bounds (leap : Bool) (n : Nat) (h : n < yearLength leap) :
    (1 ≤ monthOf leap n ∧ monthOf leap n ≤ 12) ∧ daysBeforeMonth leap (monthOf leap n) ≤ n ∧
      n - daysBeforeMonth leap (monthOf leap n) < monthLength leap (monthOf leap n) := by
  have common : ∀ n < 365, (1 ≤ monthOf false n ∧ monthOf false n ≤ 12) ∧
      daysBeforeMonth false (monthOf false n) ≤ n ∧
      n - daysBeforeMonth false (monthOf false n) < monthLength false (monthOf false n) := by
    decide +kernel
  have longer : ∀ n < 366, (1 ≤ monthOf true n ∧ monthOf true n ≤ 12) ∧
      daysBeforeMonth true (monthOf true n) ≤ n ∧
      n - daysBeforeMonth true (monthOf true n) < monthLength true (monthOf true n) := by
    decide +kernel
  cases leap
  · exact common n h
  · exact longer n h

end Calendar

/-- A day of the calendar. -/
structure Date where
  year : Int
  month : Nat
  day : Nat
  month_mem : 1 ≤ month ∧ month ≤ 12
  day_mem : 1 ≤ day ∧ day ≤ Calendar.monthLength (Calendar.isLeap year) month
  deriving DecidableEq, Repr

namespace Date

open Calendar

/-- The date with these components, if there is such a day. -/
def of? (year : Int) (month day : Nat) : Option Date :=
  if h : (1 ≤ month ∧ month ≤ 12) ∧ 1 ≤ day ∧ day ≤ monthLength (isLeap year) month then
    some ⟨year, month, day, h.1, h.2⟩
  else none

/-- Days from 0001-01-01. -/
def toDays (d : Date) : Int :=
  daysBeforeYear d.year + (daysBeforeMonth (isLeap d.year) d.month + (d.day - 1) : Nat)

theorem ofDays_bounds (n : Int) :
    (n - daysBeforeYear (yearOf n)).toNat < yearLength (isLeap (yearOf n)) := by
  have h := yearOf_bounds n
  rw [daysBeforeYear_succ] at h
  omega

/-- The date with a day number. -/
def ofDays (n : Int) : Date :=
  let year := yearOf n
  let leap := isLeap year
  let inYear := (n - daysBeforeYear year).toNat
  let month := monthOf leap inYear
  have h := monthOf_bounds leap inYear (ofDays_bounds n)
  ⟨year, month, inYear - daysBeforeMonth leap month + 1, h.1, Nat.succ_le_succ (Nat.zero_le _), h.2.2⟩

theorem toDays_ofDays (n : Int) : (ofDays n).toDays = n := by
  have hy := yearOf_bounds n
  have hm := monthOf_bounds _ _ (ofDays_bounds n)
  simp only [toDays, ofDays]
  omega

def weekday (d : Date) : Weekday := .nth (d.toDays % 7).toNat

/-- The week of the year in which most of the date's week, counted from Monday, lies. -/
def isoWeek (d : Date) : Nat :=
  let thursday := d.toDays - d.weekday.toNat + 3
  ((thursday - daysBeforeYear (yearOf thursday)) / 7).toNat + 1

/-- The last day on or before the date that is a `first`. -/
def startOfWeek (d : Date) (first : Weekday) : Date :=
  .ofDays (d.toDays - ((7 + d.weekday.toNat - first.toNat) % 7 : Nat))

/-- The last year that dates are built for. -/
def lastYear : Int := 262142

def withDay? (d : Date) (day : Nat) : Option Date := of? d.year d.month day

/-- The same day of the following month, or its last day if it is shorter. -/
def addMonth? (d : Date) : Option Date :=
  let year := if d.month = 12 then d.year + 1 else d.year
  let month := d.month % 12 + 1
  if year ≤ lastYear then of? year month (min d.day (monthLength (isLeap year) month)) else none

def firstOfMonth (d : Date) : Date := (d.withDay? 1).getD d

/-- Days from the first of the month to the first of the following one. -/
def monthDays (d : Date) : Nat :=
  match d.firstOfMonth.addMonth? with
  | some next => (next.toDays - d.firstOfMonth.toDays).toNat
  | none => 31  -- nothing follows the last December

def lastOfMonth (d : Date) : Date := (d.withDay? d.monthDays).getD d

end Date

end FormulaEngine
