import FormulaEngine.Calendar.Date

/-! A time of day, and a date with one. Within its last second a day may hold a leap second: the
nanoseconds then run on past `10^9`, so that it counts as the beginning of the next day. -/

namespace FormulaEngine

/-- A time of day. -/
structure TimeOfDay where
  hour : Nat
  minute : Nat
  second : Nat
  nanosecond : Nat
  hour_lt : hour < 24
  minute_lt : minute < 60
  second_lt : second < 60
  nanosecond_lt : nanosecond < 2000000000
  deriving DecidableEq, Repr

namespace TimeOfDay

def midnight : TimeOfDay :=
  ⟨0, 0, 0, 0, by decide, by decide, by decide, by decide⟩

/-- The time with these components, if a day has one. -/
def of? (hour minute second nanosecond : Nat) : Option TimeOfDay :=
  if h : hour < 24 ∧ minute < 60 ∧ second < 60 ∧ nanosecond < 2000000000 then
    some ⟨hour, minute, second, nanosecond, h.1, h.2.1, h.2.2.1, h.2.2.2⟩
  else none

def millisecondsPerDay : Nat := 86400000

/-- The time that many milliseconds after midnight, not counting whole days. -/
def ofMilliseconds (n : Nat) : TimeOfDay :=
  ⟨n / 3600000 % 24, n / 60000 % 60, n / 1000 % 60, n % 1000 * 1000000, Nat.mod_lt _ (by decide),
    Nat.mod_lt _ (by decide), Nat.mod_lt _ (by decide), by
      have : n % 1000 < 1000 := Nat.mod_lt _ (by decide)
      omega⟩

/-- Nanoseconds since midnight. -/
def nanoseconds (t : TimeOfDay) : Nat :=
  ((t.hour * 60 + t.minute) * 60 + t.second) * 1000000000 + t.nanosecond

def millisecond (t : TimeOfDay) : Nat := t.nanosecond / 1000000

theorem nanoseconds_ofMilliseconds {n : Nat} (h : n < millisecondsPerDay) :
    (ofMilliseconds n).nanoseconds = n * 1000000 := by
  simp only [nanoseconds, ofMilliseconds, millisecondsPerDay] at *
  omega

end TimeOfDay

/-- A date and a time of day. -/
structure DateTime where
  date : Date
  time : TimeOfDay
  deriving DecidableEq, Repr

namespace DateTime

def atMidnight (d : Date) : DateTime := ⟨d, .midnight⟩

/-- Nanoseconds from midnight of 0001-01-01. -/
def nanoseconds (t : DateTime) : Int := t.date.toDays * (86400 * 1000000000) + t.time.nanoseconds

/-- The date-time that many milliseconds after midnight of 0001-01-01. -/
def ofMilliseconds (n : Int) : DateTime :=
  ⟨.ofDays (n / TimeOfDay.millisecondsPerDay),
    .ofMilliseconds (n % TimeOfDay.millisecondsPerDay).toNat⟩

theorem nanoseconds_ofMilliseconds (n : Int) : (ofMilliseconds n).nanoseconds = n * 1000000 := by
  have hlt : (n % TimeOfDay.millisecondsPerDay).toNat < TimeOfDay.millisecondsPerDay := by
    simp only [TimeOfDay.millisecondsPerDay]
    omega
  simp only [nanoseconds, ofMilliseconds, Date.toDays_ofDays,
    TimeOfDay.nanoseconds_ofMilliseconds hlt]
  simp only [TimeOfDay.millisecondsPerDay]
  omega

end DateTime

end FormulaEngine
