import FormulaEngine.Text.Basic

/-! The fields that a date format can ask for, and their spelling in a pattern. -/

namespace FormulaEngine.DateFormat

/-- A part of a date-time, and the form in which it is written. -/
inductive Specifier where
  | year
  | yearOfCentury
  | month
  | monthShort
  | monthName
  | day
  | weekdayShort
  | weekdayName
  | hour
  | hourOfHalf
  | minute
  | second
  | milliseconds
  | microseconds
  | nanoseconds
  | half
  | offset
  deriving DecidableEq, Repr

namespace Specifier

/-- The spelling of a specifier, after its percent sign. -/
def code : Specifier → Text
  | year => "Y".toList
  | yearOfCentury => "y".toList
  | month => "m".toList
  | monthShort => "b".toList
  | monthName => "B".toList
  | day => "d".toList
  | weekdayShort => "a".toList
  | weekdayName => "A".toList
  | hour => "H".toList
  | hourOfHalf => "I".toList
  | minute => "M".toList
  | second => "S".toList
  | milliseconds => "3f".toList
  | microseconds => "6f".toList
  | nanoseconds => "9f".toList
  | half => "p".toList
  | offset => ":z".toList

def all : List Specifier :=
  [year, yearOfCentury, month, monthShort, monthName, day, weekdayShort, weekdayName, hour,
    hourOfHalf, minute, second, milliseconds, microseconds, nanoseconds, half, offset]

theorem mem_all (s : Specifier) : s ∈ all := by cases s <;> decide

/-- No spelling is the beginning of another one, so a pattern is read in one way only. -/
theorem code_prefix_free :
    ∀ s ∈ all, ∀ t ∈ all, s.code.isPrefixOf t.code = true → s = t := by decide

end Specifier

end FormulaEngine.DateFormat
