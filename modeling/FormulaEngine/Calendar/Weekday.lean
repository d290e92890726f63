/-! The days of the week, counted from Monday. -/

namespace FormulaEngine

inductive Weekday where
  | monday
  | tuesday
  | wednesday
  | thursday
  | friday
  | saturday
  | sunday
  deriving DecidableEq, Repr

namespace Weekday

def all : List Weekday := [monday, tuesday, wednesday, thursday, friday, saturday, sunday]

/-- Days since Monday. -/
def toNat : Weekday → Nat
  | monday => 0
  | tuesday => 1
  | wednesday => 2
  | thursday => 3
  | friday => 4
  | saturday => 5
  | sunday => 6

/-- The day that many days after a Monday. -/
def nth (n : Nat) : Weekday := all.getD (n % 7) monday

def name : Weekday → String
  | monday => "Monday"
  | tuesday => "Tuesday"
  | wednesday => "Wednesday"
  | thursday => "Thursday"
  | friday => "Friday"
  | saturday => "Saturday"
  | sunday => "Sunday"

/-- The first three letters of the name. -/
def shortName (d : Weekday) : String := String.ofList (d.name.toList.take 3)

theorem nth_toNat (d : Weekday) : nth d.toNat = d := by cases d <;> rfl

theorem toNat_lt (d : Weekday) : d.toNat < 7 := by cases d <;> decide

theorem toNat_nth (n : Nat) : (nth n).toNat = n % 7 := by
  have h : n % 7 < 7 := Nat.mod_lt _ (by decide)
  have all7 : ∀ k < 7, (all.getD k monday).toNat = k := by decide
  exact all7 _ h

end Weekday

end FormulaEngine
