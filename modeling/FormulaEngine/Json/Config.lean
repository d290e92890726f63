import FormulaEngine.Config
import FormulaEngine.Json.Document

/-! Settings as JSON: an object with the fields `precision` and `first_day_of_week`, or an array of
their values in this order. What is missing has its usual value; fields of other names mean nothing,
but a field must not come twice. -/

namespace FormulaEngine

/-- A day by its name or the first three letters of it, in any case. -/
def Weekday.ofName? (name : Text) : Option Weekday :=
  Weekday.all.find? fun d =>
    let full := Text.foldCase d.name.toList
    Text.foldCase name == full || Text.foldCase name == full.take 3

namespace Config

/-- No precision, or a whole number of 32 bits written with digits only. -/
def precisionOfJson? : Json → Option (Option UInt32)
  | .null => some none
  | .number literal =>
    let n := Decimal.digitsValue literal
    if literal.all Char.isDigit ∧ n < 0x100000000 then some (some (.ofNat n)) else none
  | _ => none

def firstDayOfJson? : Json → Option Weekday
  | .string (some name) => Weekday.ofName? name
  | _ => none

/-- The values of all fields with a key. -/
def fieldValues (fields : List (Option Text × Json)) (key : String) : List Json :=
  (fields.filter (·.1 == some key.toList)).map (·.2)

/-- The value of a field that occurs at most once, read by `read?`. -/
def optional? {α : Type} (default : α) (read? : Json → Option α) : List Json → Option α
  | [] => some default
  | [value] => read? value
  | _ => none

def ofValues? (precision firstDay : List Json) : Option Config := do
  let precision ← optional? none precisionOfJson? precision
  let firstDay ← optional? .monday firstDayOfJson? firstDay
  return { precision, firstDay }

def ofJson? : Json → Option Config
  | .object fields =>
    if fields.all (·.1.isSome) then
      ofValues? (fieldValues fields "precision") (fieldValues fields "first_day_of_week")
    else none
  | .array items =>
    if items.length ≤ 2 then ofValues? (items.take 1) (items.drop 1) else none
  | _ => none

/-- The settings that a document describes. -/
def parse? (t : Text) : Option Config := (Json.parse? t).bind ofJson?

end Config

end FormulaEngine
