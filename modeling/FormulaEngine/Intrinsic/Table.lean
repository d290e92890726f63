import FormulaEngine.Intrinsic.Aggregate
import FormulaEngine.Intrinsic.Dates
import FormulaEngine.Intrinsic.Logic
import FormulaEngine.Intrinsic.Rounding

/-! The functions of the language by name, one table for each sort of value, in alphabetical order.
Names are looked up in lower case. A name in either table belongs to the language: the host is never
asked about it. -/

namespace FormulaEngine.Intrinsic

variable {A : Type}

def numericTable : List (Text × Body A Float) := [
  ("and".toList, .atLeast 2 all),
  ("avg".toList, .atLeast 1 average),
  ("between".toList, .three between),
  ("ceil".toList, .one ceiling),
  ("compare".toList, .two same),
  ("comparestr".toList, .two compareCaseLast),
  ("comparetext".toList, .two compareIgnoringCase),
  ("count".toList, .atLeast 1 count),
  ("empty".toList, .one isEmpty),
  ("endofthemonth".toList, .one endOfMonth),
  ("floor".toList, .one floor),
  ("getday".toList, .one dayOf),
  ("getmonth".toList, .one monthOf),
  ("getweek".toList, .one weekOf),
  ("getyear".toList, .one yearOf),
  ("if".toList, .three ifNumber),
  ("len".toList, .one length),
  ("max".toList, .atLeast 1 maximum),
  ("min".toList, .atLeast 1 minimum),
  ("not".toList, .one negation),
  ("now".toList, .one daysToNow),
  ("or".toList, .atLeast 2 any),
  ("pos".toList, .two position),
  ("round".toList, .two roundToPlaces),
  ("safediv".toList, .two quotient),
  ("startofthemonth".toList, .one startOfMonth),
  ("startoftheweek".toList, .one startOfWeek),
  ("stringtodatetime".toList, .two fromText),
  ("sum".toList, .atLeast 1 sum),
  ("todate".toList, .three fromDateParts),
  ("todatetime".toList, .six fromDateTimeParts),
  ("today".toList, .one daysToToday),
  ("todouble".toList, .one toNumber),
  ("tonumber".toList, .one toNumber)]

def textTable : List (Text × Body A Text) := [
  ("concat".toList, .atLeast 2 concatenate),
  ("concatenate".toList, .atLeast 2 concatenate),
  ("count".toList, .atLeast 1 countText),
  ("if".toList, .three ifText),
  ("left".toList, .two left),
  ("lowercase".toList, .one lowercase),
  ("max".toList, .atLeast 1 maximumText),
  ("min".toList, .atLeast 1 minimumText),
  ("repl".toList, .two repeatText),
  ("right".toList, .two right),
  ("substr".toList, .three middle),
  ("sum".toList, .atLeast 1 sumText),
  ("tostr".toList, .one toText),
  ("uppercase".toList, .one uppercase)]

def numericNames : List Text := (numericTable (A := Text)).map (·.1)

def textNames : List Text := (textTable (A := Text)).map (·.1)

/-- A name that belongs to the language, in any case of its letters. -/
def isIntrinsic (name : Text) : Bool :=
  numericNames.contains (Text.foldCase name) || textNames.contains (Text.foldCase name)

/-- Calls the function `name` of a table. Errors inside it that blame no function
blame this one. -/
def call {α : Type} (table : List (Text × Body A α)) (sort : Text) (c : Context A) (name : Text)
    (xs : List A) : Run α :=
  match table.lookup (Text.foldCase name) with
  | none =>
    .fail ((FormulaError.unknownFunction name).saying
      ("not available in a ".toList ++ sort ++ " expression".toList))
  | some body =>
    match body.run? c xs with
    | none => .fail (.parameterCount name body.arity xs.length)
    | some r => r.blamedOn name

def callNumeric : Context A → Text → List A → Run Float := call numericTable "numeric".toList

def callText : Context A → Text → List A → Run Text := call textTable "string".toList

end FormulaEngine.Intrinsic
