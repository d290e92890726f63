import FormulaEngine.Binary64.Rounding
import FormulaEngine.Decimal.Notation

/-! The values of the language. There are numbers and texts; truth values are the numbers 0 and 1,
and dates are numbers of days. -/

namespace FormulaEngine

/-- The two sorts of values, and of formulas. -/
inductive ValueKind where
  | number
  | text
  deriving DecidableEq, Repr

inductive Value where
  | number (v : Float)
  | text (t : Text)

namespace Value

def kind : Value → ValueKind
  | number _ => .number
  | text _ => .text

def number? : Value → Option Float
  | number v => some v
  | text _ => none

def text? : Value → Option Text
  | number _ => none
  | text t => some t

/-- A value as messages show it. -/
def toText : Value → Text
  | number v => Decimal.plain.write v
  | text t => t

end Value

/-- The number for a truth value. -/
def truthValue (b : Bool) : Float := if b then 1 else 0

/-- A number is true when its magnitude, rounded with ties to even, is at least 1. -/
def isTrue (v : Float) : Bool := Binary64.round .halfToEven v.abs ≥ 1

end FormulaEngine
