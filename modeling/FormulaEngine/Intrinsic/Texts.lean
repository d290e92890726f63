import FormulaEngine.Decimal.Numeral
import FormulaEngine.Intrinsic.Body
import FormulaEngine.Text.Order
import FormulaEngine.Text.Search

/-! Functions on texts. Positions and lengths count characters. -/

namespace FormulaEngine

/-- The number that a text is, as people write numbers. -/
def readNumber (t : Text) : Except FormulaError Float :=
  match Decimal.readAmount? t with
  | some v => .ok v
  | none => .error (.invalidNumber t)

/-- -1, 0 or 1. -/
def orderValue : Ordering → Float
  | .lt => -1
  | .eq => 0
  | .gt => 1

/-- How many characters stand before the first occurrence of `needle`, or -1 if there is none. -/
def positionValue (needle haystack : Text) : Float :=
  match Text.find? needle haystack with
  | some n => .ofNat n
  | none => -1

namespace Intrinsic

variable {A : Type}

def length (c : Context A) (x : A) : Run Float := do
  return Float.ofNat (← c.text x).length

def position (c : Context A) (x y : A) : Run Float := do
  let needle ← c.text x
  let haystack ← c.text y
  return positionValue needle haystack

def toNumber (c : Context A) (x : A) : Run Float := do
  Run.ofExcept (readNumber (← c.text x))

def isEmpty (c : Context A) (x : A) : Run Float := do
  return truthValue (Text.trim (← c.text x)).isEmpty

def same (c : Context A) (x y : A) : Run Float := do
  let a ← c.text x
  let b ← c.text y
  return truthValue (a == b)

def compareCaseLast (c : Context A) (x y : A) : Run Float := do
  let a ← c.text x
  let b ← c.text y
  return orderValue (Text.compareCaseLast a b)

def compareIgnoringCase (c : Context A) (x y : A) : Run Float := do
  let a ← c.text x
  let b ← c.text y
  return orderValue (Text.compareIgnoringCase a b)

def concatenate (c : Context A) (xs : List A) : Run Text := do
  return (← Run.each c.text xs).flatten

/-- The most bytes that repeating a text may make. -/
def repeatLimit : Nat := 0x1000000

/-- A text and so many more copies of it. -/
def repeatText (c : Context A) (x count : A) : Run Text := do
  let t ← c.text x
  let copies := Binary64.nearestCount (← c.number count) + 1
  if Text.byteLength t * copies ≤ repeatLimit then return Text.copies t copies
  else
    Run.fail ((FormulaError.functionFailure "repl".toList).saying "result too long".toList)

def toText (c : Context A) (x : A) : Run Text := do
  return Decimal.general.write (← c.number x)

def uppercase (c : Context A) (x : A) : Run Text := do
  return Text.uppercase (← c.text x)

def lowercase (c : Context A) (x : A) : Run Text := do
  return Text.lowercase (← c.text x)

def left (c : Context A) (x count : A) : Run Text := do
  let t ← c.text x
  let n := Binary64.nearestCount (← c.number count)
  return Text.left t n

def right (c : Context A) (x count : A) : Run Text := do
  let t ← c.text x
  let n := Binary64.nearestCount (← c.number count)
  return Text.right t n

/-- So many characters from a place that is counted from 1. -/
def middle (c : Context A) (x start count : A) : Run Text := do
  let t ← c.text x
  let skipped := (Binary64.nearestInt64 (← c.number start) - 1).toNat
  let n := Binary64.nearestCount (← c.number count)
  return Text.middle t skipped n

/-- The functions that trim. They have one argument; with another number of them the name is not
theirs. -/
def trims : List (Text × (Text → Text)) := [
  ("trim".toList, Text.trim), ("ltrim".toList, Text.trimStart), ("rtrim".toList, Text.trimEnd)]

end Intrinsic

end FormulaEngine
