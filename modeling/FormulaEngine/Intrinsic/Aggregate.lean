import FormulaEngine.Arguments
import FormulaEngine.Intrinsic.Texts

/-! Functions of any number of values. The values are the arguments, in order, unless the only
argument is a call whose name contains a range keyword: then they are what the host answers for the
records that the keyword means. -/

namespace FormulaEngine.Intrinsic

variable {A : Type}

/-- The keyword and the expression that the host is to be asked about, if it is. The keyword stands
somewhere before the first parenthesis, and nothing but one parenthesis may follow it. -/
def delegated : List Text → Except FormulaError (Option (RangeKeyword × Text))
  | [x] =>
    let name := x.takeWhile (· != '(')
    if name.length = x.length then .ok none
    else
      match RangeKeyword.locate? name with
      | none => .ok none
      | some (keyword, stop) =>
        (Arguments.parenthesized (x.drop stop)).map fun inner => some (keyword, inner)
  | _ => .ok none

def askRange (c : Context A) (keyword : RangeKeyword) (kind : ValueKind) (expression : Text) :
    Run (List Value) :=
  .ask (.range keyword kind expression) (c.host.range keyword kind expression)

/-- A value as a number; a text has to be one. -/
def numberOf : Value → Except FormulaError Float
  | .number v => .ok v
  | .text t => readNumber t

def textOf : Value → Text
  | .number v => Decimal.general.write v
  | .text t => t

def numbers (c : Context A) (xs : List A) : Run (List Float) := do
  match ← Run.ofExcept (delegated (xs.map c.source)) with
  | some (keyword, expression) =>
    Run.each (fun v => .ofExcept (numberOf v)) (← askRange c keyword .number expression)
  | none => Run.each c.number xs

def texts (c : Context A) (xs : List A) : Run (List Text) := do
  match ← Run.ofExcept (delegated (xs.map c.source)) with
  | some (keyword, expression) => return (← askRange c keyword .text expression).map textOf
  | none => Run.each c.text xs

/-- Sums are taken from the left and start at negative zero, which leaves every number as it is. -/
def total (vs : List Float) : Float := vs.foldl (· + ·) (-0.0)

/-- The value that is left when each next one may replace the one before it. -/
def select {α : Type} (replaces : α → α → Bool) (default : α) : List α → α
  | [] => default
  | v :: vs => vs.foldl (fun kept v => if replaces v kept then v else kept) v

def sum (c : Context A) (xs : List A) : Run Float := do
  return total (← numbers c xs)

def maximum (c : Context A) (xs : List A) : Run Float := do
  return select (fun v kept => v > kept) 0 (← numbers c xs)

def minimum (c : Context A) (xs : List A) : Run Float := do
  return select (fun v kept => v < kept) 0 (← numbers c xs)

/-- The average of no values is zero. -/
def average (c : Context A) (xs : List A) : Run Float := do
  let vs ← numbers c xs
  return if vs.isEmpty then 0 else total vs / Float.ofNat vs.length

def count (c : Context A) (xs : List A) : Run Float := do
  return Float.ofNat (← numbers c xs).length

def sumText (c : Context A) (xs : List A) : Run Text := do
  return (← texts c xs).flatten

def maximumText (c : Context A) (xs : List A) : Run Text := do
  return select (fun v kept => Text.compare v kept == .gt) [] (← texts c xs)

def minimumText (c : Context A) (xs : List A) : Run Text := do
  return select (fun v kept => Text.compare v kept == .lt) [] (← texts c xs)

def countText (c : Context A) (xs : List A) : Run Text := do
  return Text.ofNat (← texts c xs).length

end FormulaEngine.Intrinsic
