import FormulaEngine.Intrinsic.Body

/-! Functions that decide. Only the arguments that are needed are read. -/

namespace FormulaEngine.Intrinsic

variable {A : Type}

/-- Any number but zero chooses the first branch. -/
def ifNumber (c : Context A) (condition yes no : A) : Run Float := do
  let v ← c.number condition
  if v != 0 then c.number yes else c.number no

/-- A number that is about 1 or more chooses the first branch. -/
def ifText (c : Context A) (condition yes no : A) : Run Text := do
  let v ← c.number condition
  if c.tolerance.equal 1 v || v > 1 then c.text yes else c.text no

/-- Reads arguments until one is false. -/
def all (c : Context A) : List A → Run Float
  | [] => return 1
  | x :: xs => do
    let v ← c.number x
    if isTrue v then all c xs else return 0

/-- Reads arguments until one is true. -/
def any (c : Context A) : List A → Run Float
  | [] => return 0
  | x :: xs => do
    let v ← c.number x
    if isTrue v then return 1 else any c xs

def negation (c : Context A) (x : A) : Run Float := do
  return truthValue (!isTrue (← c.number x))

def quotient (c : Context A) (x y : A) : Run Float := do
  let a ← c.number x
  let b ← c.number y
  return safeQuotient a b

/-- Both ends belong to the range, and so does what is equal to one of them. -/
def between (c : Context A) (x low high : A) : Run Float := do
  let v ← c.number x
  let lo ← c.number low
  let hi ← c.number high
  return truthValue (c.tolerance.equal v lo || c.tolerance.equal v hi || (v ≥ lo && v ≤ hi))

end FormulaEngine.Intrinsic
