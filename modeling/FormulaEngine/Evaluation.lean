import FormulaEngine.Expr.Grammar
import FormulaEngine.Intrinsic.Table

/-! The values of expressions and of formulas. Evaluating a formula asks the host for what the
language does not know itself, in the order of the text. Arguments are texts; each is read as a
formula of its own when a function needs it, and it is shorter than the formula that it stands
in. -/

namespace FormulaEngine

/-- The numbers that the language names itself, in any case of the letters. -/
def Context.constant? {A : Type} (c : Context A) (name : Text) : Option Float :=
  let key := Text.foldCase name
  if key = "_now_".toList then some (Serial.ofDateTime c.now)
  else if key = "_today_".toList then some (Serial.ofDate c.today)
  else if key = "true".toList then some 1
  else if key = "false".toList then some 0
  else if key = "pi".toList then some 3.141592653589793
  else none

namespace NumericExpr

def lookup {A : Type} (c : Context A) (name : Text) : Run Float :=
  match c.constant? name with
  | some v => return v
  | none => .ask (.value name) (c.host.value name)

/-- Functions of the language go before those of the host. -/
def callFunction (c : Context Text) (name : Text) (arguments : List Text) : Run Float :=
  if Intrinsic.isIntrinsic name then Intrinsic.callNumeric c name arguments
  else .ask (.numericCall name arguments) (c.host.numericCall name arguments)

def eval (c : Context Text) : NumericExpr → Run Float
  | literal n => return n.toFloat
  | name n => lookup c n
  | signed o e => do return o.apply (← e.eval c)
  | binary o a b => do
    let v ← a.eval c
    let w ← b.eval c
    return o.apply c.tolerance v w
  | apply f e => do return f.apply (← e.eval c)
  | call n arguments => callFunction c n arguments

end NumericExpr

namespace TextExpr

/-- A single argument of a function that is not the language's own is read in any case, even where
it is the host that answers. -/
def callFunction (c : Context Text) (name : Text) (arguments : List Text) : Run Text :=
  let asked : Run Text := .ask (.textCall name arguments) (c.host.textCall name arguments)
  if Intrinsic.isIntrinsic name then Intrinsic.callText c name arguments
  else
    match arguments with
    | [x] => do
      let t ← c.text x
      match Intrinsic.trims.lookup (Text.foldCase name) with
      | some trim => return trim t
      | none => asked
    | _ => asked

def eval (c : Context Text) : TextExpr → Run Text
  | literal content => return content
  | name n => .ask (.text n) (c.host.text n)
  | append a b => do
    let s ← a.eval c
    let t ← b.eval c
    return s ++ t
  | call n arguments => callFunction c n arguments

end TextExpr

/-- Evaluates the steps in order, and then the expression that counts. -/
def Program.eval {ε α : Type} (value : ε → Run α) (p : Program ε) : Run α :=
  go p.steps
where
  go : List ε → Run α
    | [] =>
      match p.ending with
      | .ok e => value e
      | .error e => .fail e
    | e :: es => do
      let _ ← value e
      go es

/-- What an application settles for its formulas. -/
structure Settings where
  now : DateTime
  tolerance : Tolerance
  firstDay : Weekday

/-- What is fixed during an evaluation. -/
structure Surroundings extends Settings where
  host : Host := {}

namespace Surroundings

/-- The context in which arguments nest less deeply than `depth`. Beyond that nothing is left to
read but the empty text. -/
def context (s : Surroundings) : (depth : Nat) → Context Text
  | 0 =>
    { s with
      source := id
      number := fun _ => .fail (Lexemes.finish 0).unexpected
      text := fun _ => .fail (Lexemes.finish 0).unexpected }
  | depth + 1 =>
    let inner := s.context depth
    { s with
      source := id
      number := fun t => (NumericExpr.parse t).eval (·.eval inner)
      text := fun t => (TextExpr.parse t).eval (·.eval inner) }

/-- The value of a numeric formula. An argument has fewer characters than what it is cut from, so
the characters bound the nesting. -/
def evalNumber (s : Surroundings) (formula : Text) : Run Float :=
  let t := normalize formula
  (s.context (t.length + 1)).number t

/-- The value of a text formula. -/
def evalText (s : Surroundings) (formula : Text) : Run Text :=
  let t := normalize formula
  (s.context (t.length + 1)).text t

def eval (s : Surroundings) (kind : ValueKind) (formula : Text) : Run Value :=
  match kind with
  | .number => do return .number (← s.evalNumber formula)
  | .text => do return .text (← s.evalText formula)

end Surroundings

end FormulaEngine
