import FormulaEngine.Error
import FormulaEngine.RangeKeyword
import FormulaEngine.Value

/-! The application that a formula belongs to, and evaluation as a sequence of questions to it. A
host knows the values behind names, the records around the current one, and functions of its own.
It may refuse any question, which ends the evaluation. -/

namespace FormulaEngine

/-- What an application answers; no answer is a refusal. -/
structure Host where
  value : Text → Option Float := fun _ => none
  text : Text → Option Text := fun _ => none
  range : RangeKeyword → ValueKind → Text → Option (List Value) := fun _ _ _ => none
  numericCall : Text → List Text → Option Float := fun _ _ => none
  textCall : Text → List Text → Option Text := fun _ _ => none

/-- A question to the host. -/
inductive Callback where
  | value (name : Text)
  | text (name : Text)
  | range (keyword : RangeKeyword) (kind : ValueKind) (expression : Text)
  | numericCall (name : Text) (arguments : List Text)
  | textCall (name : Text) (arguments : List Text)
  deriving DecidableEq, Repr

namespace Callback

/-- The name that a question is about. -/
def subject : Callback → Text
  | value name | text name | numericCall name _ | textCall name _ => name
  | range keyword _ _ => keyword.toText

/-- The error when the host refuses a question. -/
def refusal (c : Callback) : FormulaError :=
  (FormulaError.functionFailure c.subject).saying <|
    match c with
    | value _ | text _ => "unknown identifier".toList
    | range .. => "range not handled".toList
    | numericCall .. | textCall .. => "function not handled".toList

end Callback

/-- The host has no answer to a question. -/
def Host.refuses (h : Host) : Callback → Bool
  | .value name => (h.value name).isNone
  | .text name => (h.text name).isNone
  | .range keyword kind expression => (h.range keyword kind expression).isNone
  | .numericCall name arguments => (h.numericCall name arguments).isNone
  | .textCall name arguments => (h.textCall name arguments).isNone

/-- The course of an evaluation: the questions in the order in which they were asked, and then a
value or an error. -/
structure Run (α : Type) where
  trace : List Callback
  result : Except FormulaError α

namespace Run

variable {α β : Type}

def pure (a : α) : Run α := ⟨[], .ok a⟩

def fail (e : FormulaError) : Run α := ⟨[], .error e⟩

/-- Goes on with the value, unless there is an error. -/
def bind (r : Run α) (f : α → Run β) : Run β :=
  match r.result with
  | .ok a => ⟨r.trace ++ (f a).trace, (f a).result⟩
  | .error e => ⟨r.trace, .error e⟩

instance : Monad Run where
  pure := pure
  bind := bind

/-- A result that no question is needed for. -/
def ofExcept (r : Except FormulaError α) : Run α := ⟨[], r⟩

/-- A question and its answer. -/
def ask (c : Callback) (answer : Option α) : Run α :=
  ⟨[c], match answer with
    | some a => .ok a
    | none => .error c.refusal⟩

/-- Blames a function for an error that blames none yet. -/
def blamedOn (r : Run α) (name : Text) : Run α :=
  { r with result := r.result.mapError (·.blamedOn name) }

@[simp] theorem pure_eq (a : α) : (Pure.pure a : Run α) = ⟨[], .ok a⟩ := rfl

theorem bind_of_ok {r : Run α} {a : α} (h : r.result = .ok a) (f : α → Run β) :
    r >>= f = ⟨r.trace ++ (f a).trace, (f a).result⟩ := by
  show bind r f = _
  simp [bind, h]

theorem bind_of_error {r : Run α} {e : FormulaError} (h : r.result = .error e)
    (f : α → Run β) : r >>= f = ⟨r.trace, .error e⟩ := by
  show bind r f = _
  simp [bind, h]

/-- An answered question goes on with the answer. -/
@[simp] theorem ask_some_bind (c : Callback) (a : α) (f : α → Run β) :
    ask c (some a) >>= f = ⟨c :: (f a).trace, (f a).result⟩ := rfl

/-- A refused question ends the run with an error about its subject. -/
@[simp] theorem ask_none_bind (c : Callback) (f : α → Run β) :
    ask c none >>= f = ⟨[c], .error c.refusal⟩ := rfl

theorem function?_refusal (c : Callback) : c.refusal.function? = some c.subject := rfl

end Run

end FormulaEngine
