import FormulaEngine.Arity

/-! Why a formula has no value. An error has a kind, says where it happened as far as that is known,
and may carry a detail of its kind. -/

namespace FormulaEngine

inductive ErrorKind where
  /-- A string literal is not closed. -/
  | openString
  /-- A token stands where it cannot, or a range argument is malformed. -/
  | badGrammar
  /-- A call is not closed, or the host refused. -/
  | functionFailure
  /-- A built-in function was given too few or too many arguments. -/
  | parameterCount
  /-- The function exists, but not among expressions of this kind. -/
  | unknownFunction
  /-- A text is not a number. -/
  | invalidNumber
  /-- There is no such date, or a text is not one. -/
  | invalidDate
  deriving DecidableEq, Repr

def ErrorKind.toText : ErrorKind → Text
  | openString => "invalid string".toList
  | badGrammar => "syntax error".toList
  | functionFailure => "function error".toList
  | parameterCount => "wrong parameter count".toList
  | unknownFunction => "unknown function".toList
  | invalidNumber => "invalid number".toList
  | invalidDate => "invalid date".toList

inductive ErrorDetail where
  | none
  | parameters (expected : Arity) (found : Nat)
  | text (t : Text)
  | message (m : Text)
  deriving DecidableEq, Repr

def ErrorDetail.toText : ErrorDetail → Text
  | none => []
  | parameters expected found =>
    ": expected ".toList ++ expected.toText ++ " parameter(s), got ".toList ++ Text.ofNat found
  | text t => ": '".toList ++ t ++ ['\'']
  | message m => ": ".toList ++ m

/-- An error: its kind, the function or identifier it is blamed on, the place in the formula, and a
detail. -/
structure FormulaError where
  kind : ErrorKind
  function? : Option Text := none
  position? : Option Nat := none
  detail : ErrorDetail := .none
  deriving DecidableEq, Repr

namespace FormulaError

def locatedAt (e : FormulaError) (position : Nat) : FormulaError :=
  { e with position? := some position }

/-- Blames a function, unless a function further in is blamed already. -/
def blamedOn (e : FormulaError) (name : Text) : FormulaError :=
  { e with function? := e.function?.or (some name) }

def withDetail (e : FormulaError) (detail : ErrorDetail) : FormulaError := { e with detail }

def saying (e : FormulaError) (message : Text) : FormulaError := e.withDetail (.message message)

/-- A string literal that starts at `position` is not closed. -/
def openString (position : Nat) : FormulaError :=
  { kind := .openString, position? := some position }

def badGrammar (position : Nat) : FormulaError :=
  { kind := .badGrammar, position? := some position }

def functionFailure (name : Text) : FormulaError :=
  { kind := .functionFailure, function? := some name }

def unknownFunction (name : Text) : FormulaError :=
  { kind := .unknownFunction, function? := some name }

def parameterCount (name : Text) (expected : Arity) (found : Nat) : FormulaError :=
  { kind := .parameterCount, function? := some name, detail := .parameters expected found }

def invalidNumber (t : Text) : FormulaError := { kind := .invalidNumber, detail := .text t }

def invalidDate (t : Text) : FormulaError := { kind := .invalidDate, detail := .text t }

/-- The error in one line. -/
def toText (e : FormulaError) : Text :=
  e.kind.toText ++
    (match e.function? with
    | some name => " in '".toList ++ name ++ ['\'']
    | none => []) ++
    (match e.position? with
    | some position => " at ".toList ++ Text.ofNat position
    | none => []) ++
    e.detail.toText

theorem blamedOn_of_some {e : FormulaError} {f : Text} (h : e.function? = some f) (name : Text) :
    e.blamedOn name = e := by
  cases e
  simp_all [blamedOn]

theorem blamedOn_blamedOn (e : FormulaError) (f g : Text) :
    (e.blamedOn f).blamedOn g = e.blamedOn f := by
  simp [blamedOn]

end FormulaError

end FormulaEngine
