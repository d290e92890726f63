import FormulaEngine.Dictionary
import FormulaEngine.Evaluation

/-! Records as hosts. A record has values, texts, children and parents, and functions with simple
answers. Asked for a range it evaluates the expression on each of its children or parents; asked for
a function it may evaluate one of the arguments. So answering one question may mean asking more, and
the full course of an evaluation is found by going through the answers in the same way. -/

namespace FormulaEngine

/-- What a numeric function of a record answers. -/
inductive NumericAnswer where
  | fixed (v : Float)
  | argumentCount
  | evaluate (index : Nat)

/-- What a text function of a record answers. -/
inductive TextAnswer where
  | fixed (t : Text)
  | join (separator : Text)
  | evaluate (index : Nat)

/-- A record, with the records around it. Ranges that are listed are answered as they are. -/
structure Record where
  values : Dictionary Float
  texts : Dictionary Text
  ranges : Dictionary (List Value)
  children? : Option (List Record)
  parents? : Option (List Record)
  numericFunctions : Dictionary NumericAnswer
  textFunctions : Dictionary TextAnswer

/-- A formula that one record has evaluated to answer a question about another. -/
structure Delegation where
  record : Record
  kind : ValueKind
  formula : Text

namespace Record

/-- The evaluations that answering a question takes, in order; nothing when none of the record's
data answers it in this way. -/
def delegations? (r : Record) : Callback → Option (List Delegation)
  | .range keyword kind expression =>
    if (r.ranges.find? keyword.toText).isSome then none
    else
      (if keyword.isDownward then r.children? else r.parents?).map
        (·.map fun around => ⟨around, kind, expression⟩)
  | .numericCall name arguments =>
    match r.numericFunctions.find? name with
    | some (.evaluate i) => (arguments[i]?).map fun x => [⟨r, .number, x⟩]
    | _ => none
  | .textCall name arguments =>
    match r.textFunctions.find? name with
    | some (.evaluate i) => (arguments[i]?).map fun x => [⟨r, .text, x⟩]
    | _ => none
  | .value _ | .text _ => none

/-- A number is null when it is zero, and a text when it is empty. -/
def isNull : Value → Bool
  | .number v => v == 0
  | .text t => t.isEmpty

/-- The values of the delegations of a question, if there are any and all of them succeed. -/
def delegated? (run : Delegation → Run Value) (r : Record) (c : Callback) :
    Option (List Value) := do
  (← r.delegations? c).mapM fun d => (run d).result.toOption

/-- The answers of a record, where `run` evaluates its delegations. -/
def answers (run : Delegation → Run Value) (r : Record) : Host where
  value := r.values.find?
  text := r.texts.find?
  range keyword kind expression :=
    match r.ranges.find? keyword.toText with
    | some vs => some vs
    | none =>
      (delegated? run r (.range keyword kind expression)).map fun vs =>
        if keyword.skipsNull then vs.filter fun v => !isNull v else vs
  numericCall name arguments :=
    match r.numericFunctions.find? name with
    | some (.fixed v) => some v
    | some .argumentCount => some (.ofNat arguments.length)
    | some (.evaluate _) =>
      (delegated? run r (.numericCall name arguments)).bind fun vs => vs.head?.bind (·.number?)
    | none => none
  textCall name arguments :=
    match r.textFunctions.find? name with
    | some (.fixed t) => some t
    | some (.join separator) => some (Text.join separator arguments)
    | some (.evaluate _) =>
      (delegated? run r (.textCall name arguments)).bind fun vs => vs.head?.bind (·.text?)
    | none => none

/-- Evaluates a delegation. A delegated formula is a part of the one in which the question arose, so
`depth` is bounded by the length of that. -/
def run (s : Settings) : (depth : Nat) → Delegation → Run Value
  | 0, _ => .fail (Lexemes.finish 0).unexpected
  | depth + 1, d =>
    let host := answers (run s depth) d.record
    ({ s with host } : Surroundings).eval d.kind d.formula

/-- The record as a host, for formulas shorter than `depth`. -/
def host (s : Settings) (depth : Nat) (r : Record) : Host := answers (run s depth) r

/-- The delegations that are carried out: all up to the first that fails. -/
def carriedOut (run : Delegation → Run Value) : List Delegation → List Delegation
  | [] => []
  | d :: ds =>
    match (run d).result with
    | .ok _ => d :: carriedOut run ds
    | .error _ => [d]

/-- A question to a record with all questions that answering it raises, in the order in which they
are asked. -/
def course (s : Settings) : (depth : Nat) → Record → Callback → List Callback
  | 0, _, c => [c]
  | depth + 1, r, c =>
    c :: (carriedOut (run s (depth + 1)) ((r.delegations? c).getD [])).flatMap fun d =>
      (run s (depth + 1) d).trace.flatMap (course s depth d.record)

/-- Evaluates a formula on a record, under settings that may differ from those of the evaluations it
delegates. The trace is the full course. -/
def eval (top delegated : Settings) (r : Record) (kind : ValueKind) (formula : Text) :
    Run Value :=
  let depth := formula.length + 1
  let outer := ({ top with host := r.host delegated depth } : Surroundings).eval kind formula
  { outer with trace := outer.trace.flatMap (course delegated depth r) }

end Record

end FormulaEngine
