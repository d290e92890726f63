import FormulaEngine.Intrinsic.Table
import Mathlib.Data.List.Forall2

/-! # Functions of the language relate what is related

A relation between runs that respects their composition is carried through every function of the
language: when two contexts answer for the same application, and the arguments that a function reads
give related runs, then the function gives related runs. That is said once for the tables of
functions, by the way in which each function reads its arguments. -/

namespace FormulaEngine

/-- If the result is an error, it tells of no place in a formula. -/
def Unplaced {α : Type} (r : Except FormulaError α) : Prop := ∀ e, r = .error e → e.position? = none

/-- A relation between runs that holds of results that need no question and no place in a formula,
of certain questions, and of runs that are put together from related ones. -/
structure Run.Relation where
  Holds : {α : Type} → Run α → Run α → Prop
  /-- A question may be asked, and be refused or not. -/
  Allows : Callback → (refused : Bool) → Prop
  ask : ∀ {α : Type} {q : Callback} (answer : Option α), Allows q answer.isNone →
    Holds (.ask q answer) (.ask q answer)
  ofExcept : ∀ {α : Type} {r : Except FormulaError α}, Unplaced r →
    Holds (.ofExcept r) (.ofExcept r)
  bind : ∀ {α β : Type} {r r' : Run α} {f f' : α → Run β}, Holds r r' →
    (∀ a, Holds (f a) (f' a)) → Holds (r >>= f) (r' >>= f')
  blamedOn : ∀ {α : Type} {r r' : Run α} (name : Text), Holds r r' →
    Holds (r.blamedOn name) (r'.blamedOn name)

namespace Run.Relation

/-- Equality of runs. -/
def equality : Run.Relation where
  Holds := (· = ·)
  Allows _ _ := True
  ask _ _ := rfl
  ofExcept _ := rfl
  bind h hf := by rw [h, funext hf]
  blamedOn _ h := by rw [h]

/-- Every question that is asked satisfies `P`. -/
def asking (P : Callback → Prop) : Run.Relation where
  Holds r _ := ∀ q ∈ r.trace, P q
  Allows q _ := P q
  ask _ hq := List.forall_mem_singleton.mpr hq
  ofExcept _ := fun _ hq => nomatch hq
  bind {_ _ r _ f _} h hf := by
    intro q hq
    cases hr : r.result with
    | ok a =>
      rw [bind_of_ok hr] at hq
      exact (List.mem_append.mp hq).elim (h q) (hf a q)
    | error e =>
      rw [bind_of_error hr] at hq
      exact h q hq
  blamedOn _ h := h

variable (K : Run.Relation)

/-- A question may be put to this host, which refuses it or not. -/
def Permits (h : Host) (q : Callback) : Prop := K.Allows q (h.refuses q)

/-- A run may end in this error, wherever it comes from. -/
def Fails (e : FormulaError) : Prop := ∀ {α : Type}, K.Holds (Run.fail e : Run α) (Run.fail e)

theorem pure {α : Type} (a : α) : K.Holds (Pure.pure a) (Pure.pure a) :=
  K.ofExcept (r := .ok a) fun _ h => nomatch h

theorem fail {e : FormulaError} (h : e.position? = none) : K.Fails e := by
  refine fun {α} => K.ofExcept (r := .error e) fun e' he => ?_
  cases he
  exact h

theorem map {α β : Type} {r r' : Run α} {g : α → β} (h : K.Holds r r') :
    K.Holds (r >>= fun v => Pure.pure (g v)) (r' >>= fun v => Pure.pure (g v)) :=
  K.bind h fun _ => K.pure _

theorem each {α β γ : Type} {f : α → Run γ} {f' : β → Run γ} {xs : List α} {ys : List β}
    (h : List.Forall₂ (fun x y => K.Holds (f x) (f' y)) xs ys) :
    K.Holds (Run.each f xs) (Run.each f' ys) := by
  induction h with
  | nil => exact K.pure _
  | cons hxy _ ih => exact K.bind hxy fun _ => K.bind ih fun _ => K.pure _

end Run.Relation

/-- Contexts for the same application, at the same time and with the same settings. -/
structure Context.Alike {A B : Type} (c : Context A) (c' : Context B) : Prop where
  host : c.host = c'.host
  now : c.now = c'.now
  tolerance : c.tolerance = c'.tolerance
  firstDay : c.firstDay = c'.firstDay

namespace Intrinsic

/-- How a function reads its arguments. -/
inductive Parameters where
  /-- One after the other, each as a value of its own kind. -/
  | each (kinds : List ValueKind)
  /-- Any number of arguments as values of one kind. -/
  | all (kind : ValueKind)
  /-- As a list of values of one kind, which a range can take the place of. -/
  | values (kind : ValueKind)
  deriving DecidableEq, Repr

section

variable {A B : Type} (K : Run.Relation) (c : Context A) (c' : Context B)

/-- Two arguments give related runs when they are read as values of this kind. -/
def Read : ValueKind → A → B → Prop
  | .number, x, y => K.Holds (c.number x) (c'.number y)
  | .text, x, y => K.Holds (c.text x) (c'.text y)

/-- Arguments give related runs when they are read as values of these kinds, as far as there are
as many. -/
def ReadEach : List ValueKind → List A → List B → Prop
  | kind :: kinds, x :: xs, y :: ys => Read K c c' kind x y ∧ ReadEach kinds xs ys
  | _, _, _ => True

/-- Arguments give related runs in the way in which a function reads them. -/
def Parameters.Related : Parameters → List A → List B → Prop
  | each kinds, xs, ys => ReadEach K c c' kinds xs ys
  | all kind, xs, ys => List.Forall₂ (Read K c c' kind) xs ys
  | values .number, xs, ys => K.Holds (numbers c xs) (numbers c' ys)
  | values .text, xs, ys => K.Holds (texts c xs) (texts c' ys)

/-- Two lists of arguments of the same length. -/
abbrev Paired : List A → List B → Prop := List.Forall₂ fun _ _ => True

/-- The two functions are of the same arity, and give related runs for related arguments. -/
structure Respects {α : Type} (p : Parameters) (b : Body A α) (b' : Body B α) : Prop where
  arity : b.arity = b'.arity
  run : ∀ {xs ys}, Paired xs ys → p.Related K c c' xs ys →
    Option.Rel K.Holds (b.run? c xs) (b'.run? c' ys)

end

section

variable {A B α : Type} {K : Run.Relation} {c : Context A} {c' : Context B}

theorem respects_one {k : ValueKind} {f : Context A → A → Run α} {f' : Context B → B → Run α}
    (h : ∀ {x y}, Read K c c' k x y → K.Holds (f c x) (f' c' y)) :
    Respects K c c' (.each [k]) (.one f) (.one f') where
  arity := rfl
  run hl hr := by
    rcases hl with _ | ⟨_, _ | ⟨_, _⟩⟩
    case cons.nil => exact .some (h hr.1)
    all_goals exact .none

theorem respects_two {k l : ValueKind} {f : Context A → A → A → Run α}
    {f' : Context B → B → B → Run α}
    (h : ∀ {x y x' y'}, Read K c c' k x x' → Read K c c' l y y' →
      K.Holds (f c x y) (f' c' x' y')) :
    Respects K c c' (.each [k, l]) (.two f) (.two f') where
  arity := rfl
  run hl hr := by
    rcases hl with _ | ⟨_, _ | ⟨_, _ | ⟨_, _⟩⟩⟩
    case cons.cons.nil => exact .some (h hr.1 hr.2.1)
    all_goals exact .none

theorem respects_three {k l m : ValueKind} {f : Context A → A → A → A → Run α}
    {f' : Context B → B → B → B → Run α}
    (h : ∀ {x y z x' y' z'}, Read K c c' k x x' → Read K c c' l y y' → Read K c c' m z z' →
      K.Holds (f c x y z) (f' c' x' y' z')) :
    Respects K c c' (.each [k, l, m]) (.three f) (.three f') where
  arity := rfl
  run hl hr := by
    rcases hl with _ | ⟨_, _ | ⟨_, _ | ⟨_, _ | ⟨_, _⟩⟩⟩⟩
    case cons.cons.cons.nil => exact .some (h hr.1 hr.2.1 hr.2.2.1)
    all_goals exact .none

theorem respects_six {f : Context A → A → A → A → A → A → A → Run α}
    {f' : Context B → B → B → B → B → B → B → Run α} {k : ValueKind}
    (h : ∀ {u v w x y z u' v' w' x' y' z'}, Read K c c' k u u' → Read K c c' k v v' →
      Read K c c' k w w' → Read K c c' k x x' → Read K c c' k y y' → Read K c c' k z z' →
      K.Holds (f c u v w x y z) (f' c' u' v' w' x' y' z')) :
    Respects K c c' (.each [k, k, k, k, k, k]) (.six f) (.six f') where
  arity := rfl
  run hl hr := by
    rcases hl with _ | ⟨_, _ | ⟨_, _ | ⟨_, _ | ⟨_, _ | ⟨_, _ | ⟨_, _ | ⟨_, _⟩⟩⟩⟩⟩⟩⟩
    case cons.cons.cons.cons.cons.cons.nil =>
      obtain ⟨hu, hv, hw, hx, hy, hz, _⟩ := hr
      exact .some (h hu hv hw hx hy hz)
    all_goals exact .none

theorem respects_atLeast {p : Parameters} {n : Nat} {f : Context A → List A → Run α}
    {f' : Context B → List B → Run α}
    (h : ∀ {xs ys}, p.Related K c c' xs ys → K.Holds (f c xs) (f' c' ys)) :
    Respects K c c' p (.atLeast n f) (.atLeast n f') where
  arity := rfl
  run {xs ys} hl hr := by
    simp only [Body.run?, hl.length_eq]
    split
    · exact .some (h hr)
    · exact .none

/-- Tables of the same names, whose functions respect the relation in the ways that are listed. -/
inductive Tabled (K : Run.Relation) (c : Context A) (c' : Context B) :
    List (Text × Parameters) → List (Text × Body A α) → List (Text × Body B α) → Prop
  | nil : Tabled K c c' [] [] []
  | cons (name : Text) {p : Parameters} {b : Body A α} {b' : Body B α}
      {ps : List (Text × Parameters)} {bs : List (Text × Body A α)} {bs' : List (Text × Body B α)} :
      Respects K c c' p b b' → Tabled K c c' ps bs bs' →
      Tabled K c c' ((name, p) :: ps) ((name, b) :: bs) ((name, b') :: bs')

theorem Tabled.lookup {ps : List (Text × Parameters)} {bs : List (Text × Body A α)}
    {bs' : List (Text × Body B α)} (h : Tabled K c c' ps bs bs') (name : Text) :
    (bs.lookup name = none ∧ bs'.lookup name = none) ∨
      ∃ p b b', ps.lookup name = some p ∧ bs.lookup name = some b ∧ bs'.lookup name = some b' ∧
        Respects K c c' p b b' := by
  induction h with
  | nil => exact .inl ⟨rfl, rfl⟩
  | @cons n p b b' ps bs bs' hb _ ih =>
    simp only [List.lookup_cons]
    split
    · exact .inr ⟨p, b, b', rfl, rfl, rfl, hb⟩
    · exact ih

/-- A call of a function from tables that respect a relation gives related runs. The arguments are
not read when there is a wrong number of them. -/
theorem Tabled.call {ps : List (Text × Parameters)} {bs : List (Text × Body A α)}
    {bs' : List (Text × Body B α)} (h : Tabled K c c' ps bs bs') (sort name : Text) {xs : List A}
    {ys : List B} (hl : xs.length = ys.length)
    (hr : ∀ p b, ps.lookup (Text.foldCase name) = some p → bs.lookup (Text.foldCase name) = some b →
      b.arity.accepts xs.length = true → p.Related K c c' xs ys) :
    K.Holds (Intrinsic.call bs sort c name xs) (Intrinsic.call bs' sort c' name ys) := by
  have hpaired : Paired xs ys := List.forall₂_iff_zip.mpr ⟨hl, fun _ => trivial⟩
  unfold Intrinsic.call
  obtain ⟨hb, hb'⟩ | ⟨p, b, b', hp, hb, hb', hrespects⟩ := h.lookup (Text.foldCase name)
  · rw [hb, hb']
    exact K.fail rfl
  · rw [hb, hb']
    have hsome := b.isSome_run? c xs
    have hsome' := b'.isSome_run? c' ys
    rw [← hrespects.arity, ← hl] at hsome'
    dsimp only
    rw [← hrespects.arity, ← hl]
    cases haccepts : b.arity.accepts xs.length with
    | false =>
      rw [haccepts, Option.isSome_eq_false_iff, Option.isNone_iff_eq_none] at hsome hsome'
      rw [hsome, hsome']
      exact K.fail rfl
    | true =>
      have hrun := hrespects.run hpaired (hr p b hp hb haccepts)
      generalize b.run? c xs = r at hrun
      generalize b'.run? c' ys = r' at hrun
      cases hrun with
      | none => exact K.fail rfl
      | some h => exact K.blamedOn _ h

end

/-! ## The functions of the language -/

/-- How the numeric functions read their arguments. -/
def numericParameters : List (Text × Parameters) := [
  ("and".toList, .all .number),
  ("avg".toList, .values .number),
  ("between".toList, .each [.number, .number, .number]),
  ("ceil".toList, .each [.number]),
  ("compare".toList, .each [.text, .text]),
  ("comparestr".toList, .each [.text, .text]),
  ("comparetext".toList, .each [.text, .text]),
  ("count".toList, .values .number),
  ("empty".toList, .each [.text]),
  ("endofthemonth".toList, .each [.number]),
  ("floor".toList, .each [.number]),
  ("getday".toList, .each [.number]),
  ("getmonth".toList, .each [.number]),
  ("getweek".toList, .each [.number]),
  ("getyear".toList, .each [.number]),
  ("if".toList, .each [.number, .number, .number]),
  ("len".toList, .each [.text]),
  ("max".toList, .values .number),
  ("min".toList, .values .number),
  ("not".toList, .each [.number]),
  ("now".toList, .each [.number]),
  ("or".toList, .all .number),
  ("pos".toList, .each [.text, .text]),
  ("round".toList, .each [.number, .number]),
  ("safediv".toList, .each [.number, .number]),
  ("startofthemonth".toList, .each [.number]),
  ("startoftheweek".toList, .each [.number]),
  ("stringtodatetime".toList, .each [.text, .text]),
  ("sum".toList, .values .number),
  ("todate".toList, .each [.number, .number, .number]),
  ("todatetime".toList, .each [.number, .number, .number, .number, .number, .number]),
  ("today".toList, .each [.number]),
  ("todouble".toList, .each [.text]),
  ("tonumber".toList, .each [.text])]

@[inherit_doc numericParameters]
def textParameters : List (Text × Parameters) := [
  ("concat".toList, .all .text),
  ("concatenate".toList, .all .text),
  ("count".toList, .values .text),
  ("if".toList, .each [.number, .text, .text]),
  ("left".toList, .each [.text, .number]),
  ("lowercase".toList, .each [.text]),
  ("max".toList, .values .text),
  ("min".toList, .values .text),
  ("repl".toList, .each [.text, .number]),
  ("right".toList, .each [.text, .number]),
  ("substr".toList, .each [.text, .number, .number]),
  ("sum".toList, .values .text),
  ("tostr".toList, .each [.number]),
  ("uppercase".toList, .each [.text])]

variable {A B : Type} {K : Run.Relation} {c : Context A} {c' : Context B}

/-- Reads arguments until one has the truth value `b`. -/
def seek (b : Bool) (c : Context A) : List A → Run Float
  | [] => return truthValue !b
  | x :: xs => do
    let v ← c.number x
    if isTrue v = b then return truthValue b else seek b c xs

/-- A conjunction looks for a false argument, and a disjunction for a true one. -/
theorem any_all_eq_seek (b : Bool) : (bif b then @any A else @all A) = seek b := by
  funext c xs
  induction xs with
  | nil => cases b <;> rfl
  | cons x xs ih =>
    rw [seek, ← ih]
    cases b
    all_goals exact congrArg (c.number x >>= ·) (funext fun v => by cases isTrue v <;> rfl)

theorem holds_seek (b : Bool) {xs : List A} {ys : List B}
    (h : List.Forall₂ (Read K c c' .number) xs ys) : K.Holds (seek b c xs) (seek b c' ys) := by
  induction h with
  | nil => exact K.pure _
  | cons hxy _ ih =>
    refine K.bind hxy fun v => ?_
    split
    · exact K.pure _
    · exact ih

theorem holds_any_all (b : Bool) {xs : List A} {ys : List B}
    (h : List.Forall₂ (Read K c c' .number) xs ys) :
    K.Holds ((bif b then any else all) c xs) ((bif b then any else all) c' ys) := by
  rw [any_all_eq_seek, any_all_eq_seek]
  exact holds_seek b h

theorem holds_ifNumber {x y z : A} {x' y' z' : B} (hx : Read K c c' .number x x')
    (hy : Read K c c' .number y y') (hz : Read K c c' .number z z') :
    K.Holds (ifNumber c x y z) (ifNumber c' x' y' z') := by
  refine K.bind hx fun v => ?_
  split
  · exact hy
  · exact hz

theorem holds_ifText (hc : c.Alike c') {x y z : A} {x' y' z' : B} (hx : Read K c c' .number x x')
    (hy : Read K c c' .text y y') (hz : Read K c c' .text z z') :
    K.Holds (ifText c x y z) (ifText c' x' y' z') := by
  refine K.bind hx fun v => ?_
  rw [hc.tolerance]
  split
  · exact hy
  · exact hz

theorem holds_repeatText {x y : A} {x' y' : B} (hx : Read K c c' .text x x')
    (hy : Read K c c' .number y y') : K.Holds (repeatText c x y) (repeatText c' x' y') := by
  refine K.bind hx fun t => K.bind hy fun v => ?_
  dsimp only
  split
  · exact K.pure _
  · exact K.fail rfl

theorem holds_dated {β : Type} (r : Except DateError β) : K.Holds (dated r) (dated r) := by
  refine K.ofExcept fun e he => ?_
  cases r with
  | ok => cases he
  | error d =>
    cases he
    cases d <;> rfl

theorem unplaced_readNumber (t : Text) : Unplaced (readNumber t) := by
  intro e he
  unfold readNumber at he
  split at he <;> cases he
  rfl

theorem unplaced_numberOf (v : Value) : Unplaced (numberOf v) := by
  cases v with
  | number v => exact fun e he => nomatch he
  | text t => exact unplaced_readNumber t

/-- An argument that is no range in parentheses is an error that tells of no place. -/
theorem unplaced_delegated (xs : List Text) : Unplaced (delegated xs) := by
  have hparenthesized : ∀ t, Unplaced (Arguments.parenthesized t) := by
    intro t e he
    unfold Arguments.parenthesized at he
    dsimp only at he
    split at he
    all_goals cases he
    rfl
  intro e he
  unfold delegated at he
  split at he
  · rename_i x
    dsimp only at he
    split at he
    · cases he
    · split at he
      · cases he
      · rename_i keyword stop _
        cases hinner : Arguments.parenthesized (x.drop stop) with
        | ok inner =>
          rw [hinner] at he
          cases he
        | error e' =>
          rw [hinner] at he
          cases he
          exact hparenthesized _ _ hinner
  · cases he

theorem holds_dateOf {x : A} {x' : B} (hx : Read K c c' .number x x') :
    K.Holds (dateOf c x) (dateOf c' x') :=
  K.bind hx fun _ => holds_dated _

theorem holds_wholeOf {x : A} {x' : B} (hx : Read K c c' .number x x') :
    K.Holds (wholeOf c x) (wholeOf c' x') :=
  K.bind hx fun _ => K.pure _

/-- The numeric functions give related runs for related arguments. -/
theorem tabled_numeric (hc : c.Alike c') :
    Tabled K c c' numericParameters numericTable numericTable := by
  unfold numericParameters numericTable
  refine .cons "and".toList (respects_atLeast (holds_any_all false)) <|
    .cons "avg".toList (respects_atLeast K.map) <|
    .cons "between".toList (respects_three fun hx hy hz => K.bind hx fun _ =>
      K.bind hy fun _ => K.bind hz fun _ => ?_) <|
    .cons "ceil".toList (respects_one K.map) <|
    .cons "compare".toList (respects_two fun hx hy => K.bind hx fun _ => K.map hy) <|
    .cons "comparestr".toList (respects_two fun hx hy => K.bind hx fun _ => K.map hy) <|
    .cons "comparetext".toList (respects_two fun hx hy => K.bind hx fun _ => K.map hy) <|
    .cons "count".toList (respects_atLeast K.map) <|
    .cons "empty".toList (respects_one K.map) <|
    .cons "endofthemonth".toList (respects_one fun hx => K.map (holds_dateOf hx)) <|
    .cons "floor".toList (respects_one K.map) <|
    .cons "getday".toList (respects_one fun hx => K.map (holds_dateOf hx)) <|
    .cons "getmonth".toList (respects_one fun hx => K.map (holds_dateOf hx)) <|
    .cons "getweek".toList (respects_one fun hx => K.map (holds_dateOf hx)) <|
    .cons "getyear".toList (respects_one fun hx => K.map (holds_dateOf hx)) <|
    .cons "if".toList (respects_three holds_ifNumber) <|
    .cons "len".toList (respects_one K.map) <|
    .cons "max".toList (respects_atLeast K.map) <|
    .cons "min".toList (respects_atLeast K.map) <|
    .cons "not".toList (respects_one K.map) <|
    .cons "now".toList (respects_one fun hx => K.bind hx fun _ => ?_) <|
    .cons "or".toList (respects_atLeast (holds_any_all true)) <|
    .cons "pos".toList (respects_two fun hx hy => K.bind hx fun _ => K.map hy) <|
    .cons "round".toList (respects_two fun hx hy => K.bind hx fun _ => K.map hy) <|
    .cons "safediv".toList (respects_two fun hx hy => K.bind hx fun _ => K.map hy) <|
    .cons "startofthemonth".toList (respects_one fun hx => K.map (holds_dateOf hx)) <|
    .cons "startoftheweek".toList (respects_one fun hx => K.bind (holds_dateOf hx) fun _ => ?_) <|
    .cons "stringtodatetime".toList (respects_two fun hx hy => K.bind hx fun _ =>
      K.bind hy fun _ => ?_) <|
    .cons "sum".toList (respects_atLeast K.map) <|
    .cons "todate".toList (respects_three fun hx hy hz => K.bind (holds_wholeOf hx) fun _ =>
      K.bind (holds_wholeOf hy) fun _ => K.bind (holds_wholeOf hz) fun _ =>
      K.map (holds_dated _)) <|
    .cons "todatetime".toList (respects_six fun hu hv hw hx hy hz =>
      K.bind (holds_wholeOf hu) fun _ => K.bind (holds_wholeOf hv) fun _ =>
      K.bind (holds_wholeOf hw) fun _ =>
      K.bind (holds_wholeOf hx) fun _ => K.bind (holds_wholeOf hy) fun _ =>
      K.bind (holds_wholeOf hz) fun _ => K.map (holds_dated _)) <|
    .cons "today".toList (respects_one fun hx => K.bind hx fun _ => ?_) <|
    .cons "todouble".toList (respects_one fun hx => K.bind hx fun _ =>
      K.ofExcept (unplaced_readNumber _)) <|
    .cons "tonumber".toList (respects_one fun hx => K.bind hx fun _ =>
      K.ofExcept (unplaced_readNumber _)) .nil
  · rw [hc.tolerance]
    exact K.pure _
  · rw [hc.now]
    exact K.pure _
  · rw [hc.firstDay]
    exact K.pure _
  · rw [Context.today, Context.today, hc.now]
    exact K.map (holds_dated _)
  · rw [Context.today, Context.today, hc.now]
    exact K.pure _

/-- The text functions give related runs for related arguments. -/
theorem tabled_text (hc : c.Alike c') : Tabled K c c' textParameters textTable textTable := by
  unfold textParameters textTable
  exact .cons "concat".toList (respects_atLeast fun h => K.map (K.each h)) <|
    .cons "concatenate".toList (respects_atLeast fun h => K.map (K.each h)) <|
    .cons "count".toList (respects_atLeast K.map) <|
    .cons "if".toList (respects_three (holds_ifText hc)) <|
    .cons "left".toList (respects_two fun hx hy => K.bind hx fun _ => K.map hy) <|
    .cons "lowercase".toList (respects_one K.map) <|
    .cons "max".toList (respects_atLeast K.map) <|
    .cons "min".toList (respects_atLeast K.map) <|
    .cons "repl".toList (respects_two holds_repeatText) <|
    .cons "right".toList (respects_two fun hx hy => K.bind hx fun _ => K.map hy) <|
    .cons "substr".toList (respects_three fun hx hy hz => K.bind hx fun _ =>
      K.bind hy fun _ => K.map hz) <|
    .cons "sum".toList (respects_atLeast K.map) <|
    .cons "tostr".toList (respects_one K.map) <|
    .cons "uppercase".toList (respects_one K.map) .nil

/-- How many arguments the functions of a kind take. -/
def arities : ValueKind → List (Text × Arity)
  | .number => (numericTable (A := Text)).map fun e => (e.1, e.2.arity)
  | .text => (textTable (A := Text)).map fun e => (e.1, e.2.arity)

/-- The language has a function of this kind and name that takes so many arguments. -/
def Accepts (kind : ValueKind) (name : Text) (count : Nat) : Prop :=
  ∃ a, (arities kind).lookup (Text.foldCase name) = some a ∧ a.accepts count = true

theorem lookup_arity {α : Type} {bs : List (Text × Body A α)} {name : Text} {b : Body A α}
    (h : bs.lookup name = some b) :
    (bs.map fun e => (e.1, e.2.arity)).lookup name = some b.arity := by
  induction bs with
  | nil => cases h
  | cons e bs ih =>
    rw [List.map_cons, List.lookup_cons]
    rw [List.lookup_cons] at h
    split at h
    · cases h
      rfl
    · exact ih h

/-- A numeric call gives related runs when its arguments do, read as the function reads them. -/
theorem holds_callNumeric (hc : c.Alike c') {name : Text} {xs : List A} {ys : List B}
    (hl : xs.length = ys.length)
    (hr : ∀ p, numericParameters.lookup (Text.foldCase name) = some p →
      Accepts .number name xs.length → p.Related K c c' xs ys) :
    K.Holds (callNumeric c name xs) (callNumeric c' name ys) :=
  (tabled_numeric hc).call _ name hl fun p b hp hb ha => hr p hp ⟨b.arity, lookup_arity hb, ha⟩

@[inherit_doc holds_callNumeric]
theorem holds_callText (hc : c.Alike c') {name : Text} {xs : List A} {ys : List B}
    (hl : xs.length = ys.length)
    (hr : ∀ p, textParameters.lookup (Text.foldCase name) = some p →
      Accepts .text name xs.length → p.Related K c c' xs ys) :
    K.Holds (callText c name xs) (callText c' name ys) :=
  (tabled_text hc).call _ name hl fun p b hp hb ha => hr p hp ⟨b.arity, lookup_arity hb, ha⟩

/-! ## Which arguments are read -/

/-- The kind of a range is that of the values that are read. -/
theorem holds_values {α : Type} {xs ys : List Text}
    {f f' : Option (RangeKeyword × Text) → Run α} (hd : delegated xs = delegated ys)
    (h : ∀ o, delegated xs = .ok o → K.Holds (f o) (f' o)) :
    K.Holds (Run.ofExcept (delegated xs) >>= f) (Run.ofExcept (delegated ys) >>= f') := by
  have hunplaced := unplaced_delegated xs
  rw [← hd]
  generalize delegated xs = r at h hunplaced
  cases r with
  | error e => exact K.fail (hunplaced e rfl)
  | ok o => exact h o rfl

theorem holds_askRange (hc : c.Alike c') {keyword : RangeKeyword} {kind : ValueKind} {e : Text}
    (h : K.Permits c.host (.range keyword kind e)) :
    K.Holds (askRange c keyword kind e) (askRange c' keyword kind e) := by
  rw [askRange, askRange, ← hc.host]
  exact K.ask _ h

theorem holds_numbers (hc : c.Alike c') {xs : List A} {ys : List B}
    (hd : delegated (xs.map c.source) = delegated (ys.map c'.source))
    (ha : ∀ k e, delegated (xs.map c.source) = .ok (some (k, e)) →
      K.Permits c.host (.range k .number e))
    (h : delegated (xs.map c.source) = .ok none → List.Forall₂ (Read K c c' .number) xs ys) :
    K.Holds (numbers c xs) (numbers c' ys) := by
  refine holds_values hd fun o ho => ?_
  match o with
  | none => exact K.each (h ho)
  | some (k, e) =>
    exact K.bind (holds_askRange hc (ha k e ho)) fun vs =>
      K.each (List.forall₂_same.mpr fun v _ => K.ofExcept (unplaced_numberOf v))

theorem holds_texts (hc : c.Alike c') {xs : List A} {ys : List B}
    (hd : delegated (xs.map c.source) = delegated (ys.map c'.source))
    (ha : ∀ k e, delegated (xs.map c.source) = .ok (some (k, e)) →
      K.Permits c.host (.range k .text e))
    (h : delegated (xs.map c.source) = .ok none → List.Forall₂ (Read K c c' .text) xs ys) :
    K.Holds (texts c xs) (texts c' ys) := by
  refine holds_values hd fun o ho => ?_
  match o with
  | none => exact K.each (h ho)
  | some (k, e) => exact K.map (holds_askRange hc (ha k e ho))

/-- A function that reads its arguments in this way may read `x`, as a value of kind `k`. It reads
none of them where a range takes their place. -/
def Parameters.Reads (xs : List Text) (k : ValueKind) (x : Text) : Parameters → Prop
  | each kinds => (k, x) ∈ kinds.zip xs
  | all kind => k = kind ∧ x ∈ xs
  | values kind => delegated xs = .ok none ∧ k = kind ∧ x ∈ xs

theorem Parameters.Reads.mem {xs : List Text} {k : ValueKind} {x : Text} {p : Parameters}
    (h : p.Reads xs k x) : x ∈ xs := by
  match p with
  | each kinds => exact (List.of_mem_zip h).2
  | all kind => exact h.2
  | values kind => exact h.2.2

theorem readEach_of_zip {c c' : Context Text} {kinds : List ValueKind} {xs : List Text}
    (h : ∀ k x, (k, x) ∈ kinds.zip xs → Read K c c' k x x) : ReadEach K c c' kinds xs xs := by
  induction kinds generalizing xs with
  | nil => trivial
  | cons k kinds ih =>
    cases xs with
    | nil => trivial
    | cons x xs =>
      exact ⟨h k x List.mem_cons_self, ih fun k' x' hx => h k' x' (List.mem_cons_of_mem _ hx)⟩

/-- The arguments of a function are related when those that it may read are. -/
theorem Parameters.related_of_reads {c c' : Context Text} (hc : c.Alike c') (hs : c.source = id)
    (hs' : c'.source = id) {xs : List Text} (p : Parameters)
    (h : ∀ k x, p.Reads xs k x → Read K c c' k x x)
    (ha : ∀ kind, p = values kind → ∀ k e, delegated xs = .ok (some (k, e)) →
      K.Permits c.host (.range k kind e)) : p.Related K c c' xs xs := by
  have hd : delegated (xs.map c.source) = delegated (xs.map c'.source) := by rw [hs, hs']
  have hx : delegated (xs.map c.source) = delegated xs := by rw [hs, List.map_id]
  match p with
  | each kinds => exact readEach_of_zip h
  | all kind => exact List.forall₂_same.mpr fun x hx => h kind x ⟨rfl, hx⟩
  | values .number =>
    refine holds_numbers hc hd (fun k e he => ha _ rfl k e (hx ▸ he)) fun hnone => ?_
    exact List.forall₂_same.mpr fun x hmem => h _ x ⟨hx ▸ hnone, rfl, hmem⟩
  | values .text =>
    refine holds_texts hc hd (fun k e he => ha _ rfl k e (hx ▸ he)) fun hnone => ?_
    exact List.forall₂_same.mpr fun x hmem => h _ x ⟨hx ▸ hnone, rfl, hmem⟩

end Intrinsic

end FormulaEngine
