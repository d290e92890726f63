import FormulaEngine.Proofs.CallSites
import FormulaEngine.Proofs.LineBreaks
import FormulaEngine.Proofs.Negations
import FormulaEngine.Proofs.Recasing.Texts

/-! # The innermost call is blamed

Every function of the language reads its first argument before anything else, unless a range takes
the place of its only one. So when the first argument fails, the function fails in the same way, and
asks nothing more. Where the error blames no function yet, it is the function that is blamed; calls
further out leave the error as it is.

The functions that trim stand in no table: with another number of arguments the name is the host's.
They blame nobody, and a call further in or further out is blamed as if they were not there. -/

namespace FormulaEngine

open Intrinsic (Parameters delegated)
open Text (IsArgument IsBlank SameLine spacedCall)

/-! ## Runs that stop -/

namespace Run

variable {α β : Type} {questions : List Callback} {e : FormulaError}

/-- The run that asks these questions and ends in this error. -/
def stopped (questions : List Callback) (e : FormulaError) : Run α := ⟨questions, .error e⟩

theorem stopped_bind {r : Run α} (h : r = stopped questions e) (f : α → Run β) :
    r >>= f = stopped questions e := by
  rw [h]
  rfl

theorem stopped_bind_bind {γ : Type} {r : Run α} (h : r = stopped questions e) (f : α → Run β)
    (g : β → Run γ) : r >>= f >>= g = stopped questions e :=
  stopped_bind (stopped_bind h f) g

theorem map_eq_stopped_iff {r : Run α} {g : α → β} :
    (r >>= fun v => Pure.pure (g v)) = stopped questions e ↔ r = stopped questions e := by
  obtain ⟨trace, result⟩ := r
  cases result with
  | ok a => simp [bind_of_ok, stopped]
  | error e' => simp [bind_of_error, stopped]

theorem stopped_blamedOn (name : Text) :
    (stopped questions e : Run α).blamedOn name = stopped questions (e.blamedOn name) := rfl

end Run

open Run (stopped stopped_bind stopped_bind_bind)

/-! ## Functions that read their first argument first -/

namespace Intrinsic

section

variable {A α : Type} {c : Context A} {questions : List Callback} {e : FormulaError}

/-- Reading the argument as a value of this kind asks these questions and ends in this error. -/
def Stops (c : Context A) (questions : List Callback) (e : FormulaError) : ValueKind → A → Prop
  | .number, x => c.number x = stopped questions e
  | .text, x => c.text x = stopped questions e

/-- Reading the arguments as a list of values of this kind, or the range that takes their place, does
the same. -/
def ValuesStop (c : Context A) (questions : List Callback) (e : FormulaError) :
    ValueKind → List A → Prop
  | .number, xs => numbers c xs = stopped questions e
  | .text, xs => texts c xs = stopped questions e

/-- The values are read in order, unless they are those of a range. -/
theorem Stops.values {k : ValueKind} {x : A} (h : Stops c questions e k x) {xs : List A}
    (hd : delegated ((x :: xs).map c.source) = .ok none) :
    ValuesStop c questions e k (x :: xs) := by
  cases k with
  | number =>
    rw [ValuesStop, numbers, hd]
    exact stopped_bind h _
  | text =>
    rw [ValuesStop, texts, hd]
    exact stopped_bind h _

/-- The function stops where its first argument does, if the argument is read at all. -/
def StopsFirst (p : Parameters) (b : Body A α) : Prop :=
  ∀ {c : Context A} {questions : List Callback} {e : FormulaError} {k : ValueKind} {x : A}
    {xs : List A} {r : Run α}, p.kindAt? 0 = some k → Stops c questions e k x →
      (∀ k', p = .values k' → delegated ((x :: xs).map c.source) = .ok none) →
        b.run? c (x :: xs) = some r → r = stopped questions e

theorem stopsFirst_one (k : ValueKind) {f : Context A → A → Run α}
    (h : ∀ {c questions e x}, Stops c questions e k x → f c x = stopped questions e) :
    StopsFirst (.each [k]) (.one f) := by
  intro c questions e k' x xs r hk hx _ hr
  cases hk
  rcases xs with _ | ⟨_, _⟩
  case nil => cases hr; exact h hx
  all_goals cases hr

theorem stopsFirst_two (k : ValueKind) {l : ValueKind} {f : Context A → A → A → Run α}
    (h : ∀ {c questions e x y}, Stops c questions e k x → f c x y = stopped questions e) :
    StopsFirst (.each [k, l]) (.two f) := by
  intro c questions e k' x xs r hk hx _ hr
  cases hk
  rcases xs with _ | ⟨_, _ | ⟨_, _⟩⟩
  case cons.nil => cases hr; exact h hx
  all_goals cases hr

theorem stopsFirst_three (k : ValueKind) {l m : ValueKind} {f : Context A → A → A → A → Run α}
    (h : ∀ {c questions e x y z}, Stops c questions e k x → f c x y z = stopped questions e) :
    StopsFirst (.each [k, l, m]) (.three f) := by
  intro c questions e k' x xs r hk hx _ hr
  cases hk
  rcases xs with _ | ⟨_, _ | ⟨_, _ | ⟨_, _⟩⟩⟩
  case cons.cons.nil => cases hr; exact h hx
  all_goals cases hr

theorem stopsFirst_six (k : ValueKind) {f : Context A → A → A → A → A → A → A → Run α}
    (h : ∀ {c questions e u v w x y z}, Stops c questions e k u →
      f c u v w x y z = stopped questions e) :
    StopsFirst (.each [k, k, k, k, k, k]) (.six f) := by
  intro c questions e k' x xs r hk hx _ hr
  cases hk
  rcases xs with _ | ⟨_, _ | ⟨_, _ | ⟨_, _ | ⟨_, _ | ⟨_, _ | ⟨_, _⟩⟩⟩⟩⟩⟩
  case cons.cons.cons.cons.cons.nil => cases hr; exact h hx
  all_goals cases hr

theorem stopsFirst_atLeast {p : Parameters} {n : Nat} {f : Context A → List A → Run α}
    (h : ∀ {c questions e k x xs}, p.kindAt? 0 = some k → Stops c questions e k x →
      (∀ k', p = .values k' → delegated ((x :: xs).map c.source) = .ok none) →
        f c (x :: xs) = stopped questions e) : StopsFirst p (.atLeast n f) := by
  intro c questions e k x xs r hk hx hd hr
  rw [Body.run?] at hr
  split at hr
  · cases hr
    exact h hk hx hd
  · cases hr

theorem stopsFirst_all (k : ValueKind) {n : Nat} {f : Context A → List A → Run α}
    (h : ∀ {c questions e x xs}, Stops c questions e k x → f c (x :: xs) = stopped questions e) :
    StopsFirst (.all k) (.atLeast n f) :=
  stopsFirst_atLeast fun hk hx _ => by cases hk; exact h hx

theorem stopsFirst_values (k : ValueKind) {n : Nat} {f : Context A → List A → Run α}
    (h : ∀ {c questions e xs}, ValuesStop c questions e k xs → f c xs = stopped questions e) :
    StopsFirst (.values k) (.atLeast n f) :=
  stopsFirst_atLeast fun hk hx hd => by cases hk; exact h (hx.values (hd _ rfl))

/-- Tables of the same names, whose functions read their first argument first. -/
inductive StopFirst : List (Text × Parameters) → List (Text × Body A α) → Prop
  | nil : StopFirst [] []
  | cons (name : Text) {p : Parameters} {b : Body A α} {ps : List (Text × Parameters)}
      {bs : List (Text × Body A α)} : StopsFirst p b → StopFirst ps bs →
      StopFirst ((name, p) :: ps) ((name, b) :: bs)

theorem StopFirst.lookup {ps : List (Text × Parameters)} {bs : List (Text × Body A α)}
    (h : StopFirst ps bs) {name : Text} {p : Parameters} (hp : ps.lookup name = some p) :
    ∃ b, bs.lookup name = some b ∧ StopsFirst p b := by
  induction h with
  | nil => cases hp
  | @cons n p' b ps bs hfirst _ ih =>
    rw [List.lookup_cons] at hp ⊢
    split at hp
    · cases hp
      exact ⟨b, rfl, hfirst⟩
    · exact ih hp

/-- The numeric functions read their first argument first. -/
theorem stopFirst_numeric : StopFirst (A := A) numericParameters numericTable := by
  unfold numericParameters numericTable
  exact .cons "and".toList (stopsFirst_all .number (stopped_bind · _)) <|
    .cons "avg".toList (stopsFirst_values .number (stopped_bind · _)) <|
    .cons "between".toList (stopsFirst_three .number (stopped_bind · _)) <|
    .cons "ceil".toList (stopsFirst_one .number (stopped_bind · _)) <|
    .cons "compare".toList (stopsFirst_two .text (stopped_bind · _)) <|
    .cons "comparestr".toList (stopsFirst_two .text (stopped_bind · _)) <|
    .cons "comparetext".toList (stopsFirst_two .text (stopped_bind · _)) <|
    .cons "count".toList (stopsFirst_values .number (stopped_bind · _)) <|
    .cons "empty".toList (stopsFirst_one .text (stopped_bind · _)) <|
    .cons "endofthemonth".toList (stopsFirst_one .number (stopped_bind_bind · _ _)) <|
    .cons "floor".toList (stopsFirst_one .number (stopped_bind · _)) <|
    .cons "getday".toList (stopsFirst_one .number (stopped_bind_bind · _ _)) <|
    .cons "getmonth".toList (stopsFirst_one .number (stopped_bind_bind · _ _)) <|
    .cons "getweek".toList (stopsFirst_one .number (stopped_bind_bind · _ _)) <|
    .cons "getyear".toList (stopsFirst_one .number (stopped_bind_bind · _ _)) <|
    .cons "if".toList (stopsFirst_three .number (stopped_bind · _)) <|
    .cons "len".toList (stopsFirst_one .text (stopped_bind · _)) <|
    .cons "max".toList (stopsFirst_values .number (stopped_bind · _)) <|
    .cons "min".toList (stopsFirst_values .number (stopped_bind · _)) <|
    .cons "not".toList (stopsFirst_one .number (stopped_bind · _)) <|
    .cons "now".toList (stopsFirst_one .number (stopped_bind · _)) <|
    .cons "or".toList (stopsFirst_all .number (stopped_bind · _)) <|
    .cons "pos".toList (stopsFirst_two .text (stopped_bind · _)) <|
    .cons "round".toList (stopsFirst_two .number (stopped_bind · _)) <|
    .cons "safediv".toList (stopsFirst_two .number (stopped_bind · _)) <|
    .cons "startofthemonth".toList (stopsFirst_one .number (stopped_bind_bind · _ _)) <|
    .cons "startoftheweek".toList (stopsFirst_one .number (stopped_bind_bind · _ _)) <|
    .cons "stringtodatetime".toList (stopsFirst_two .text (stopped_bind · _)) <|
    .cons "sum".toList (stopsFirst_values .number (stopped_bind · _)) <|
    .cons "todate".toList (stopsFirst_three .number (stopped_bind_bind · _ _)) <|
    .cons "todatetime".toList (stopsFirst_six .number (stopped_bind_bind · _ _)) <|
    .cons "today".toList (stopsFirst_one .number (stopped_bind · _)) <|
    .cons "todouble".toList (stopsFirst_one .text (stopped_bind · _)) <|
    .cons "tonumber".toList (stopsFirst_one .text (stopped_bind · _)) .nil

@[inherit_doc stopFirst_numeric]
theorem stopFirst_text : StopFirst (A := A) textParameters textTable := by
  unfold textParameters textTable
  exact .cons "concat".toList (stopsFirst_all .text (stopped_bind_bind · _ _)) <|
    .cons "concatenate".toList (stopsFirst_all .text (stopped_bind_bind · _ _)) <|
    .cons "count".toList (stopsFirst_values .text (stopped_bind · _)) <|
    .cons "if".toList (stopsFirst_three .number (stopped_bind · _)) <|
    .cons "left".toList (stopsFirst_two .text (stopped_bind · _)) <|
    .cons "lowercase".toList (stopsFirst_one .text (stopped_bind · _)) <|
    .cons "max".toList (stopsFirst_values .text (stopped_bind · _)) <|
    .cons "min".toList (stopsFirst_values .text (stopped_bind · _)) <|
    .cons "repl".toList (stopsFirst_two .text (stopped_bind · _)) <|
    .cons "right".toList (stopsFirst_two .text (stopped_bind · _)) <|
    .cons "substr".toList (stopsFirst_three .text (stopped_bind · _)) <|
    .cons "sum".toList (stopsFirst_values .text (stopped_bind · _)) <|
    .cons "tostr".toList (stopsFirst_one .number (stopped_bind · _)) <|
    .cons "uppercase".toList (stopsFirst_one .text (stopped_bind · _)) .nil

end

end Intrinsic

/-! ## Calls as they are written -/

variable {kind k : ValueKind} {name x : Text} {others : List Text}

theorem isName_of_foldCase (h : IsName (Text.foldCase name)) : IsName name := by
  obtain ⟨hhead, hparts⟩ := isName_iff.mp h
  refine isName_iff.mpr ⟨?_, (Text.forall_mem_foldCase isNamePart_toLower).mp hparts⟩
  cases name with
  | nil => exact hhead
  | cons c name => simpa [isNameStart_toLower] using hhead

theorem isName_of_parameters {p : Parameters}
    (h : (Intrinsic.parameters kind).lookup (Text.foldCase name) = some p) : IsName name := by
  have all : ∀ kind, ∀ e ∈ Intrinsic.parameters kind, IsName e.1 := by
    intro kind
    cases kind <;> decide
  exact isName_of_foldCase (all kind _ (mem_of_lookup_eq_some h))

/-- A function of the language that takes so many arguments and begins with reading the first one
as a value of kind `k`. A single argument must not stand for a range. -/
structure BeginsWith (kind : ValueKind) (name : Text) (k : ValueKind) (x : Text)
    (others : List Text) : Prop where
  accepts : Intrinsic.Accepts kind name (others.length + 1)
  reads : ∃ p, (Intrinsic.parameters kind).lookup (Text.foldCase name) = some p ∧
    p.kindAt? 0 = some k
  undelegated : ∀ k', (Intrinsic.parameters kind).lookup (Text.foldCase name) = some (.values k') →
    delegated ((x :: others).map normalize) = .ok none
  arguments : ∀ y ∈ others, IsArgument y

theorem isName_of_trims (h : Intrinsic.trims.lookup (Text.foldCase name) ≠ none) :
    IsName name := by
  have all : ∀ e ∈ Intrinsic.trims, IsName e.1 := by
    simp only [Intrinsic.trims, List.forall_mem_cons]
    decide
  obtain ⟨trim, htrim⟩ := Option.ne_none_iff_exists'.mp h
  exact isName_of_foldCase (all _ (mem_of_lookup_eq_some htrim))

theorem BeginsWith.isName (h : BeginsWith kind name k x others) : IsName name := by
  obtain ⟨p, hp, -⟩ := h.reads
  exact isName_of_parameters hp

theorem BeginsWith.isIntrinsic (h : BeginsWith kind name k x others) :
    Intrinsic.isIntrinsic name = true := by
  obtain ⟨p, hp, -⟩ := h.reads
  cases kind with
  | number =>
    obtain ⟨b, hb, -⟩ := Intrinsic.stopFirst_numeric.lookup hp
    exact Intrinsic.isIntrinsic_of_lookup hb
  | text =>
    obtain ⟨b, hb, -⟩ := Intrinsic.stopFirst_text.lookup hp
    exact Intrinsic.isIntrinsic_of_lookupText hb

theorem BeginsWith.exists_starts (h : BeginsWith kind name k x others) (hx : IsArgument x)
    (hblank : ¬ IsBlank x) (n : ℕ) :
    ∃ q, Lexemes.Starts (Lexemes.ofText kind (normalize (spacedCall name n (x :: others))))
      [.call name (normalize x :: others.map normalize)] (.finish q) :=
  Lexemes.starts_spacedCall h.isName (elementary?_of_isIntrinsic h.isIntrinsic kind)
    (List.cons_ne_nil x others) (List.forall_mem_cons.mpr ⟨hx, h.arguments⟩)
    (by simp [normalize_eq_nil_iff, hblank]) n

namespace Intrinsic

variable {α : Type} {table : List (Text × Body Text α)} {p : Parameters} {c : Context Text}
  {questions : List Callback} {e : FormulaError}

/-- A call of a function from a table, with a number of arguments that it takes. -/
theorem call_stopped {sort : Text} {ps : List (Text × Parameters)} (htable : StopFirst ps table)
    (harity : ∃ a, (table.map fun b => (b.1, b.2.arity)).lookup (Text.foldCase name) = some a ∧
      a.accepts (others.length + 1) = true) (hs : c.source = id)
    (hp : ps.lookup (Text.foldCase name) = some p) (hk : p.kindAt? 0 = some k)
    (hd : ∀ k', p = .values k' → delegated (x :: others) = .ok none)
    (hx : Stops c questions e k x) :
    call table sort c name (x :: others) = stopped questions (e.blamedOn name) := by
  obtain ⟨b, hb, hfirst⟩ := htable.lookup hp
  obtain ⟨a, ha, haccepts⟩ := harity
  obtain rfl : b.arity = a := Option.some.inj ((lookup_arity hb).symm.trans ha)
  have hsome : (b.run? c (x :: others)).isSome = true := by
    rw [Body.isSome_run?]
    exact haccepts
  obtain ⟨r, hr⟩ := Option.isSome_iff_exists.mp hsome
  rw [call_of_lookup hb hr, hfirst hk hx (by rwa [hs, List.map_id]) hr, Run.stopped_blamedOn]

end Intrinsic

namespace Surroundings

open Intrinsic (Stops)

variable {s : Surroundings} {questions : List Callback} {e : FormulaError} {t : Text}

theorem eval_eq_stopped_iff :
    s.eval kind t = stopped questions e ↔ Stops s.ambient questions e kind t := by
  cases kind with
  | number => exact Run.map_eq_stopped_iff
  | text => exact Run.map_eq_stopped_iff

theorem stops_congr {u : Text} (h : t.SameLine u) :
    Stops s.ambient questions e kind t ↔ Stops s.ambient questions e kind u := by
  rw [← eval_eq_stopped_iff, ← eval_eq_stopped_iff,
    s.eval_congr_normalize kind (Text.sameLine_iff.mp h)]

/-- A call stops where its first argument does, and is blamed if nothing further in is. -/
theorem stops_spacedCall (h : BeginsWith kind name k x others) (hx : IsArgument x)
    (hblank : ¬ IsBlank x) (hstops : Stops s.ambient questions e k x) (n : ℕ) :
    Stops s.ambient questions (e.blamedOn name) kind (spacedCall name n (x :: others)) := by
  obtain ⟨p, hp, hk⟩ := h.reads
  have hundelegated : ∀ k', p = .values k' →
      delegated (normalize x :: others.map normalize) = .ok none := by
    rintro k' rfl
    exact h.undelegated k' hp
  have hnormal : Stops s.ambient questions e k (normalize x) :=
    (stops_congr (Text.sameLine_iff.mpr (Text.normalize_normalize x))).mpr hstops
  have haccepts : Intrinsic.Accepts kind name ((others.map normalize).length + 1) := by
    rw [List.length_map]
    exact h.accepts
  obtain ⟨q, hq⟩ := h.exists_starts hx hblank n
  cases kind with
  | number =>
    show s.evalNumber _ = _
    rw [evalNumber_of_call hq, NumericExpr.callFunction_of_isIntrinsic h.isIntrinsic]
    exact Intrinsic.call_stopped Intrinsic.stopFirst_numeric haccepts rfl hp hk hundelegated hnormal
  | text =>
    show s.evalText _ = _
    rw [evalText_of_call hq, TextExpr.callFunction_of_isIntrinsic h.isIntrinsic]
    exact Intrinsic.call_stopped Intrinsic.stopFirst_text haccepts rfl hp hk hundelegated hnormal

/-- A call that trims its argument stops where the argument does, and is never blamed. -/
theorem stops_trim (h : Intrinsic.trims.lookup (Text.foldCase name) ≠ none) (hx : IsArgument x)
    (hblank : ¬ IsBlank x) (hstops : Stops s.ambient questions e .text x) (n : ℕ) :
    Stops s.ambient questions e .text (spacedCall name n [x]) := by
  obtain ⟨trim, htrim⟩ := Option.ne_none_iff_exists'.mp h
  have hf : Lexemes.elementary? .text name = none := rfl
  obtain ⟨q, hq⟩ := Lexemes.starts_spacedCall (isName_of_trims h) hf (List.cons_ne_nil x [])
    (by simpa using hx) (by simp [normalize_eq_nil_iff, hblank]) n
  show s.evalText _ = _
  rw [evalText_of_call hq, List.map_singleton, TextExpr.callFunction_of_trims htrim]
  exact Run.stopped_bind ((s.evalText_normalize x).trans hstops) _

end Surroundings

/-! ## Chains of calls -/

/-- Calls around the text `e`, which is read as a value of kind `k`: each begins with reading the
one in it. The innermost one is a call of the function `name`, as it is written. Calls that trim may
stand further out. -/
inductive CallChain (k : ValueKind) (e name : Text) : ValueKind → Text → Prop where
  | innermost {kind : ValueKind} {t : Text} {others : List Text} {n : ℕ}
      (h : BeginsWith kind name k e others)
      (ht : t.SameLine (spacedCall name n (e :: others))) : CallChain k e name kind t
  | outer {kind kind' : ValueKind} {t u name' : Text} {others : List Text} {n : ℕ}
      (hu : CallChain k e name kind' u) (h : BeginsWith kind name' kind' u others)
      (ht : t.SameLine (spacedCall name' n (u :: others))) : CallChain k e name kind t
  | trim {t u name' : Text} {n : ℕ} (hu : CallChain k e name .text u)
      (h : Intrinsic.trims.lookup (Text.foldCase name') ≠ none)
      (ht : t.SameLine (spacedCall name' n [u])) : CallChain k e name .text t

namespace Surroundings

open Intrinsic (Stops)

variable {s : Surroundings} {questions : List Callback} {e : Text} {E : FormulaError}

/-- What is kept from call to call, from the innermost one outwards. -/
theorem stops_callChain {t : Text} (h : CallChain k e name kind t) (he : IsArgument e)
    (hblank : ¬ IsBlank e) (hstops : Stops s.ambient questions E k e) :
    IsArgument t ∧ ¬ IsBlank t ∧ Stops s.ambient questions (E.blamedOn name) kind t := by
  -- a call stands as an argument of the next one
  have hcall : ∀ {t name : Text} {parts : List Text} {n : ℕ}, IsName name →
      (∀ p ∈ parts, IsArgument p) → t.SameLine (spacedCall name n parts) →
        IsArgument t ∧ ¬ IsBlank t := by
    intro t name parts n hname hparts ht
    rw [ht.isArgument_iff, ← normalize_eq_nil_iff, Text.sameLine_iff.mp ht, normalize_eq_nil_iff]
    exact ⟨Text.isArgument_spacedCall hname n hparts,
      (Text.tight_spacedCall hname n parts).not_isBlank⟩
  induction h with
  | innermost h ht =>
    obtain ⟨hargument, hne⟩ := hcall h.isName (List.forall_mem_cons.mpr ⟨he, h.arguments⟩) ht
    exact ⟨hargument, hne, (stops_congr ht).mpr (stops_spacedCall h he hblank hstops _)⟩
  | outer _ h ht ih =>
    obtain ⟨hu, hublank, hustops⟩ := ih
    obtain ⟨hargument, hne⟩ := hcall h.isName (List.forall_mem_cons.mpr ⟨hu, h.arguments⟩) ht
    have hcallStops := stops_spacedCall h hu hublank hustops
    rw [FormulaError.blamedOn_blamedOn] at hcallStops
    exact ⟨hargument, hne, (stops_congr ht).mpr (hcallStops _)⟩
  | trim _ h ht ih =>
    obtain ⟨hu, hublank, hustops⟩ := ih
    obtain ⟨hargument, hne⟩ := hcall (isName_of_trims h) (List.forall_mem_singleton.mpr hu) ht
    exact ⟨hargument, hne, (stops_congr ht).mpr (stops_trim h hu hublank hustops _)⟩

/-- A failure of what stands innermost is that of the whole chain, at the same place and with the
same detail, after the same questions. If it blames nobody, the innermost call is blamed. -/
theorem innermost_call_blamed {t : Text} (h : CallChain k e name kind t) (he : IsArgument e)
    (hblank : ¬ IsBlank e) (hfails : (s.eval k e).result = .error E) :
    s.eval kind t =
      ⟨(s.eval k e).trace, .error { E with function? := some (E.function?.getD name) }⟩ := by
  have hstops : Stops s.ambient (s.eval k e).trace E k e := by
    rw [← eval_eq_stopped_iff, Run.stopped, ← hfails]
  have hblamed : E.blamedOn name = { E with function? := some (E.function?.getD name) } := by
    rw [FormulaError.blamedOn]
    cases E.function? <;> rfl
  rw [← hblamed]
  exact eval_eq_stopped_iff.mpr (stops_callChain h he hblank hstops).2.2

/-- The argument asks the host before it fails, and the innermost call is written on two lines and
with a capital letter. -/
theorem innermost_call_blamed_written :
    (initial { text := fun _ => some "a".toList }).eval .number "Round(L\ren ( b + 1 ), 2)".toList =
      ⟨((initial { text := fun _ => some "a".toList }).eval .text " b + 1 ".toList).trace,
        .error ⟨.badGrammar, some "Len".toList, some 4, .message "unexpected 1".toList⟩⟩ := by
  have hlen : BeginsWith .number "Len".toList .text " b + 1 ".toList [] :=
    ⟨⟨.exactly 1, by decide, by decide⟩, ⟨.each [.text], by decide, by decide⟩,
      fun k' h => absurd h (by cases k' <;> decide), by decide⟩
  have hround : BeginsWith .number "Round".toList .number "Len ( b + 1 )".toList [" 2".toList] :=
    ⟨⟨.exactly 2, by decide, by decide⟩, ⟨.each [.number, .number], by decide, by decide⟩,
      fun k' h => absurd h (by cases k' <;> decide), by decide⟩
  have hchain : CallChain .text " b + 1 ".toList "Len".toList .number
      "Round(L\ren ( b + 1 ), 2)".toList :=
    .outer (n := 0) (.innermost (n := 1) hlen (by decide)) hround (by decide)
  have hvalue : ((initial { text := fun _ => some "a".toList }).evalText
      " b + 1 ".toList).result =
        .error ((FormulaError.badGrammar 4).saying "unexpected 1".toList) := by decide +kernel
  have hfails := congrArg Run.result
    (Run.bind_of_error hvalue fun t => (return Value.text t : Run Value))
  exact innermost_call_blamed hchain (by decide) (fun h => absurd (h 'b' (by decide)) (by decide))
    hfails

end Surroundings

end FormulaEngine
