import FormulaEngine.Proofs.Recasing.Programs
import FormulaEngine.Proofs.Runs
import FormulaEngine.Proofs.Unfolding

/-! # Evaluating a formula in another case

Names of built-in functions, constants and range keywords are known in any case, and other names
are for the host to know. So for a host to which the case of names makes no difference, two formulas
that are written alike up to case have the same course: the same questions but for the case of their
names, and then the same value, or errors of the same kind and position. Every text is compared with
its form in lower case, and so are, by induction on the length, the arguments that are read in
it. -/

namespace FormulaEngine

open Text (foldUnquoted)
open Intrinsic (Parameters Read ReadEach delegated)

/-- The question with all that it is about in lower case. -/
def Callback.foldCase : Callback → Callback
  | value name => value (Text.foldCase name)
  | text name => text (Text.foldCase name)
  | range keyword kind expression => range keyword kind (Text.foldCase expression)
  | numericCall name arguments =>
    numericCall (Text.foldCase name) (arguments.map Text.foldCase)
  | textCall name arguments => textCall (Text.foldCase name) (arguments.map Text.foldCase)

theorem Callback.foldCase_name (kind : ValueKind) (n : Text) :
    (name kind n).foldCase = (name kind (Text.foldCase n)).foldCase := by
  cases kind <;> simp [name, foldCase]

theorem Callback.foldCase_call (kind : ValueKind) (n : Text) (arguments : List Text) :
    (call kind n arguments).foldCase =
      (call kind (Text.foldCase n) (arguments.map foldUnquoted)).foldCase := by
  cases kind <;> simp [call, foldCase]

/-- What the host answers does not depend on the ASCII case of the names, the parameters and the
expressions that it is asked about. -/
structure Host.IgnoresCase (h : Host) : Prop where
  value : ∀ {n n'}, Text.foldCase n = Text.foldCase n' → h.value n = h.value n'
  text : ∀ {n n'}, Text.foldCase n = Text.foldCase n' → h.text n = h.text n'
  range : ∀ {keyword kind e e'}, Text.foldCase e = Text.foldCase e' →
    h.range keyword kind e = h.range keyword kind e'
  numericCall : ∀ {n n' xs xs'}, Text.foldCase n = Text.foldCase n' →
    xs.map Text.foldCase = xs'.map Text.foldCase → h.numericCall n xs = h.numericCall n' xs'
  textCall : ∀ {n n' xs xs'}, Text.foldCase n = Text.foldCase n' →
    xs.map Text.foldCase = xs'.map Text.foldCase → h.textCall n xs = h.textCall n' xs'

/-- A host that knows one text, by its name in any case. -/
def Host.knowing (name t : Text) : Host where
  text n := if Text.foldCase n = Text.foldCase name then some t else none

theorem Host.ignoresCase_knowing (name t : Text) : (knowing name t).IgnoresCase where
  value _ := rfl
  text h := by simp only [knowing, h]
  range _ := rfl
  numericCall _ _ := rfl
  textCall _ _ := rfl

/-! ## Runs that agree up to case -/

theorem FormulaError.mapError_outline_blamedOn {α : Type} (r : Except FormulaError α)
    (name : Text) :
    (r.mapError (·.blamedOn name)).mapError outline = r.mapError outline := by
  cases r <;> rfl

/-- The same questions up to case, and then the same value, or errors of the same kind and
position. -/
def Run.Relation.upToCase : Run.Relation where
  Holds r r' := r.trace.map Callback.foldCase = r'.trace.map Callback.foldCase ∧
    r.result.mapError FormulaError.outline = r'.result.mapError FormulaError.outline
  Allows _ _ := True
  ask _ _ := ⟨rfl, rfl⟩
  ofExcept _ := ⟨rfl, rfl⟩
  bind {_ _ r r' f f'} h hf := by
    obtain ⟨htrace, hresult⟩ := h
    cases hr : r.result with
    | ok a =>
      rw [hr] at hresult
      have hr' := Run.eq_ok_of_mapError hresult
      obtain ⟨htrace', hresult'⟩ := hf a
      rw [bind_of_ok hr, bind_of_ok hr']
      exact ⟨by simp only [List.map_append, htrace, htrace'], hresult'⟩
    | error e =>
      rw [hr] at hresult
      obtain ⟨e', hr', he⟩ := Run.exists_of_mapError hresult
      rw [bind_of_error hr, bind_of_error hr']
      exact ⟨htrace, congrArg Except.error he⟩
  blamedOn name h :=
    ⟨h.1, by simpa only [Run.result_blamedOn, FormulaError.mapError_outline_blamedOn] using h.2⟩

open Run.Relation (upToCase)

namespace Run

variable {α : Type} {r r' r'' : Run α}

theorem upToCase_symm (h : upToCase.Holds r r') : upToCase.Holds r' r := ⟨h.1.symm, h.2.symm⟩

theorem upToCase_trans (h : upToCase.Holds r r') (h' : upToCase.Holds r' r'') :
    upToCase.Holds r r'' :=
  ⟨h.1.trans h'.1, h.2.trans h'.2⟩

/-- A question is answered alike in any case. A refusal tells of no place. -/
theorem upToCase_ask {q q' : Callback} (hq : q.foldCase = q'.foldCase) {answer answer' : Option α}
    (ha : answer = answer') : upToCase.Holds (.ask q answer) (.ask q' answer') := by
  subst ha
  refine ⟨congrArg (fun q => [q]) hq, ?_⟩
  cases answer <;> rfl

theorem upToCase_fail {e e' : FormulaError} (h : e.outline = e'.outline) :
    upToCase.Holds (Run.fail e : Run α) (Run.fail e') :=
  ⟨rfl, congrArg Except.error h⟩

end Run

/-! ## Range arguments -/

namespace Arguments

theorem between?_foldCase {first last : Char} (hf : first.isAlpha = false)
    (hl : last.isAlpha = false) (t : Text) :
    Text.between? first last (Text.foldCase t) =
      (Text.between? first last t).map Text.foldCase := by
  cases t with
  | nil => rfl
  | cons c r =>
    have hlast : (Text.foldCase r).getLast? = some last ↔ r.getLast? = some last := by
      simp [Text.foldCase, toLower_eq_iff hl]
    have hinner : (Text.foldCase r).dropLast = Text.foldCase r.dropLast := by
      simp [Text.foldCase, List.map_dropLast]
    simp only [Text.foldCase_cons, Text.between?, toLower_eq_iff hf, hlast, hinner]
    split <;> rfl

theorem parenthesized_foldCase (t : Text) :
    (parenthesized (Text.foldCase t)).mapError FormulaError.outline =
      ((parenthesized t).map Text.foldCase).mapError FormulaError.outline := by
  have hbetween : (if (Text.trim t).length ≤ 2 then none
        else Text.between? '(' ')' (Text.foldCase (Text.trim t))) =
      (if (Text.trim t).length ≤ 2 then none
        else Text.between? '(' ')' (Text.trim t)).map Text.foldCase := by
    split
    · rfl
    · exact between?_foldCase (by decide) (by decide) _
  simp only [parenthesized, Text.foldCase_trim, Text.length_foldCase, hbetween]
  generalize (if (Text.trim t).length ≤ 2 then none
    else Text.between? '(' ')' (Text.trim t)) = inner?
  cases inner? with
  | none => rfl
  | some inner => exact congrArg Except.ok (Text.foldCase_trim inner)

end Arguments

namespace Intrinsic

/-- A delegated range apart from the case of its expression, or from the message of its error. -/
def outlined (r : Except FormulaError (Option (RangeKeyword × Text))) :
    Except (ErrorKind × Option Nat) (Option (RangeKeyword × Text)) :=
  (r.map (Option.map (Prod.map id Text.foldCase))).mapError FormulaError.outline

theorem outlined_range {keyword : RangeKeyword} {r r' : Except FormulaError Text}
    (h : r.mapError FormulaError.outline = (r'.map Text.foldCase).mapError FormulaError.outline) :
    outlined (r.map fun e => some (keyword, e)) = outlined (r'.map fun e => some (keyword, e)) := by
  cases r' with
  | ok e' =>
    rw [Run.eq_ok_of_mapError h.symm]
    exact congrArg (fun e => Except.ok (some (keyword, e))) (Text.foldCase_foldCase e')
  | error e' =>
    obtain ⟨e, rfl, he⟩ := Run.exists_of_mapError h.symm
    exact congrArg Except.error he.symm

theorem outlined_delegated_foldCase (xs : List Text) :
    outlined (delegated (xs.map Text.foldCase)) = outlined (delegated xs) := by
  match xs with
  | [x] =>
    have hname : (Text.foldCase x).takeWhile (· != '(') = Text.foldCase (x.takeWhile (· != '(')) :=
      Text.takeWhile_foldCase (apply_toLower (f := (· != '(')) (by decide)) x
    have hlocate : ∀ name : Text,
        RangeKeyword.locate? (Text.foldCase name) = RangeKeyword.locate? name :=
      fun name => by simp only [RangeKeyword.locate?, Text.foldCase_foldCase]
    have hdrop : ∀ n : Nat, (Text.foldCase x).drop n = Text.foldCase (x.drop n) :=
      fun n => (List.map_drop).symm
    simp only [List.map_cons, List.map_nil, delegated, hname, Text.length_foldCase, hlocate, hdrop]
    split
    · rfl
    · split
      · rfl
      · exact outlined_range (Arguments.parenthesized_foldCase _)
  | [] | _ :: _ :: _ => rfl

/-- Arguments that are equal up to case delegate to the same range, to none, or are refused
alike. -/
theorem outlined_delegated {xs ys : List Text} (h : xs.map Text.foldCase = ys.map Text.foldCase) :
    outlined (delegated xs) = outlined (delegated ys) := by
  rw [← outlined_delegated_foldCase, h, outlined_delegated_foldCase]

theorem holds_delegated {α : Type} {xs ys : List Text}
    (h : xs.map Text.foldCase = ys.map Text.foldCase) {f f' : Option (RangeKeyword × Text) → Run α}
    (hnone : upToCase.Holds (f none) (f' none))
    (hsome : ∀ keyword {e e' : Text}, Text.foldCase e = Text.foldCase e' →
      upToCase.Holds (f (some (keyword, e))) (f' (some (keyword, e')))) :
    upToCase.Holds (Run.ofExcept (delegated xs) >>= f) (Run.ofExcept (delegated ys) >>= f') := by
  have houtlined := outlined_delegated h
  generalize delegated xs = r at houtlined
  generalize delegated ys = r' at houtlined
  match r, r' with
  | .ok none, .ok none => exact hnone
  | .ok (some (keyword, e)), .ok (some (keyword', e')) =>
    obtain ⟨rfl, he⟩ := Prod.mk.inj (Option.some.inj (Except.ok.inj houtlined))
    exact hsome _ he
  | .error e, .error e' => exact Run.upToCase_fail (Except.error.inj houtlined)
  | .ok none, .ok (some _) | .ok (some _), .ok none | .ok none, .error _ | .ok (some _), .error _
  | .error _, .ok none | .error _, .ok (some _) => cases houtlined

/-! ## Functions of the language -/

theorem readEach_foldUnquoted {c : Context Text} (kinds : List ValueKind) {xs : List Text}
    (h : ∀ x ∈ xs, ∀ k, Read upToCase c c k x (foldUnquoted x)) :
    ReadEach upToCase c c kinds xs (xs.map foldUnquoted) := by
  induction kinds generalizing xs with
  | nil => trivial
  | cons k kinds ih =>
    cases xs with
    | nil => trivial
    | cons x xs =>
      obtain ⟨hx, hxs⟩ := List.forall_mem_cons.mp h
      exact ⟨hx k, ih hxs⟩

section

variable {c : Context Text} (hhost : c.host.IgnoresCase) (hs : c.source = id)

include hhost

theorem holds_askRange_recased {keyword : RangeKeyword} {kind : ValueKind} {e e' : Text}
    (h : Text.foldCase e = Text.foldCase e') :
    upToCase.Holds (askRange c keyword kind e) (askRange c keyword kind e') := by
  have hq : (Callback.range keyword kind e).foldCase = (Callback.range keyword kind e').foldCase :=
    congrArg (Callback.range keyword kind) h
  exact Run.upToCase_ask hq (hhost.range h)

include hs

theorem holds_numbers_recased {xs ys : List Text} (h : xs.map Text.foldCase = ys.map Text.foldCase)
    (hr : List.Forall₂ (Read upToCase c c .number) xs ys) :
    upToCase.Holds (numbers c xs) (numbers c ys) := by
  unfold numbers
  rw [hs, List.map_id, List.map_id]
  refine holds_delegated h (upToCase.each hr) fun keyword e e' he => ?_
  exact upToCase.bind (holds_askRange_recased hhost he) fun vs =>
    upToCase.each (List.forall₂_same.mpr fun v _ => upToCase.ofExcept (unplaced_numberOf v))

theorem holds_texts_recased {xs ys : List Text} (h : xs.map Text.foldCase = ys.map Text.foldCase)
    (hr : List.Forall₂ (Read upToCase c c .text) xs ys) :
    upToCase.Holds (texts c xs) (texts c ys) := by
  unfold texts
  rw [hs, List.map_id, List.map_id]
  exact holds_delegated h (upToCase.each hr) fun keyword e e' he =>
    upToCase.map (holds_askRange_recased hhost he)

/-- Functions read arguments alike in any case when each argument is read alike. -/
theorem Parameters.related_foldUnquoted (p : Parameters) {xs : List Text}
    (h : ∀ x ∈ xs, ∀ k, Read upToCase c c k x (foldUnquoted x)) :
    p.Related upToCase c c xs (xs.map foldUnquoted) := by
  have hcase := (Text.map_foldCase_foldUnquoted xs).symm
  have hall : ∀ k, List.Forall₂ (Read upToCase c c k) xs (xs.map foldUnquoted) :=
    fun k => List.forall₂_map_right_iff.mpr (List.forall₂_same.mpr fun x hx => h x hx k)
  match p with
  | each kinds => exact readEach_foldUnquoted kinds h
  | all kind => exact hall kind
  | values .number => exact holds_numbers_recased hhost hs hcase (hall _)
  | values .text => exact holds_texts_recased hhost hs hcase (hall _)

end

/-- The name that a function is called by makes a difference only to its errors. -/
theorem holds_call_foldCase {α : Type} (table : List (Text × Body Text α)) (sort : Text)
    (c : Context Text) (name : Text) (xs : List Text) :
    upToCase.Holds (call table sort c name xs) (call table sort c (Text.foldCase name) xs) := by
  unfold call
  rw [Text.foldCase_foldCase]
  split
  · exact Run.upToCase_fail rfl
  · split
    · exact Run.upToCase_fail rfl
    · refine ⟨rfl, ?_⟩
      simp only [Run.result_blamedOn, FormulaError.mapError_outline_blamedOn]

theorem isIntrinsic_foldCase (name : Text) :
    isIntrinsic (Text.foldCase name) = isIntrinsic name := by
  rw [isIntrinsic, Text.foldCase_foldCase, isIntrinsic]

end Intrinsic

/-! ## Expressions and programs -/

/-- The arguments of a call are read alike when the letters outside quotes are lowered in them. -/
def Piece.ReadsAlike (c : Context Text) : Piece → Prop
  | call _ arguments => ∀ x ∈ arguments, ∀ k, Read upToCase c c k x (foldUnquoted x)
  | _ => True

section

variable {c : Context Text} (hhost : c.host.IgnoresCase) (hs : c.source = id)

include hhost

namespace NumericExpr

theorem holds_lookup_foldCase (n : Text) :
    upToCase.Holds (lookup c n) (lookup c (Text.foldCase n)) := by
  have hconstant : c.constant? (Text.foldCase n) = c.constant? n := by
    rw [Context.constant?, Text.foldCase_foldCase, Context.constant?]
  unfold lookup
  rw [hconstant]
  split
  · exact upToCase.pure _
  · exact Run.upToCase_ask (Callback.foldCase_name .number n)
      (hhost.value (Text.foldCase_foldCase n).symm)

include hs

theorem holds_callFunction_foldCase {n : Text} {arguments : List Text}
    (h : (Piece.call n arguments).ReadsAlike c) :
    upToCase.Holds (callFunction c n arguments)
      (callFunction c (Text.foldCase n) (arguments.map foldUnquoted)) := by
  unfold callFunction
  rw [Intrinsic.isIntrinsic_foldCase]
  split
  · refine Run.upToCase_trans ?_ (Intrinsic.holds_call_foldCase _ _ c n _)
    exact Intrinsic.holds_callNumeric ⟨rfl, rfl, rfl, rfl⟩ (by simp) fun p _ _ =>
      p.related_foldUnquoted hhost hs h
  · exact Run.upToCase_ask (Callback.foldCase_call .number n arguments)
      (hhost.numericCall (Text.foldCase_foldCase n).symm
        (Text.map_foldCase_foldUnquoted arguments).symm)

end NumericExpr

namespace TextExpr

include hs

theorem holds_callFunction_foldCase {n : Text} {arguments : List Text}
    (h : (Piece.call n arguments).ReadsAlike c) :
    upToCase.Holds (callFunction c n arguments)
      (callFunction c (Text.foldCase n) (arguments.map foldUnquoted)) := by
  have hasked := Run.upToCase_ask (Callback.foldCase_call .text n arguments)
    (hhost.textCall (Text.foldCase_foldCase n).symm
      (Text.map_foldCase_foldUnquoted arguments).symm)
  unfold callFunction
  rw [Intrinsic.isIntrinsic_foldCase, Text.foldCase_foldCase]
  dsimp only
  split
  · refine Run.upToCase_trans ?_ (Intrinsic.holds_call_foldCase _ _ c n _)
    exact Intrinsic.holds_callText ⟨rfl, rfl, rfl, rfl⟩ (by simp) fun p _ _ =>
      p.related_foldUnquoted hhost hs h
  · match arguments with
    | [x] =>
      refine upToCase.bind (h x (List.mem_singleton_self x) .text) fun t => ?_
      split
      · exact upToCase.pure _
      · exact hasked
    | [] | _ :: _ :: _ => exact hasked

end TextExpr

end

/-! ## Formulas -/

namespace Surroundings

variable (s : Surroundings)

/-- A formula has the same course as its form in lower case: by induction on the length, since what
its calls read is shorter. -/
theorem read_foldUnquoted_ambient (hhost : s.host.IgnoresCase) (kind : ValueKind) {formula : Text}
    (hf : '"' ∉ formula) :
    Read upToCase s.ambient s.ambient kind formula (foldUnquoted formula) := by
  induction hl : (normalize formula).length using Nat.strong_induction_on
    generalizing kind formula with
  | _ l ih =>
    have hnormal : '"' ∉ normalize formula :=
      fun h => hf (Text.trim_subset _ (List.mem_filter.mp h).1)
    have hpieces : (Lexemes.ofText kind (normalize formula)).All (Piece.ReadsAlike s.ambient) := by
      refine (Lexemes.read_cutFrom kind 0 _).mono fun p hp => ?_
      cases p with
      | call name arguments =>
        intro x hx k
        obtain ⟨hlength, htrim, hsub⟩ := hp.argument hx
        have hself : normalize x = x :=
          normalize_eq_self htrim fun c hc => unbroken_normalize formula c (hsub hc)
        exact ih x.length (by omega) k (fun h => hnormal (hsub h)) (by rw [hself])
      | token | apply => trivial
    have halike := Lexemes.alike_foldUnquoted hnormal hpieces
    cases kind with
    | number =>
      show upToCase.Holds (s.evalNumber formula) (s.evalNumber (foldUnquoted formula))
      rw [evalNumber_eq, evalNumber_eq, Text.normalize_foldUnquoted, NumericExpr.parse_eq,
        NumericExpr.parse_eq]
      refine (NumericExpr.alike_program halike).holds_eval Run.upToCase_fail fun he => ?_
      refine he.holds_eval ⟨rfl, rfl, rfl, rfl⟩ ?_ ?_
      · rintro n _ rfl
        exact NumericExpr.holds_lookup_foldCase hhost n
      · rintro n xs _ _ ⟨rfl, rfl, hcall⟩
        exact NumericExpr.holds_callFunction_foldCase hhost rfl hcall
    | text =>
      show upToCase.Holds (s.evalText formula) (s.evalText (foldUnquoted formula))
      rw [evalText_eq, evalText_eq, Text.normalize_foldUnquoted, TextExpr.parse_eq,
        TextExpr.parse_eq]
      refine (TextExpr.alike_program halike).holds_eval Run.upToCase_fail fun he => ?_
      refine he.holds_eval ?_ ?_
      · rintro n _ rfl
        exact Run.upToCase_ask (Callback.foldCase_name .text n)
          (hhost.text (Text.foldCase_foldCase n).symm)
      · rintro n xs _ _ ⟨rfl, rfl, hcall⟩
        exact TextExpr.holds_callFunction_foldCase hhost rfl hcall

/-- Two formulas that are written alike up to ASCII case, and the same in quotes, have the same
course: the questions agree up to case and are asked in the same order, and the result is the same
value, or an error of the same kind at the same position. -/
theorem eval_recased (hhost : s.host.IgnoresCase) (kind : ValueKind) {t u : Text} (ht : '"' ∉ t)
    (h : t.Recased u) :
    (s.eval kind t).trace.map Callback.foldCase = (s.eval kind u).trace.map Callback.foldCase ∧
      (s.eval kind t).result.mapError FormulaError.outline =
        (s.eval kind u).result.mapError FormulaError.outline := by
  have hu : '"' ∉ u := fun hmem => ht ((Text.mem_congr (by decide) h.upToCase).mpr hmem)
  have hread := s.read_foldUnquoted_ambient hhost kind ht
  have hread' := s.read_foldUnquoted_ambient hhost kind hu
  rw [h.foldUnquoted_eq] at hread
  cases kind with
  | number =>
    exact upToCase.map (g := Value.number) (Run.upToCase_trans hread (Run.upToCase_symm hread'))
  | text =>
    exact upToCase.map (g := Value.text) (Run.upToCase_trans hread (Run.upToCase_symm hread'))

/-- The host is asked for the name as it is written. -/
theorem eval_recased_concat :
    let s := initial (.knowing "name".toList "N".toList)
    let t : Text := "Concat(Name, 'Ab')".toList
    let u : Text := "conCAT(nAME, 'Ab')".toList
    t.Recased u ∧ (s.eval .text t).trace = [.text "Name".toList] ∧
      (s.eval .text u).trace = [.text "nAME".toList] ∧
      (s.eval .text t).trace.map Callback.foldCase =
        (s.eval .text u).trace.map Callback.foldCase ∧
      (s.eval .text t).result.mapError FormulaError.outline =
        (s.eval .text u).result.mapError FormulaError.outline :=
  have h : Text.Recased "Concat(Name, 'Ab')".toList "conCAT(nAME, 'Ab')".toList := by decide
  ⟨h, by decide +kernel, by decide +kernel,
    eval_recased _ (Host.ignoresCase_knowing _ _) .text (by decide) h⟩

end Surroundings

end FormulaEngine
