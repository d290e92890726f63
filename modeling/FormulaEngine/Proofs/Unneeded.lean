import FormulaEngine.Proofs.CallSites
import FormulaEngine.Proofs.Literals
import FormulaEngine.Proofs.Negations

/-! # Arguments that are not needed

Choices read one of their branches, and conjunctions and disjunctions stop at the argument that
decides them. What they do not read may be anything that the splitter takes for one argument: not
even a formula around them is evaluated in another way. The splitter knows no double quotes,
though. Where a single quote in a literal makes it take the call for quoted text, the arguments of
the call are open to it, and decide what is an argument of the calls around. -/

namespace FormulaEngine

open Intrinsic (junction seek)
open Lexemes (Leads)
open Text (IsArgument withCall)

/-- A text that the splitter takes for one argument, without double quotes. -/
structure Text.Closed (t : Text) : Prop where
  free : '"' ∉ t
  argument : IsArgument t

instance (t : Text) : Decidable t.Closed :=
  decidable_of_iff ('"' ∉ t ∧ IsArgument t) ⟨fun h => ⟨h.1, h.2⟩, fun h => ⟨h.free, h.argument⟩⟩

/-! ## Functions that decide -/

theorem Run.bind_congr_of_ok {α β : Type} {r : Run α} {f g : α → Run β}
    (h : ∀ a, r.result = .ok a → f a = g a) : r >>= f = r >>= g := by
  cases hr : r.result with
  | ok a => rw [bind_of_ok hr, bind_of_ok hr, h a hr]
  | error e => rw [bind_of_error hr, bind_of_error hr]

namespace Intrinsic

variable {c : Context Text} {x yes yes' no no' : Text}

theorem ifNumber_congr (h : ∀ v, (c.number x).result = .ok v →
    (if v != 0 then yes else no) = if v != 0 then yes' else no') :
    ifNumber c x yes no = ifNumber c x yes' no' := by
  refine Run.bind_congr_of_ok fun v hv => ?_
  have hbranch := congrArg c.number (h v hv)
  rw [apply_ite c.number, apply_ite c.number] at hbranch
  exact hbranch

theorem ifText_congr (h : ∀ v, (c.number x).result = .ok v →
    (if c.tolerance.equal 1 v || v > 1 then yes else no) =
      if c.tolerance.equal 1 v || v > 1 then yes' else no') :
    ifText c x yes no = ifText c x yes' no' := by
  refine Run.bind_congr_of_ok fun v hv => ?_
  have hbranch := congrArg c.text (h v hv)
  rw [apply_ite c.text, apply_ite c.text] at hbranch
  exact hbranch

/-- What stands behind an argument with the truth value that is sought is not read. -/
theorem seek_congr {b : Bool} {before : List Text} (hx : x ∈ before)
    (h : ∀ v, (c.number x).result = .ok v → isTrue v = b) (xs ys : List Text) :
    seek b c (before ++ xs) = seek b c (before ++ ys) := by
  induction before with
  | nil => cases hx
  | cons z before ih =>
    rw [List.cons_append, List.cons_append, seek, seek]
    refine Run.bind_congr_of_ok fun v hv => ?_
    rcases List.mem_cons.mp hx with rfl | hx
    · rw [if_pos (h v hv), if_pos (h v hv)]
    · rw [ih hx]

end Intrinsic

namespace Surroundings

variable (s : Surroundings)

/-- Whether a condition with this value chooses the first branch. -/
def chooses : ValueKind → Float → Bool
  | .number, v => v != 0
  | .text, v => s.tolerance.equal 1 v || v > 1

/-- The call does not need the argument between the others. It is the branch that is not chosen, if
the condition has a value, or an earlier argument decides, if it has a value. -/
inductive Unneeded (kind : ValueKind) (name : Text) : (before after : List Text) → Prop
  | yes {condition no : Text} (hname : Text.foldCase name = "if".toList)
      (h : ∀ v, (s.evalNumber condition).result = .ok v → s.chooses kind v = false) :
      Unneeded kind name [condition] [no]
  | no {condition yes : Text} (hname : Text.foldCase name = "if".toList)
      (h : ∀ v, (s.evalNumber condition).result = .ok v → s.chooses kind v = true) :
      Unneeded kind name [condition, yes] []
  | operand {b : Bool} {before after : List Text} {x : Text}
      (hname : Text.foldCase name = junction b) (hx : x ∈ before)
      (h : ∀ v, (s.evalNumber x).result = .ok v → isTrue v = b) :
      Unneeded kind name before after

namespace Unneeded

variable {s} {kind : ValueKind} {name : Text} {before after : List Text}

theorem isIntrinsic (h : s.Unneeded kind name before after) :
    Intrinsic.isIntrinsic name = true := by
  cases h with
  | yes hname | no hname =>
    rw [Intrinsic.isIntrinsic, hname]
    decide
  | @operand b _ _ _ hname =>
    rw [Intrinsic.isIntrinsic, hname]
    cases b <;> decide

theorem ne_nil (h : s.Unneeded kind name before after) : before ≠ [] := by
  cases h with
  | yes | no => exact List.cons_ne_nil _ _
  | operand _ hx => exact List.ne_nil_of_mem hx

/-- A choice does not depend on what the condition does not choose. -/
theorem sameCalls_if (hname : Text.foldCase name = "if".toList) {x yes yes' no no' : Text}
    (h : ∀ v, (s.evalNumber x).result = .ok v → (if s.chooses kind v then yes else no) =
      if s.chooses kind v then yes' else no') :
    s.SameCalls kind name [normalize x, yes, no] [normalize x, yes', no'] := by
  have hcondition : s.ambient.number (normalize x) = s.evalNumber x := s.evalNumber_normalize x
  rw [← hcondition] at h
  cases kind with
  | number =>
    have hlookup : Intrinsic.numericTable.lookup (Text.foldCase name) =
        some (.three Intrinsic.ifNumber : Body Text Float) := by
      rw [hname]
      rfl
    have hcall : ∀ yes no, NumericExpr.callFunction s.ambient name [normalize x, yes, no] =
        (Intrinsic.ifNumber s.ambient (normalize x) yes no).blamedOn name :=
      fun yes no => NumericExpr.callFunction_of_lookup hlookup rfl
    show Run.SameButPlace _ _
    rw [hcall, hcall, Intrinsic.ifNumber_congr h]
    exact .refl _
  | text =>
    have hlookup : Intrinsic.textTable.lookup (Text.foldCase name) =
        some (.three Intrinsic.ifText : Body Text Text) := by
      rw [hname]
      rfl
    have hcall : ∀ yes no, TextExpr.callFunction s.ambient name [normalize x, yes, no] =
        (Intrinsic.ifText s.ambient (normalize x) yes no).blamedOn name :=
      fun yes no => TextExpr.callFunction_of_lookup hlookup rfl
    show Run.SameButPlace _ _
    rw [hcall, hcall, Intrinsic.ifText_congr h]
    exact .refl _

/-- A conjunction or a disjunction does not depend on what stands behind what decides it. Neither is
a function of texts. -/
theorem sameCalls_junction {b : Bool} (hname : Text.foldCase name = junction b) {x : Text}
    (hx : x ∈ before) (h : ∀ v, (s.evalNumber x).result = .ok v → isTrue v = b) (y z : Text)
    (after : List Text) : s.SameCalls kind name (before.map normalize ++ y :: after)
      (before.map normalize ++ z :: after) := by
  cases kind with
  | number =>
    have hlookup : Intrinsic.numericTable.lookup (Text.foldCase name) =
        some (.atLeast 2 (seek b) : Body Text Float) := by
      have hfold : Text.foldCase (junction b) = junction b := by cases b <;> decide
      rw [hname, ← hfold]
      exact (Intrinsic.calls_junction b).lookup_eq
    have hcall : ∀ w, NumericExpr.callFunction s.ambient name (before.map normalize ++ w :: after) =
        (seek b s.ambient (before.map normalize ++ w :: after)).blamedOn name := by
      intro w
      have hbefore := List.length_pos_of_mem hx
      have htwo : 2 ≤ (before.map normalize ++ w :: after).length := by
        rw [List.length_append, List.length_map, List.length_cons]
        omega
      exact NumericExpr.callFunction_of_lookup hlookup (if_pos htwo)
    have hdecides : ∀ v, (s.ambient.number (normalize x)).result = .ok v → isTrue v = b := by
      intro v hv
      exact h v ((congrArg Run.result (s.evalNumber_normalize x)).symm.trans hv)
    show Run.SameButPlace _ _
    rw [hcall, hcall, Intrinsic.seek_congr (List.mem_map_of_mem hx) hdecides (y :: after)
      (z :: after)]
    exact .refl _
  | text =>
    have hlookup : (Intrinsic.textTable (A := Text)).lookup (Text.foldCase name) = none := by
      rw [hname]
      cases b <;> rfl
    have hintrinsic : Intrinsic.isIntrinsic name = true := by
      rw [Intrinsic.isIntrinsic, hname]
      cases b <;> decide
    have hcall : ∀ zs, TextExpr.callFunction s.ambient name zs =
        .fail ((FormulaError.unknownFunction name).saying
          "not available in a string expression".toList) := by
      intro zs
      rw [TextExpr.callFunction_of_isIntrinsic hintrinsic, Intrinsic.callText, Intrinsic.call,
        hlookup]
      rfl
    show Run.SameButPlace _ _
    rw [hcall, hcall]
    exact .refl _

/-- A call is the same, whatever stands in the place of the argument that it does not need. -/
theorem sameCalls (h : s.Unneeded kind name before after) (x y : Text) :
    s.SameCalls kind name ((before ++ x :: after).map normalize)
      ((before ++ y :: after).map normalize) := by
  cases h with
  | @yes condition no hname h =>
    refine sameCalls_if hname fun v hv => ?_
    rw [if_neg (by rw [h v hv]; decide), if_neg (by rw [h v hv]; decide)]
  | @no condition yes hname h =>
    refine sameCalls_if hname fun v hv => ?_
    rw [if_pos (h v hv), if_pos (h v hv)]
  | operand hname hx h =>
    rw [List.map_append, List.map_append]
    exact sameCalls_junction hname hx h (normalize x) (normalize y) (after.map normalize)

end Unneeded

end Surroundings

/-! ## Replacing what is not needed -/

open Surroundings (Unneeded)

/-- The second formula is the first one, where an argument that is not needed has been replaced: in a
call of the formula, or in an argument of a call that encloses it, to any depth. The text `front`
stands in front of the outermost of these calls; what stands in an argument in front of a call
satisfies `Outside`. -/
inductive Replaced (s : Surroundings) (Outside : Text → Prop) :
    ValueKind → (t t' front : Text) → Prop
  | unneeded {kind : ValueKind} {t t' front name x y rest : Text} {n : Nat}
      {before after : List Text} (hcall : HasCall kind t front name n (before ++ x :: after) rest)
      (hcall' : normalize t' = withCall front name n (before ++ y :: after) rest)
      (hclosed : ∀ z ∈ y :: (before ++ x :: after), Text.Closed z)
      (h : s.Unneeded kind name before after) : Replaced s Outside kind t t' front
  | argument {kind k : ValueKind} {t t' front front' name x y rest : Text} {n : Nat}
      {before after : List Text} (hcall : HasCall kind t front name n (before ++ x :: after) rest)
      (hcall' : normalize t' = withCall front name n (before ++ y :: after) rest)
      (hparts : ∀ z ∈ before ++ x :: after, IsArgument z)
      (hencloses : Encloses kind name before after k) (houtside : Outside front')
      (h : Replaced s Outside k x y front') : Replaced s Outside kind t t' front

/-- Single quotes come in pairs, so the splitter finds none open behind the text. -/
def Text.EvenQuotes (t : Text) : Prop := Even (t.count '\'')

namespace Replaced

variable {s : Surroundings} {kind : ValueKind} {t t' front : Text}

theorem isArgument_of_hasCall {name rest : Text} {n : Nat} {parts parts' : List Text}
    (h : HasCall kind t front name n parts rest)
    (h' : normalize t' = withCall front name n parts' rest) (heven : front.EvenQuotes)
    (hparts : ∀ p ∈ parts, IsArgument p) (hparts' : ∀ p ∈ parts', IsArgument p)
    (ht : IsArgument t) : IsArgument t' := by
  have honeLine : ∀ {parts : List Text}, (∀ p ∈ parts, IsArgument p) →
      ∀ p ∈ parts.map Text.oneLine, IsArgument p := by
    intro parts hparts p hp
    obtain ⟨q, hq, rfl⟩ := List.mem_map.mp hp
    exact Text.isArgument_oneLine_iff.mpr (hparts q hq)
  rw [← Text.isArgument_normalize_iff, h.eq, withCall, Text.oneLine_spacedCall h.isName] at ht
  rw [← Text.isArgument_normalize_iff, h', withCall, Text.oneLine_spacedCall h.isName]
  exact Text.isArgument_replace h.isName heven (honeLine hparts) (honeLine hparts') ht

theorem forall_mem_replace {P : Text → Prop} {before after : List Text} {x y : Text}
    (h : ∀ z ∈ before ++ x :: after, P z) (hy : P y) : ∀ z ∈ before ++ y :: after, P z := by
  rw [List.forall_mem_append, List.forall_mem_cons] at h ⊢
  exact ⟨h.1, hy, h.2.2⟩

/-- What has been an argument of a call is still one. -/
theorem isArgument (h : Replaced s Text.EvenQuotes kind t t' front) (heven : front.EvenQuotes)
    (ht : IsArgument t) : IsArgument t' := by
  induction h with
  | unneeded hcall hcall' hclosed =>
    obtain ⟨hy, hparts⟩ := List.forall_mem_cons.mp hclosed
    refine isArgument_of_hasCall hcall hcall' heven (fun z hz => (hparts z hz).argument) ?_ ht
    exact fun z hz => (forall_mem_replace hparts hy z hz).argument
  | argument hcall hcall' hparts _ houtside _ ih =>
    have hx := List.forall_mem_append.mp hparts
    have hy := ih houtside (hx.2 _ List.mem_cons_self)
    exact isArgument_of_hasCall hcall hcall' heven hparts (forall_mem_replace hparts hy) ht

theorem withCall_ne_nil {front name rest : Text} (hname : IsName name) (n : Nat)
    (parts : List Text) : withCall front name n parts rest ≠ [] := by
  rw [withCall, Text.oneLine_spacedCall hname]
  simp [Text.spacedCall]

theorem ne_nil {Outside : Text → Prop} (h : Replaced s Outside kind t t' front) :
    normalize t ≠ [] ∧ normalize t' ≠ [] := by
  cases h with
  | unneeded hcall hcall' | argument hcall hcall' =>
    rw [hcall.eq, hcall']
    exact ⟨withCall_ne_nil hcall.isName _ _, withCall_ne_nil hcall.isName _ _⟩

/-- Nothing shows but the places that errors tell of. -/
theorem sameValues (h : Replaced s Text.EvenQuotes kind t t' front) : s.SameValues kind t t' := by
  have hne : ∀ (before after : List Text) (x : Text), before ++ x :: after ≠ [] := by simp
  induction h with
  | @unneeded kind t t' front name x y rest n before after hcall hcall' hclosed hunneeded =>
    obtain ⟨hy, hparts⟩ := List.forall_mem_cons.mp hclosed
    have hparts' := forall_mem_replace hparts hy
    have hblank : ∀ z, (before ++ z :: after).map normalize ≠ [[]] := by
      intro z
      obtain ⟨w, before, rfl⟩ := List.exists_cons_of_ne_nil hunneeded.ne_nil
      simp
    have hcalls := hunneeded.sameCalls x y
    rw [← Arguments.passed_oneLine (hblank x), ← Arguments.passed_oneLine (hblank y)] at hcalls
    exact Surroundings.sameValues_of_alike (hcall.alike_lexemes hcall'
      (elementary?_of_isIntrinsic hunneeded.isIntrinsic kind) (hne before after x)
      (hne before after y) (fun z hz => (hparts z hz).argument)
      (fun z hz => (hparts' z hz).argument) hcalls)
  | @argument kind k t t' front front' name x y rest n before after hcall hcall' hparts hencloses
      houtside h ih =>
    have hx := List.forall_mem_append.mp hparts
    have hy := h.isArgument houtside (hx.2 _ List.mem_cons_self)
    have hblank : ∀ z, normalize z ≠ [] → (before ++ z :: after).map normalize ≠ [[]] := by
      intro z hz
      cases before with
      | nil => simpa using fun h => absurd h hz
      | cons w before => simp
    have hread : s.SameValues k (normalize x) (normalize y) := by
      cases k with
      | number =>
        show Run.SameButPlace (s.evalNumber (normalize x)) (s.evalNumber (normalize y))
        rw [s.evalNumber_normalize, s.evalNumber_normalize]
        exact ih
      | text =>
        show Run.SameButPlace (s.evalText (normalize x)) (s.evalText (normalize y))
        rw [s.evalText_normalize, s.evalText_normalize]
        exact ih
    have hcalls := Surroundings.sameCalls_of_encloses (hencloses.map normalize) hread
    rw [← List.map_cons, ← List.map_append, ← List.map_cons, ← List.map_append,
      ← Arguments.passed_oneLine (hblank x h.ne_nil.1),
      ← Arguments.passed_oneLine (hblank y h.ne_nil.2)] at hcalls
    exact Surroundings.sameValues_of_alike (hcall.alike_lexemes hcall' hencloses.elementary?_eq
      (hne before after x) (hne before after y) hparts (forall_mem_replace hparts hy) hcalls)

end Replaced

theorem Literal.scans (l : Literal) (t : Text) : Symbol.Scans l.toText (.string l.content) t := by
  have hscan := l.scan?_toText t
  rwa [Literal.toText, List.cons_append, l.unspaced_quote] at hscan

/-- Behind a literal and a plus sign, the formula goes on. -/
theorem Literal.leads_plus (l : Literal) {t u : Text} {ps : List Piece}
    (h : Leads .text (Text.gap 1 ++ t) ps u) :
    Leads .text (l.toText ++ (" + ".toList ++ t))
      (.token (.string l.content) :: .token (.operator .plus) :: ps) u := by
  have hplus : Symbol.Scans ['+'] (.operator .plus) (Text.gap 1 ++ t) := by rfl
  exact .token 0 (l.scans _) (fun _ hk => nomatch hk) (.token 1 hplus (fun _ hk => nomatch hk) h)

namespace Surroundings

variable (s : Surroundings)

theorem evalText_of_leads {t : Text} {d : Segments TextPhrase}
    (h : Leads .text (normalize t) (d.pieces TextPhrase.pieces) []) :
    s.evalText t = (d.program TextPhrase.expr).eval (·.eval s.ambient) := by
  obtain ⟨q, hq⟩ := h.exists_starts 0
  rw [Lexemes.read_finish (t := []) (w := 0) (by rfl)] at hq
  exact evalText_of_starts hq

theorem evalNumber_two : s.evalNumber "2".toList = Pure.pure (Numeral.whole 2).toFloat := by
  obtain ⟨d, hd, he⟩ :=
    (NumericPhrase.literal (.whole 2)).exists_lift (.chain .bitwise) (by decide)
  have hread : Lexemes.ofText .number (normalize "2".toList) =
      .token 0 (.numeral (.whole 2)) (.finish 1) := by
    rw [show normalize "2".toList = "2".toList by decide, Lexemes.ofText,
      Lexemes.read_token (w := 1) (k := .numeral (.whole 2)) (by rfl) (fun _ hk => by cases hk),
      Lexemes.read_finish (w := 0) (by rfl)]
    rfl
  have hstarts : Lexemes.Starts (Lexemes.ofText .number (normalize "2".toList))
      ((Segments.last d).pieces NumericPhrase.pieces) (.finish 1) := by
    rw [hread, Segments.pieces, hd]
    exact .token .nil
  rw [evalNumber_of_starts hstarts, Segments.program, Segments.final, he]
  rfl

theorem chooses_two : s.chooses .text (Numeral.whole 2).toFloat = true := by
  have hgreater : (Numeral.whole 2).toFloat > 1 := by decide +kernel
  simp [chooses, hgreater]

theorem callFunction_if_two (yes no : Text) :
    TextExpr.callFunction s.ambient "if".toList ["2".toList, yes, no] =
      (s.evalText yes).blamedOn "if".toList := by
  have hlookup : Intrinsic.textTable.lookup (Text.foldCase "if".toList) =
      some (.three Intrinsic.ifText : Body Text Text) := by rfl
  have hcondition : s.ambient.number "2".toList = Pure.pure (Numeral.whole 2).toFloat :=
    s.evalNumber_two
  have hchoice : Intrinsic.ifText s.ambient "2".toList yes no = s.evalText yes := by
    have hchosen : (s.tolerance.equal 1 (Numeral.whole 2).toFloat ||
      (Numeral.whole 2).toFloat > 1) = true := s.chooses_two
    rw [Intrinsic.ifText, hcondition]
    exact if_pos hchosen
  rw [← hchoice]
  exact TextExpr.callFunction_of_lookup hlookup rfl

/-- Two is true, whatever the tolerance. -/
theorem unneeded_of_two (yes : Text) : s.Unneeded .text "if".toList ["2".toList, yes] [] := by
  refine .no (by decide) fun v hv => ?_
  rw [evalNumber_two] at hv
  cases hv
  exact s.chooses_two

/-- An argument that is not needed may be replaced by any other one without double quotes. The
formula asks the same questions and has the same value or the same error, except that the error may
tell of another place. In front of a call that is changed in an argument of another call, the single
quotes of that argument must come in pairs. -/
theorem sameButPlace_of_replaced {kind : ValueKind} {t t' front : Text}
    (h : Replaced s Text.EvenQuotes kind t t' front) :
    (s.eval kind t).SameButPlace (s.eval kind t') := by
  cases kind with
  | number => exact Run.SameButPlace.bind h.sameValues fun _ => .refl _
  | text => exact Run.SameButPlace.bind h.sameValues fun _ => .refl _

theorem encloses_uppercase : Encloses .text "uppercase".toList [] [] .text := by
  have hlookup : (Intrinsic.parameters .text).lookup (Text.foldCase "uppercase".toList) =
      some (.each [.text]) := by rfl
  refine .intrinsic (by decide) (fun p hp k hk => ?_) fun k hp => ?_
  · cases hlookup.symm.trans hp
    exact (Option.some.inj hk).symm
  · cases hlookup.symm.trans hp

/-- The branch stands behind a literal in double quotes. -/
theorem sameButPlace_of_replaced_branch :
    ((initial {}).eval .text "uppercase(\"is \" + if(2,'a','b'))".toList).SameButPlace
      ((initial {}).eval .text "uppercase(\"is \" + if(2,'a',no (such formula)))".toList) := by
  let s := initial {}
  let l : Literal := ⟨'"', "is ".toList, .inr rfl, by decide, by decide⟩
  let front := "\"is \" + ".toList
  let x := "\"is \" + if(2,'a','b')".toList
  let y := "\"is \" + if(2,'a',no (such formula))".toList
  have hinside : HasCall .text x front "if".toList 0
      (["2".toList, "'a'".toList] ++ "'b'".toList :: []) [] :=
    ⟨by decide, by decide, _, l.leads_plus (.nil 1 _)⟩
  have hinside' : normalize y = withCall front "if".toList 0
    (["2".toList, "'a'".toList] ++ "no (such formula)".toList :: []) [] := by decide
  have hclosed : ∀ z ∈ "no (such formula)".toList ::
      (["2".toList, "'a'".toList] ++ "'b'".toList :: []), Text.Closed z := by decide
  have hbranch : Replaced s Text.EvenQuotes .text x y front :=
    .unneeded hinside hinside' hclosed (s.unneeded_of_two _)
  have hwhole : HasCall .text "uppercase(\"is \" + if(2,'a','b'))".toList [] "uppercase".toList 0
      ([] ++ x :: []) [] := ⟨by decide, by decide, [], .nil 0 _⟩
  have hwhole' : normalize "uppercase(\"is \" + if(2,'a',no (such formula)))".toList =
    withCall [] "uppercase".toList 0 ([] ++ y :: []) [] := by decide
  have hparts : ∀ z ∈ [] ++ x :: [], IsArgument z := by decide
  have heven : Text.EvenQuotes front := by
    rw [Text.EvenQuotes]
    decide
  have hreplaced : Replaced s Text.EvenQuotes .text "uppercase(\"is \" + if(2,'a','b'))".toList
      "uppercase(\"is \" + if(2,'a',no (such formula)))".toList [] :=
    .argument hwhole hwhole' hparts encloses_uppercase heven hbranch
  exact sameButPlace_of_replaced s hreplaced

/-! ### A single quote in front of the call -/

/-- A choice between two literals. In each of them stands a single quote, in double quotes. -/
def betweenQuotes (no : Text) : Text :=
  "\"'\" + ".toList ++ (Text.spacedCall "if".toList 0 ["2".toList, "'a'".toList, no] ++
    " + \"'\"".toList)

theorem evalText_betweenQuotes :
    s.evalText (betweenQuotes "'b'".toList) = Pure.pure "'a'".toList := by
  let l : Literal := ⟨'"', ['\''], .inr rfl, by decide, by decide⟩
  let parts : List Text := ["2".toList, "'a'".toList, "'b'".toList]
  let d : TextPhrase := .chain (.literal l.content)
    (.more (.call "if".toList parts) (.more (.literal l.content) .stop))
  have hname : IsName "if".toList := by decide
  have hparts : ∀ z ∈ parts, IsArgument z := by decide
  have hplus : Symbol.Scans ['+'] (.operator .plus) (' ' :: l.toText) := by rfl
  have hleads : Leads .text (normalize (betweenQuotes "'b'".toList))
      ((Segments.last d).pieces TextPhrase.pieces) [] :=
    l.leads_plus (.call 1 0 hname rfl (by decide) hparts (.token 1 hplus (fun _ hk => nomatch hk)
      (.token 1 (l.scans []) (fun _ hk => nomatch hk) (.nil 0 []))))
  have hchoice : TextExpr.callFunction s.ambient "if".toList parts = Pure.pure ['a'] := by
    let a : Literal := ⟨'\'', ['a'], .inl rfl, by decide, by decide⟩
    have ha : s.evalText "'a'".toList = Pure.pure ['a'] := a.evalText_toText s
    rw [callFunction_if_two, ha]
    rfl
  rw [s.evalText_of_leads hleads]
  show ((TextExpr.append (.append (.literal ['\'']) (.call "if".toList parts))
    (.literal ['\''])).eval s.ambient) = _
  have hcall : (TextExpr.call "if".toList parts).eval s.ambient = Pure.pure ['a'] := hchoice
  rw [TextExpr.eval, TextExpr.eval, TextExpr.eval, hcall]
  rfl

/-- For the splitter the replaced branch stands outside the quotes. -/
theorem evalText_uppercase_betweenQuotes :
    (s.evalText (Text.call "uppercase".toList [betweenQuotes "'b'".toList])).result =
      .ok (Text.uppercase "'a'".toList) ∧
    (s.evalText (Text.call "uppercase".toList [betweenQuotes "'('".toList])).result =
      .error (((FormulaError.functionFailure "uppercase".toList).locatedAt 10).saying
        "unbalanced parentheses in argument list".toList) := by
  constructor
  · have hcalls : Intrinsic.CallsText "uppercase".toList (.one Intrinsic.uppercase) :=
      ⟨by decide, by rfl⟩
    have hstandalone : ∀ t ∈ [betweenQuotes "'b'".toList], t.Standalone := by
      rw [List.forall_mem_singleton]
      exact ⟨⟨⟨'"', rfl, by decide⟩, '"', by decide, by decide⟩, by decide, by decide⟩
    have hvalue : s.ambient.text (betweenQuotes "'b'".toList) = Pure.pure "'a'".toList :=
      s.evalText_betweenQuotes
    refine resultText_of_calls hcalls hstandalone rfl ?_
    rw [Intrinsic.uppercase, hvalue]
    rfl
  · let t := Text.call "uppercase".toList [betweenQuotes "'('".toList]
    have hname : Symbol.scan? (Lexer.unspaced (normalize t)) =
      some (.token (.name "uppercase".toList), 9) := by rfl
    have hopen : Lexer.unspaced ((Lexer.unspaced (normalize t)).drop 9) =
      '(' :: (betweenQuotes "'('".toList ++ [')']) := by rfl
    have hunclosed : Arguments.read (betweenQuotes "'('".toList ++ [')']) =
      .error .parenthesis := by rfl
    have hcall : Lexemes.elementary? .text "uppercase".toList = none := rfl
    have hread := Lexemes.read_openCall (p := 0) hname hopen hcall hunclosed
    rw [evalText_eq, TextExpr.parse_eq, Lexemes.ofText, hread]
    rfl

theorem replaced_betweenQuotes : Replaced s (fun _ => True) .text
    (Text.call "uppercase".toList [betweenQuotes "'b'".toList])
    (Text.call "uppercase".toList [betweenQuotes "'('".toList]) [] := by
  let l : Literal := ⟨'"', ['\''], .inr rfl, by decide, by decide⟩
  have hname : IsName "if".toList := by decide
  have hinside : HasCall .text (betweenQuotes "'b'".toList) "\"'\" + ".toList "if".toList 0
      (["2".toList, "'a'".toList] ++ "'b'".toList :: []) " + \"'\"".toList :=
    ⟨hname, Text.normalize_around hname .., _, l.leads_plus (.nil 1 _)⟩
  have hinside' : normalize (betweenQuotes "'('".toList) = withCall "\"'\" + ".toList
      "if".toList 0 (["2".toList, "'a'".toList] ++ "'('".toList :: []) " + \"'\"".toList :=
    Text.normalize_around hname ..
  have hclosed : ∀ z ∈ "'('".toList :: (["2".toList, "'a'".toList] ++ "'b'".toList :: []),
      Text.Closed z := by decide
  have hwhole : HasCall .text (Text.call "uppercase".toList [betweenQuotes "'b'".toList]) []
      "uppercase".toList 0 ([] ++ betweenQuotes "'b'".toList :: []) [] :=
    ⟨by decide, by decide, [], .nil 0 _⟩
  have hwhole' : normalize (Text.call "uppercase".toList [betweenQuotes "'('".toList]) =
    withCall [] "uppercase".toList 0 ([] ++ betweenQuotes "'('".toList :: []) [] := by decide
  have hparts : ∀ z ∈ [] ++ betweenQuotes "'b'".toList :: [], IsArgument z := by decide
  exact .argument hwhole hwhole' hparts encloses_uppercase trivial
    (.unneeded hinside hinside' hclosed (s.unneeded_of_two _))

/-- A literal in double quotes makes the splitter take the call for quoted text, and the branch for
what stands outside. The parenthesis in it closes the call around. -/
theorem exists_replaced_ne : ¬ ∀ (s : Surroundings) (kind : ValueKind) (t t' front : Text),
    Replaced s (fun _ => True) kind t t' front →
      (s.eval kind t).SameButPlace (s.eval kind t') := by
  intro h
  let s := initial {}
  have hsame := h s .text _ _ [] s.replaced_betweenQuotes
  obtain ⟨hvalue, herror⟩ := s.evalText_uppercase_betweenQuotes
  rw [eval, eval, Run.bind_of_ok hvalue, Run.bind_of_error herror] at hsame
  cases hsame.ok rfl

end Surroundings

end FormulaEngine
