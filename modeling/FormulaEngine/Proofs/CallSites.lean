import FormulaEngine.Proofs.Places
import FormulaEngine.Proofs.WrittenCalls

/-! # Calls in their places

A call that stands in a formula may be replaced by another call of the same function, with other
arguments: when the calls have the same value, so have the formulas, whatever the texts of the
arguments are, since the formula goes on behind the call where it went on before. Errors may tell of
other places. The same holds of a call of the language when one of its arguments is replaced by one
of the same value, except where a single argument could stand for a range. -/

namespace FormulaEngine

open Intrinsic (Parameters Read)
open Lexemes (Leads Starts)
open Text (IsArgument spacedCall gap)

/-! ## One argument of a call -/

namespace Intrinsic

/-- The kind of value as which the argument at an index is read. -/
def Parameters.kindAt? : Parameters → Nat → Option ValueKind
  | each kinds, i => kinds[i]?
  | all kind, _ | values kind, _ => some kind

variable {c : Context Text} {before after : List Text} {x y : Text} {k : ValueKind}

theorem read_refl (c : Context Text) (k : ValueKind) (x : Text) : Read .upToPlace c c k x x := by
  cases k with
  | number => exact Run.SameButPlace.refl _
  | text => exact Run.SameButPlace.refl _

theorem readEach_refl (c : Context Text) (kinds : List ValueKind) (xs : List Text) :
    ReadEach .upToPlace c c kinds xs xs :=
  readEach_of_zip fun k x _ => read_refl c k x

theorem readEach_replace {kinds : List ValueKind}
    (hkind : ∀ k', kinds[before.length]? = some k' → k' = k) (h : Read .upToPlace c c k x y) :
    ReadEach .upToPlace c c kinds (before ++ x :: after) (before ++ y :: after) := by
  induction before generalizing kinds with
  | nil =>
    cases kinds with
    | nil => trivial
    | cons k' kinds =>
      obtain rfl := hkind k' rfl
      exact ⟨h, readEach_refl c kinds after⟩
  | cons z before ih =>
    cases kinds with
    | nil => trivial
    | cons k' kinds => exact ⟨read_refl c k' z, ih hkind⟩

theorem forall₂_replace {k : ValueKind} (h : Read .upToPlace c c k x y) :
    List.Forall₂ (Read .upToPlace c c k) (before ++ x :: after) (before ++ y :: after) := by
  have hrefl : ∀ xs, List.Forall₂ (Read .upToPlace c c k) xs xs :=
    fun xs => List.forall₂_same.mpr fun x _ => read_refl c k x
  exact List.rel_append (hrefl before) (.cons h (hrefl after))

/-- Several arguments stand for themselves. -/
theorem delegated_of_several (h : before ++ after ≠ []) (x : Text) :
    delegated (before ++ x :: after) = .ok none := by
  cases before with
  | nil =>
    obtain ⟨z, zs, rfl⟩ := List.exists_cons_of_ne_nil h
    rfl
  | cons z before =>
    cases before with
    | nil => rfl
    | cons z' before => rfl

theorem Parameters.related_replace (hs : c.source = id) {p : Parameters}
    (hkind : ∀ k', p.kindAt? before.length = some k' → k' = k)
    (hmany : ∀ k', p = .values k' → before ++ after ≠ []) (h : Read .upToPlace c c k x y) :
    p.Related .upToPlace c c (before ++ x :: after) (before ++ y :: after) := by
  have hsame : c.Alike c := ⟨rfl, rfl, rfl, rfl⟩
  match p with
  | each kinds => exact readEach_replace hkind h
  | all kind =>
    obtain rfl := hkind kind rfl
    exact forall₂_replace h
  | values kind =>
    obtain rfl := hkind kind rfl
    have hnone : ∀ z, delegated ((before ++ z :: after).map c.source) = .ok none := by
      intro z
      rw [hs, List.map_id]
      exact delegated_of_several (hmany kind rfl) z
    have hdelegated := (hnone x).trans (hnone y).symm
    cases kind with
    | number =>
      exact holds_numbers hsame hdelegated (fun _ _ _ => trivial) fun _ => forall₂_replace h
    | text =>
      exact holds_texts hsame hdelegated (fun _ _ _ => trivial) fun _ => forall₂_replace h

end Intrinsic

/-- A call of the language that reads the argument between the others as a value of kind `k`, if it
reads it. A single argument must not stand for a range. -/
inductive Encloses (kind : ValueKind) (name : Text) :
    (before after : List Text) → (k : ValueKind) → Prop
  | intrinsic {before after : List Text} {k : ValueKind} (h : Intrinsic.isIntrinsic name = true)
      (hkind : ∀ p, (Intrinsic.parameters kind).lookup (Text.foldCase name) = some p →
        ∀ k', p.kindAt? before.length = some k' → k' = k)
      (hmany : ∀ k', (Intrinsic.parameters kind).lookup (Text.foldCase name) = some (.values k') →
        before ++ after ≠ []) : Encloses kind name before after k
  | trim (hkind : kind = .text) (h : Intrinsic.trims.lookup (Text.foldCase name) ≠ none) :
      Encloses kind name [] [] .text

/-- No function of the language is a part of the grammar. -/
theorem elementary?_of_isIntrinsic {name : Text} (h : Intrinsic.isIntrinsic name = true)
    (kind : ValueKind) : Lexemes.elementary? kind name = none := by
  have all : ∀ n ∈ Intrinsic.numericNames ++ Intrinsic.textNames,
      Elementary.names.lookup n = none := by decide
  cases kind with
  | number =>
    refine all _ (List.mem_append.mpr ?_)
    simpa [Intrinsic.isIntrinsic] using h
  | text => rfl

namespace Encloses

variable {kind k : ValueKind} {name : Text} {before after : List Text}

theorem elementary?_eq (h : Encloses kind name before after k) :
    Lexemes.elementary? kind name = none := by
  cases h with
  | intrinsic h => exact elementary?_of_isIntrinsic h kind
  | trim hkind =>
    subst hkind
    rfl

/-- What the other arguments are does not matter. -/
theorem map (h : Encloses kind name before after k) (f : Text → Text) :
    Encloses kind name (before.map f) (after.map f) k := by
  cases h with
  | intrinsic h hkind hmany =>
    refine .intrinsic h ?_ fun k' hk' => ?_
    · rw [List.length_map]
      exact hkind
    · rw [← List.map_append]
      simpa using hmany k' hk'
  | trim hkind h => exact .trim hkind h

end Encloses

theorem NumericExpr.callFunction_of_isIntrinsic {c : Context Text} {name : Text}
    (h : Intrinsic.isIntrinsic name = true) (xs : List Text) :
    callFunction c name xs = Intrinsic.callNumeric c name xs := if_pos h

theorem TextExpr.callFunction_of_isIntrinsic {c : Context Text} {name : Text}
    (h : Intrinsic.isIntrinsic name = true) (xs : List Text) :
    callFunction c name xs = Intrinsic.callText c name xs := if_pos h

theorem isIntrinsic_of_trims {name : Text}
    (h : Intrinsic.trims.lookup (Text.foldCase name) ≠ none) :
    Intrinsic.isIntrinsic name = false := by
  have all : ∀ e ∈ Intrinsic.trims, e.1 ∉ Intrinsic.numericNames ∧ e.1 ∉ Intrinsic.textNames := by
    simp only [Intrinsic.trims, List.forall_mem_cons]
    decide
  obtain ⟨trim, htrim⟩ := Option.ne_none_iff_exists'.mp h
  simpa [Intrinsic.isIntrinsic] using all _ (mem_of_lookup_eq_some htrim)

theorem TextExpr.callFunction_of_trims {c : Context Text} {name : Text} {trim : Text → Text}
    (h : Intrinsic.trims.lookup (Text.foldCase name) = some trim) (x : Text) :
    callFunction c name [x] = do
      let t ← c.text x
      return trim t := by
  have hintrinsic := isIntrinsic_of_trims (Option.ne_none_iff_exists'.mpr ⟨trim, h⟩)
  simp [callFunction, hintrinsic, h]

namespace Surroundings

variable (s : Surroundings)

/-- Calls of a function with these arguments and with those are the same but for places. -/
def SameCalls : ValueKind → Text → List Text → List Text → Prop
  | .number, name, xs, ys => (NumericExpr.callFunction s.ambient name xs).SameButPlace
      (NumericExpr.callFunction s.ambient name ys)
  | .text, name, xs, ys => (TextExpr.callFunction s.ambient name xs).SameButPlace
      (TextExpr.callFunction s.ambient name ys)

/-- Evaluating this formula or that one, as values of this kind, is the same but for places. -/
abbrev SameValues (kind : ValueKind) (t t' : Text) : Prop :=
  Read .upToPlace s.ambient s.ambient kind t t'

variable {s} {kind k : ValueKind} {name : Text} {before after : List Text} {x y : Text}

theorem SameCalls.refl (kind : ValueKind) (name : Text) (xs : List Text) :
    s.SameCalls kind name xs xs := by
  cases kind with
  | number => exact Run.SameButPlace.refl _
  | text => exact Run.SameButPlace.refl _

/-- What is replaced in an argument of a call is replaced in the call. -/
theorem sameCalls_of_encloses (h : Encloses kind name before after k) (hxy : s.SameValues k x y) :
    s.SameCalls kind name (before ++ x :: after) (before ++ y :: after) := by
  have hsame : s.ambient.Alike s.ambient := ⟨rfl, rfl, rfl, rfl⟩
  cases h with
  | intrinsic hintrinsic hkind hmany =>
    have hlength : (before ++ x :: after).length = (before ++ y :: after).length := by simp
    have hrelated : ∀ p, (Intrinsic.parameters kind).lookup (Text.foldCase name) = some p →
        p.Related .upToPlace s.ambient s.ambient (before ++ x :: after) (before ++ y :: after) := by
      intro p hp
      exact Parameters.related_replace rfl (hkind p hp) (fun k' hk' => hmany k' (hk' ▸ hp)) hxy
    cases kind with
    | number =>
      show Run.Relation.upToPlace.Holds _ _
      rw [NumericExpr.callFunction_of_isIntrinsic hintrinsic,
        NumericExpr.callFunction_of_isIntrinsic hintrinsic]
      exact Intrinsic.holds_callNumeric hsame hlength fun p hp _ => hrelated p hp
    | text =>
      show Run.Relation.upToPlace.Holds _ _
      rw [TextExpr.callFunction_of_isIntrinsic hintrinsic,
        TextExpr.callFunction_of_isIntrinsic hintrinsic]
      exact Intrinsic.holds_callText hsame hlength fun p hp _ => hrelated p hp
  | trim hkind htrims =>
    subst hkind
    obtain ⟨trim, htrim⟩ := Option.ne_none_iff_exists'.mp htrims
    show Run.SameButPlace _ _
    rw [List.nil_append, List.nil_append, TextExpr.callFunction_of_trims htrim,
      TextExpr.callFunction_of_trims htrim]
    exact Run.SameButPlace.bind hxy fun _ => .refl _

end Surroundings

/-! ## A call of a formula -/

namespace Text

variable {name front rest : Text} {n : Nat} {parts parts' : List Text}

/-- An argument remains one when a call in it is given other arguments, unless the call stands in
single quotes for the splitter. -/
theorem isArgument_replace (hname : IsName name) (heven : Even (front.count '\''))
    (hparts : ∀ p ∈ parts, IsArgument p) (hparts' : ∀ p ∈ parts', IsArgument p)
    (h : IsArgument (front ++ (spacedCall name n parts ++ rest))) :
    IsArgument (front ++ (spacedCall name n parts' ++ rest)) := by
  rw [IsArgument, Nesting.argumentAfter_append, Option.bind_eq_some_iff] at h ⊢
  obtain ⟨⟨depth, quoted⟩, hfront, h⟩ := h
  have hquoted := (Nesting.after_eq_some_iff.mp (Nesting.after_of_argumentAfter hfront)).2.2
  obtain rfl : quoted = false := by
    rw [← Bool.not_eq_true]
    intro hq
    exact Nat.not_odd_iff_even.mpr heven (hquoted.mp hq)
  refine ⟨⟨depth, false⟩, hfront, ?_⟩
  rw [Nesting.argumentAfter_append, argumentAfter_spacedCall hname hparts, Option.bind_some] at h
  rw [Nesting.argumentAfter_append, argumentAfter_spacedCall hname hparts', Option.bind_some]
  exact h

end Text

/-- A call between two texts, on one line. -/
def Text.withCall (front name : Text) (n : Nat) (parts : List Text) (rest : Text) : Text :=
  front ++ ((spacedCall name n parts).oneLine ++ rest)

namespace Text

/-- Trimming stops at what is not blank. -/
theorem trimStart_append_cons {c : Char} (hc : isBlank c = false) (s t : Text) :
    trimStart (s ++ c :: t) = trimStart s ++ c :: t := by
  have hend : (c :: t).dropWhile isBlank = c :: t := List.dropWhile_cons_of_neg (by simp [hc])
  rw [trimStart, trimStart, List.dropWhile_append, hend]
  split
  next hnil => rw [List.isEmpty_iff.mp hnil, List.nil_append]
  next => rfl

/-- Whatever the arguments of a call are, the texts around it become the same ones. -/
theorem normalize_around {name : Text} (hname : IsName name) (n : Nat) (parts : List Text)
    (s t : Text) : normalize (s ++ (spacedCall name n parts ++ t)) =
      withCall (trimStart s).oneLine name n parts (trimEnd t).oneLine := by
  obtain ⟨⟨c, hc, hblank⟩, -⟩ := (Standalone.name hname).tight
  obtain ⟨u, rfl⟩ := List.head?_eq_some_iff.mp hc
  let inside := gap n ++ '(' :: join [','] parts
  have hcall : spacedCall (c :: u) n parts = (c :: u) ++ inside ++ [')'] := by
    simp [spacedCall, inside]
  have hstart : trimStart (s ++ (spacedCall (c :: u) n parts ++ t)) =
      trimStart s ++ (spacedCall (c :: u) n parts ++ t) := trimStart_append_cons hblank s _
  have hend : trimEnd (trimStart s ++ (spacedCall (c :: u) n parts ++ t)) =
      trimStart s ++ (spacedCall (c :: u) n parts ++ trimEnd t) := by
    have hclose : isBlank ')' = false := by decide
    have h := trimEnd_append_cons hclose (trimStart s ++ ((c :: u) ++ inside)) t
    rw [hcall]
    simpa using h
  show (trimEnd (trimStart _)).oneLine = _
  rw [hstart, hend, oneLine_append, oneLine_append, withCall]

end Text

/-- The call stands in the formula, and the pieces in front of it lead there. -/
structure HasCall (kind : ValueKind) (t front name : Text) (n : Nat) (parts : List Text)
    (rest : Text) : Prop where
  isName : IsName name
  eq : normalize t = Text.withCall front name n parts rest
  leads : ∃ ps, Leads kind (normalize t) ps ((spacedCall name n parts).oneLine ++ rest)

namespace HasCall

open Surroundings (SameCalls)

variable {s : Surroundings} {kind : ValueKind} {t t' front name rest : Text} {n : Nat}
  {parts parts' : List Text}

/-- The lexemes at the place of a call. -/
theorem read_call (hname : IsName name) (hf : Lexemes.elementary? kind name = none)
    (hne : parts ≠ []) (hparts : ∀ p ∈ parts, IsArgument p) (n p : Nat) (rest : Text) :
    ∃ p' q, Lexemes.read kind p ((spacedCall name n parts).oneLine ++ rest) =
      .call p' name (Arguments.passed (parts.map Text.oneLine)) (Lexemes.read kind q rest) := by
  have hleads : Leads kind (gap 0 ++ ((spacedCall name n parts).oneLine ++ rest))
      [.call name (Arguments.passed (parts.map Text.oneLine))] rest := by
    rw [Text.oneLine_spacedCall hname]
    refine .call 0 n hname hf (by simpa using hne) ?_ (.nil 0 rest)
    intro p hp
    obtain ⟨q, hq, rfl⟩ := List.mem_map.mp hp
    exact Text.isArgument_oneLine_iff.mpr (hparts q hq)
  obtain ⟨q, hq⟩ := hleads.exists_starts p
  change Starts (Lexemes.read kind p ((spacedCall name n parts).oneLine ++ rest)) _ _ at hq
  generalize Lexemes.read kind p ((spacedCall name n parts).oneLine ++ rest) = l at hq ⊢
  cases hq with
  | call hq =>
    cases hq
    exact ⟨_, q, rfl⟩

/-- Replacing the call leaves the pieces in front of it as they are. -/
theorem alike_lexemes (h : HasCall kind t front name n parts rest)
    (h' : normalize t' = Text.withCall front name n parts' rest)
    (hf : Lexemes.elementary? kind name = none) (hne : parts ≠ []) (hne' : parts' ≠ [])
    (hparts : ∀ p ∈ parts, IsArgument p) (hparts' : ∀ p ∈ parts', IsArgument p)
    (hcalls : s.SameCalls kind name (Arguments.passed (parts.map Text.oneLine))
      (Arguments.passed (parts'.map Text.oneLine))) :
    (Lexemes.ofText kind (normalize t)).Alike (.places (s.SameCalls kind))
      (Lexemes.ofText kind (normalize t')) := by
  obtain ⟨ps, hleads⟩ := h.leads
  obtain ⟨c, hc, hstart⟩ := h.isName.head
  obtain ⟨u, rfl⟩ := List.head?_eq_some_iff.mp hc
  have hfront : ∀ parts, Text.front ((spacedCall (c :: u) n parts).oneLine ++ rest) = c := by
    intro parts
    rw [Text.oneLine_spacedCall h.isName]
    rfl
  have hspace : c ≠ ' ' := by
    rintro rfl
    exact absurd hstart (by decide)
  obtain ⟨b, hb, hleads'⟩ := hleads.congr ((hfront parts).trans (hfront parts').symm)
    (by rwa [hfront])
  obtain rfl : front = b := List.append_cancel_right (h.eq.symm.trans hb)
  rw [show front ++ ((spacedCall (c :: u) n parts').oneLine ++ rest) = normalize t' from h'.symm]
    at hleads'
  obtain ⟨q, hstarts⟩ := hleads.exists_starts 0
  obtain ⟨q', hstarts'⟩ := hleads'.exists_starts 0
  refine hstarts.alike (SameCalls.refl kind) hstarts' ?_
  obtain ⟨p, r, hread⟩ := read_call h.isName hf hne hparts n q rest
  obtain ⟨p', r', hread'⟩ := read_call h.isName hf hne' hparts' n q' rest
  rw [hread, hread']
  exact .call trivial rfl ⟨rfl, hcalls⟩ (Lexemes.alike_read (SameCalls.refl kind) r r' rest)

end HasCall

namespace Surroundings

variable {s : Surroundings} {kind : ValueKind} {t t' : Text}

/-- Formulas with the same pieces but for places, and calls that are the same but for places, have
the same values but for places. -/
theorem sameValues_of_alike (h : (Lexemes.ofText kind (normalize t)).Alike
    (.places (s.SameCalls kind)) (Lexemes.ofText kind (normalize t'))) :
    s.SameValues kind t t' := by
  cases kind with
  | number =>
    show Run.Relation.upToPlace.Holds (s.evalNumber t) (s.evalNumber t')
    rw [evalNumber_eq, evalNumber_eq, NumericExpr.parse_eq, NumericExpr.parse_eq]
    refine (NumericExpr.alike_program h).holds_eval Run.SameButPlace.fail fun he => ?_
    refine he.holds_eval ⟨rfl, rfl, rfl, rfl⟩ ?_ ?_
    · rintro n _ rfl
      exact Run.SameButPlace.refl _
    · rintro n xs _ ys ⟨rfl, hcalls⟩
      exact hcalls
  | text =>
    show Run.Relation.upToPlace.Holds (s.evalText t) (s.evalText t')
    rw [evalText_eq, evalText_eq, TextExpr.parse_eq, TextExpr.parse_eq]
    refine (TextExpr.alike_program h).holds_eval Run.SameButPlace.fail fun he => ?_
    refine he.holds_eval ?_ ?_
    · rintro n _ rfl
      exact Run.SameButPlace.refl _
    · rintro n xs _ ys ⟨rfl, hcalls⟩
      exact hcalls

end Surroundings

end FormulaEngine
