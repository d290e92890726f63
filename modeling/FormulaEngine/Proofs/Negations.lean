import FormulaEngine.Proofs.Runs
import FormulaEngine.Proofs.WrittenCalls

/-! # Negated conjunctions and disjunctions

A conjunction looks for a false argument, a disjunction for a true one, and both stop where they
find it. So the negation of one reads the same arguments in the same order as the other does of the
negated arguments. Only the function that is blamed for an error can differ, since another call is
the innermost one around the argument that fails. -/

namespace FormulaEngine

open Text (IsArgument IsBlank compactCall)

/-! ## Runs up to blame -/

namespace Run

variable {α β : Type}

/-- The runs ask the same questions, and give the same value or errors that differ in nothing but
the function that is blamed. -/
def SameButBlame (r r' : Run α) : Prop :=
  r.trace = r'.trace ∧
    ((∃ a, r.result = .ok a ∧ r'.result = .ok a) ∨
      ∃ e e', r.result = .error e ∧ r'.result = .error e' ∧
        e.kind = e'.kind ∧ e.position? = e'.position? ∧ e.detail = e'.detail)

namespace SameButBlame

variable {r r' r'' : Run α}

theorem refl (r : Run α) : r.SameButBlame r := by
  refine ⟨rfl, ?_⟩
  cases hr : r.result with
  | ok a => exact .inl ⟨a, rfl, rfl⟩
  | error e => exact .inr ⟨e, e, rfl, rfl, rfl, rfl, rfl⟩

theorem symm (h : r.SameButBlame r') : r'.SameButBlame r := by
  obtain ⟨htrace, ⟨a, ha, ha'⟩ | ⟨e, e', he, he', hkind, hposition, hdetail⟩⟩ := h
  · exact ⟨htrace.symm, .inl ⟨a, ha', ha⟩⟩
  · exact ⟨htrace.symm, .inr ⟨e', e, he', he, hkind.symm, hposition.symm, hdetail.symm⟩⟩

theorem trans (h : r.SameButBlame r') (h' : r'.SameButBlame r'') : r.SameButBlame r'' := by
  obtain ⟨htrace, ⟨a, ha, ha'⟩ | ⟨e, e', he, he', hkind, hposition, hdetail⟩⟩ := h
  · obtain ⟨htrace', ⟨b, hb, hb'⟩ | ⟨_, _, he, _⟩⟩ := h'
    · cases ha'.symm.trans hb
      exact ⟨htrace.trans htrace', .inl ⟨a, ha, hb'⟩⟩
    · cases ha'.symm.trans he
  · obtain ⟨htrace', ⟨b, hb, _⟩ | ⟨_, e'', hf, he'', hkind', hposition', hdetail'⟩⟩ := h'
    · cases he'.symm.trans hb
    · cases he'.symm.trans hf
      exact ⟨htrace.trans htrace', .inr ⟨e, e'', he, he'', hkind.trans hkind',
        hposition.trans hposition', hdetail.trans hdetail'⟩⟩

theorem blamedOn (r : Run α) (name : Text) : (r.blamedOn name).SameButBlame r := by
  refine ⟨rfl, ?_⟩
  rw [result_blamedOn]
  cases hr : r.result with
  | ok a => exact .inl ⟨a, rfl, rfl⟩
  | error e => exact .inr ⟨_, e, rfl, rfl, rfl, rfl, rfl⟩

/-- Runs that are the same so far go on in the same way. -/
theorem bind (h : r.SameButBlame r') {f f' : α → Run β} (hf : ∀ a, (f a).SameButBlame (f' a)) :
    (r >>= f).SameButBlame (r' >>= f') := by
  obtain ⟨htrace, ⟨a, ha, ha'⟩ | ⟨e, e', he, he', hsame⟩⟩ := h
  · rw [bind_of_ok ha, bind_of_ok ha', htrace]
    exact ⟨congrArg (r'.trace ++ ·) (hf a).1, (hf a).2⟩
  · rw [bind_of_error he, bind_of_error he']
    exact ⟨htrace, .inr ⟨e, e', rfl, rfl, hsame⟩⟩

end SameButBlame

end Run

/-! ## Searching for a truth value -/

namespace Intrinsic

variable {A : Type} {c : Context A}

theorem isTrue_truthValue (b : Bool) : isTrue (truthValue b) = b := by
  cases b <;> decide +kernel

/-- The value of a run, negated. -/
def negated (r : Run Float) : Run Float := do return truthValue (!isTrue (← r))

theorem negated_bind (r : Run Float) (f : Float → Run Float) :
    negated (r >>= f) = r >>= fun v => negated (f v) := Run.bind_bind r f _

theorem negated_return_truthValue (b : Bool) :
    negated (return truthValue b) = return truthValue (!b) := by
  simp only [negated, Run.return_bind, isTrue_truthValue]

/-- Searching for a truth value and negating what is found is searching for the other truth value
among the negated arguments. -/
theorem seek_negated {xs ys : List A}
    (h : List.Forall₂ (fun x y => (negated (c.number x)).SameButBlame (c.number y)) xs ys)
    (b : Bool) : (negated (seek b c xs)).SameButBlame (seek (!b) c ys) := by
  induction h with
  | nil =>
    rw [seek, negated_return_truthValue]
    exact .refl _
  | @cons x y xs ys hx _ ih =>
    -- the first argument, negated where it is read
    have hfirst : negated (seek b c (x :: xs)) = negated (c.number x) >>= fun w =>
        if isTrue w = !b then return truthValue (!b) else negated (seek b c xs) := by
      rw [seek, negated_bind, negated, Run.bind_bind]
      congr 1
      funext v
      rw [Run.return_bind, isTrue_truthValue]
      by_cases hv : isTrue v = b
      · rw [if_pos hv, if_pos (by rw [hv]), negated_return_truthValue]
      · rw [if_neg hv, if_neg (by simpa using hv)]
    rw [hfirst, seek]
    refine hx.bind fun w => ?_
    by_cases hw : isTrue w = !b
    · rw [if_pos hw, if_pos hw]
      exact .refl _
    · rw [if_neg hw, if_neg hw]
      exact ih

/-- The conjunction stops at a false argument, the disjunction at a true one. -/
def junction (b : Bool) : Text := if b then "or".toList else "and".toList

theorem calls_junction (b : Bool) : Calls (junction b) (.atLeast 2 (seek b)) := by
  rw [← any_all_eq_seek]
  cases b <;> exact ⟨by decide, by decide, by rfl⟩

theorem calls_not : Calls "not".toList (.one negation) := ⟨by decide, by decide, by rfl⟩

end Intrinsic

/-! ## Formulas -/

open Intrinsic (calls_not calls_junction junction negated seek)

/-- A text is blank when nothing of it is left as a formula. -/
theorem normalize_eq_nil_iff {t : Text} : normalize t = [] ↔ IsBlank t := by
  constructor
  · intro h
    obtain ⟨a, b, ha, hb, ht⟩ := Text.padded_oneLine t
    intro c hc
    by_cases hbreak : c = '\r' ∨ c = '\n'
    · rcases hbreak with rfl | rfl <;> decide
    · have hmem : c ∈ t.oneLine := List.mem_filter.mpr ⟨hc, by simpa using hbreak⟩
      rw [ht, h] at hmem
      simp only [List.append_nil, List.mem_append] at hmem
      exact hmem.elim (ha c) (hb c)
  · intro h
    rw [normalize, h.trim_eq]
    rfl

namespace Surroundings

variable (s : Surroundings) {x : Text} {xs : List Text}

theorem evalNumber_not (hx : IsArgument x) (hblank : ¬ IsBlank x) :
    s.evalNumber (compactCall "not".toList [x]) =
      (negated (s.evalNumber x)).blamedOn "not".toList := by
  have hblank : [x].map normalize ≠ [[]] := by simpa [normalize_eq_nil_iff] using hblank
  rw [s.evalNumber_compactCall calls_not.isName calls_not.not_elementary (by simp)
    (by simpa using hx) hblank, List.map_singleton, calls_not.callFunction_eq rfl,
    ← s.evalNumber_normalize x]
  rfl

theorem evalNumber_junction (b : Bool) (hlength : 2 ≤ xs.length) (hxs : ∀ x ∈ xs, IsArgument x) :
    s.evalNumber (compactCall (junction b) xs) =
      (seek b s.ambient (xs.map normalize)).blamedOn (junction b) := by
  have hcalls := calls_junction b
  have hrun : (Body.atLeast 2 (seek b)).run? s.ambient (xs.map normalize) =
      some (seek b s.ambient (xs.map normalize)) := if_pos (by simpa using hlength)
  have hblank : xs.map normalize ≠ [[]] := by
    intro h
    have := congrArg List.length h
    simp at this
    omega
  have hne : xs ≠ [] := by
    rintro rfl
    simp at hlength
  rw [s.evalNumber_compactCall hcalls.isName hcalls.not_elementary hne hxs hblank,
    hcalls.callFunction_eq hrun]

/-- A call can stand as an argument of another one. -/
theorem not_isBlank_compactCall {name : Text} (hname : IsName name) (ts : List Text) :
    ¬ IsBlank (compactCall name ts) :=
  (Text.tight_spacedCall hname 0 ts).not_isBlank

theorem not_junction (b : Bool) (hlength : 2 ≤ xs.length)
    (hxs : ∀ x ∈ xs, IsArgument x ∧ ¬ IsBlank x) :
    (s.evalNumber (compactCall "not".toList [compactCall (junction b) xs])).SameButBlame
      (s.evalNumber
        (compactCall (junction !b) (xs.map fun x => compactCall "not".toList [x]))) := by
  have hnot : ∀ {x}, IsArgument x → IsArgument (compactCall "not".toList [x]) := fun hx =>
    Text.isArgument_compactCall calls_not.isName (by simpa using hx)
  have hinner : IsArgument (compactCall (junction b) xs) :=
    Text.isArgument_compactCall (calls_junction b).isName fun x hx => (hxs x hx).1
  have hnegations : ∀ y ∈ xs.map fun x => compactCall "not".toList [x], IsArgument y := by
    intro y hy
    obtain ⟨x, hx, rfl⟩ := List.mem_map.mp hy
    exact hnot (hxs x hx).1
  -- each argument, and its negation on the other side
  have harguments : List.Forall₂
      (fun x y => (negated (s.ambient.number x)).SameButBlame (s.ambient.number y))
      (xs.map normalize) ((xs.map fun x => compactCall "not".toList [x]).map normalize) := by
    have hread : ∀ t, s.ambient.number (normalize t) = s.evalNumber t := s.evalNumber_normalize
    rw [List.map_map, List.forall₂_map_left_iff, List.forall₂_map_right_iff, List.forall₂_same]
    intro x hx
    rw [Function.comp_apply, hread, hread, s.evalNumber_not (hxs x hx).1 (hxs x hx).2]
    exact (Run.SameButBlame.blamedOn _ _).symm
  rw [s.evalNumber_not hinner (not_isBlank_compactCall (calls_junction b).isName xs),
    s.evalNumber_junction b hlength fun x hx => (hxs x hx).1,
    s.evalNumber_junction (!b) (by simpa using hlength) hnegations]
  have hleft := (Run.SameButBlame.blamedOn (seek b s.ambient (xs.map normalize)) (junction b)).bind
    fun v => .refl (return truthValue (!isTrue v))
  exact (Run.SameButBlame.blamedOn _ _).trans <| hleft.trans <|
    (Intrinsic.seek_negated harguments b).trans (Run.SameButBlame.blamedOn _ _).symm

/-- A negated conjunction of two or more arguments, none of them blank, is the disjunction of the
negated arguments, and a negated disjunction the conjunction of them: the same questions are asked
in the same order, and the values are the same or the errors differ in nothing but the function that
is blamed. -/
theorem deMorgan (hlength : 2 ≤ xs.length) (hxs : ∀ x ∈ xs, IsArgument x ∧ ¬ IsBlank x) :
    (s.evalNumber (compactCall "not".toList [compactCall "and".toList xs])).SameButBlame
        (s.evalNumber (compactCall "or".toList (xs.map fun x => compactCall "not".toList [x]))) ∧
      (s.evalNumber (compactCall "not".toList [compactCall "or".toList xs])).SameButBlame
        (s.evalNumber (compactCall "and".toList (xs.map fun x => compactCall "not".toList [x]))) :=
  ⟨s.not_junction false hlength hxs, s.not_junction true hlength hxs⟩

/-- The second argument is malformed, and is read because the first one does not settle it. -/
theorem deMorgan_malformed :
    2 ≤ ["x > 1".toList, " max(0, x) +".toList].length ∧
      (∀ x ∈ ["x > 1".toList, " max(0, x) +".toList], IsArgument x ∧ ¬ IsBlank x) ∧
      ((initial { value := fun _ => some 2 }).evalNumber
        (compactCall "not".toList [compactCall "and".toList
          ["x > 1".toList, " max(0, x) +".toList]])).SameButBlame
        ((initial { value := fun _ => some 2 }).evalNumber
          (compactCall "or".toList (["x > 1".toList, " max(0, x) +".toList].map fun x =>
            compactCall "not".toList [x]))) := by
  have hxs : ∀ x ∈ ["x > 1".toList, " max(0, x) +".toList], IsArgument x ∧ ¬ IsBlank x := by
    simp only [← normalize_eq_nil_iff]
    decide
  exact ⟨by decide, hxs, (deMorgan _ (by decide) hxs).1⟩

/-- The function that is blamed for the malformed argument is another one. -/
example : (initial { value := fun _ => some 2 }).evalNumber "not(and(x > 1, 1 +))".toList ≠
    (initial { value := fun _ => some 2 }).evalNumber "or(not(x > 1), not(1 +))".toList := by
  intro h
  have hblamed := congrArg (fun r => match r.result with
    | .ok _ => none
    | .error e => e.function?) h
  revert hblamed
  decide +kernel

end Surroundings

end FormulaEngine
