import FormulaEngine.Proofs.Unfolding

/-! # What a formula can ask

Every question of an evaluation is raised by a name or a call that stands in the formula itself or
in an argument that one of its calls may read, however deep. Which question that is depends on the
name and the texts of the arguments only. -/

namespace FormulaEngine

/-- A text that a formula reads as a formula of its own: the formula, or what an argument of a call
in it reads. -/
inductive Subformula : ValueKind → Text → ValueKind → Text → Prop
  | self (kind : ValueKind) (t : Text) : Subformula kind t kind t
  | argument {kind kind' kind'' : ValueKind} {t u x name : Text} {arguments : List Text} :
      .call name arguments ∈ (Lexemes.ofText kind t).pieces → x ∈ arguments →
      Subformula kind' x kind'' u → Subformula kind t kind'' u

/-- A text that the evaluation of a formula may read as a formula of its own: only through calls
that may read the argument which it stands in. -/
inductive Reached : ValueKind → Text → ValueKind → Text → Prop
  | self (kind : ValueKind) (t : Text) : Reached kind t kind t
  | argument {kind kind' kind'' : ValueKind} {t u x name : Text} {arguments : List Text} :
      .call name arguments ∈ (Lexemes.ofText kind t).pieces →
      ReadArgument kind name arguments kind' x → Reached kind' x kind'' u → Reached kind t kind'' u

theorem Reached.subformula {kind kind' : ValueKind} {t u : Text} (h : Reached kind t kind' u) :
    Subformula kind t kind' u := by
  induction h with
  | self kind t => exact .self kind t
  | argument hc hx _ ih => exact .argument hc hx.mem ih

/-- A question that a name or a call of the text itself raises, where `constant` tells the names
that the language knows. -/
inductive Raises (constant : Text → Prop) (kind : ValueKind) (t : Text) : Callback → Prop
  | name {n : Text} : .token (.name n) ∈ (Lexemes.ofText kind t).pieces →
      (kind = .number → ¬ constant n) → Raises constant kind t (.name kind n)
  | call {n : Text} {arguments : List Text} :
      .call n arguments ∈ (Lexemes.ofText kind t).pieces → Intrinsic.isIntrinsic n = false →
      ¬ Trims kind n arguments → Raises constant kind t (.call kind n arguments)
  | range {n e : Text} {arguments : List Text} {k : ValueKind} {keyword : RangeKeyword} :
      .call n arguments ∈ (Lexemes.ofText kind t).pieces →
      (Intrinsic.parameters kind).lookup (Text.foldCase n) = some (.values k) →
      Intrinsic.delegated arguments = .ok (some (keyword, e)) →
      Raises constant kind t (.range keyword k e)

namespace Surroundings

variable (s : Surroundings)

/-- A name that the language knows itself. -/
def IsConstant (name : Text) : Prop := s.ambient.constant? name ≠ none

/-- A question that a text which the formula may read raises. -/
def MayAsk (kind : ValueKind) (t : Text) (q : Callback) : Prop :=
  ∃ kind' u, Reached kind t kind' u ∧ Raises s.IsConstant kind' u q

variable {s}

theorem MayAsk.of_argument {kind kind' : ValueKind} {t x name : Text} {arguments : List Text}
    {q : Callback} (hc : .call name arguments ∈ (Lexemes.ofText kind t).pieces)
    (hx : ReadArgument kind name arguments kind' x) (h : s.MayAsk kind' x q) :
    s.MayAsk kind t q := by
  obtain ⟨kind'', u, hu, hq⟩ := h
  exact ⟨kind'', u, .argument hc hx hu, hq⟩

theorem pieces_ask {n : Nat} {kind : ValueKind} {t : Text}
    (h : ∀ k x, Intrinsic.Read (.asking (s.MayAsk k x)) (s.context n) (s.context n) k x x) :
    (Lexemes.ofText kind t).All
      (PieceRelated (.asking (s.MayAsk kind t)) (s.context n) (s.context n) kind) := by
  refine Lexemes.all_iff.mpr fun p hp => ?_
  match p with
  | .token (.name m) =>
    intro hm
    refine ⟨kind, t, .self _ _, .name hp fun hk hconstant => hconstant ?_⟩
    rw [← (s.alike_ambient n).constant?]
    exact hm hk
  | .token .openParen | .token .closeParen | .token .semicolon | .token (.numeral _)
  | .token (.string _) | .token (.operator _) | .apply _ _ => trivial
  | .call name arguments =>
    refine ⟨fun k x hx => ?_, fun k hk keyword e he => ?_, fun hn htrims => ?_⟩
    · have hask := h k x
      cases k with
      | number => exact fun q hq => .of_argument hp hx (hask q hq)
      | text => exact fun q hq => .of_argument hp hx (hask q hq)
    · exact ⟨kind, t, .self _ _, .range hp hk he⟩
    · exact ⟨kind, t, .self _ _, .call hp hn htrims⟩

/-- Every question of an evaluation is raised in the formula. -/
theorem mayAsk_of_mem_trace {kind : ValueKind} {formula : Text} {q : Callback}
    (h : q ∈ (s.eval kind formula).trace) : s.MayAsk kind (normalize formula) q :=
  holds_eval (s := s) (K := fun k t => .asking (s.MayAsk k t)) (fun _ _ _ _ _ hq => nomatch hq)
    (fun _ _ _ => pieces_ask) kind formula q h

end Surroundings

end FormulaEngine
