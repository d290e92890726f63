import FormulaEngine.Proofs.Unfolding

/-! # A refusal ends an evaluation

A host may refuse any question. Whatever call or argument the question comes from, nothing is asked
after it, and the evaluation ends in the error about the subject of the question. No function in
between puts its own name in. -/

namespace FormulaEngine

/-- The run goes on as long as the host answers: it stops at the first refusal, with its error. -/
inductive Run.Heeds (h : Host) {α : Type} (r : Run α) : Prop
  | answered : (∀ q ∈ r.trace, h.refuses q = false) → r.Heeds h
  | refused {before : List Callback} {q : Callback} : (∀ p ∈ before, h.refuses p = false) →
      h.refuses q = true → r.trace = before ++ [q] → r.result = .error q.refusal → r.Heeds h

namespace Run.Heeds

variable {h : Host} {α β : Type}

theorem ask {q : Callback} {answer : Option α} (hq : answer.isNone = h.refuses q) :
    (Run.ask q answer).Heeds h := by
  cases answer with
  | some a => exact .answered (List.forall_mem_singleton.mpr hq.symm)
  | none => exact .refused (List.forall_mem_nil _) hq.symm (List.nil_append [q]).symm rfl

theorem bind {r : Run α} {f : α → Run β} (hr : r.Heeds h) (hf : ∀ a, (f a).Heeds h) :
    (r >>= f).Heeds h := by
  cases hr with
  | answered hr =>
    cases hresult : r.result with
    | error e =>
      rw [bind_of_error hresult]
      exact .answered hr
    | ok a =>
      rw [bind_of_ok hresult]
      cases hf a with
      | answered hfa => exact .answered (List.forall_mem_append.mpr ⟨hr, hfa⟩)
      | refused hbefore hq htrace he =>
        refine .refused (List.forall_mem_append.mpr ⟨hr, hbefore⟩) hq ?_ he
        rw [htrace, List.append_assoc]
  | refused hbefore hq htrace he =>
    rw [bind_of_error he]
    exact .refused hbefore hq htrace rfl

/-- A refusal is blamed on its subject already. -/
theorem blamedOn {r : Run α} (hr : r.Heeds h) (name : Text) : (r.blamedOn name).Heeds h := by
  cases hr with
  | answered hr => exact .answered hr
  | @refused before q hbefore hq htrace he =>
    refine .refused hbefore hq htrace ?_
    rw [Run.blamedOn, he]
    exact congrArg _ (FormulaError.blamedOn_of_some (function?_refusal q) name)

/-- Nothing is asked after a refusal. -/
theorem of_trace_eq {r : Run α} (hr : r.Heeds h) {before after : List Callback} {q : Callback}
    (htrace : r.trace = before ++ q :: after) (hq : h.refuses q = true) :
    after = [] ∧ r.result = .error q.refusal := by
  cases hr with
  | answered hr =>
    have hanswered := hr q (by simp [htrace])
    rw [hq] at hanswered
    cases hanswered
  | @refused before' q' hbefore hq' htrace' he =>
    rw [htrace] at htrace'
    obtain rfl | ⟨init, last, rfl⟩ := after.eq_nil_or_concat'
    · obtain ⟨_, hlast⟩ := List.append_inj' htrace' rfl
      cases hlast
      exact ⟨rfl, he⟩
    · -- the question would stand in front of the last one, where all are answered
      have hinit : before ++ q :: init = before' := by
        have hsplit : (before ++ q :: init) ++ [last] = before' ++ [q'] := by simpa using htrace'
        exact (List.append_inj' hsplit rfl).1
      have hanswered := hbefore q (by simp [← hinit])
      rw [hq] at hanswered
      cases hanswered

theorem answered_of_ok {r : Run α} (hr : r.Heeds h) {a : α} (ha : r.result = .ok a) :
    ∀ q ∈ r.trace, h.refuses q = false := by
  cases hr with
  | answered hr => exact hr
  | refused _ _ _ he =>
    rw [ha] at he
    cases he

end Run.Heeds

/-- Runs that heed the refusals of a host. -/
def Run.Relation.heeding (h : Host) : Run.Relation where
  Holds r _ := r.Heeds h
  Allows q refused := refused = h.refuses q
  ask _ hq := .ask hq
  ofExcept _ := .answered fun _ hq => nomatch hq
  bind := .bind
  blamedOn name h := h.blamedOn name

namespace Surroundings

variable (s : Surroundings)

theorem pieces_heed (n : Nat) (kind : ValueKind) (t : Text)
    (h : ∀ k x, Intrinsic.Read (.heeding s.host) (s.context n) (s.context n) k x x) :
    (Lexemes.ofText kind t).All
      (PieceRelated (.heeding s.host) (s.context n) (s.context n) kind) := by
  have hhost : (s.context n).host = s.host := (s.alike_ambient n).host
  refine Lexemes.all_iff.mpr fun p _ => ?_
  match p with
  | .token (.name m) => exact fun _ => congrArg (Host.refuses · _) hhost
  | .token .openParen | .token .closeParen | .token .semicolon | .token (.numeral _)
  | .token (.string _) | .token (.operator _) | .apply _ _ => trivial
  | .call name arguments =>
    exact ⟨fun k x _ => h k x, fun _ _ _ _ _ => congrArg (Host.refuses · _) hhost,
      fun _ _ => congrArg (Host.refuses · _) hhost⟩

theorem heeds_eval (kind : ValueKind) (formula : Text) : (s.eval kind formula).Heeds s.host :=
  holds_eval (s := s) (K := fun _ _ => .heeding s.host)
    (fun _ _ _ _ => .answered fun _ hq => nomatch hq) s.pieces_heed kind formula

/-- A question that is refused is the last one of the evaluation, which ends in a function error
about exactly what was asked; so a formula with a value had all its questions answered. -/
theorem refusal_ends_eval (kind : ValueKind) (formula : Text) :
    (∀ before q after, (s.eval kind formula).trace = before ++ q :: after →
      s.host.refuses q = true →
      after = [] ∧ ∃ e, (s.eval kind formula).result = .error e ∧ e.kind = .functionFailure ∧
        e.function? = some q.subject) ∧
    ∀ v, (s.eval kind formula).result = .ok v →
      ∀ q ∈ (s.eval kind formula).trace, s.host.refuses q = false := by
  have hheeds := s.heeds_eval kind formula
  refine ⟨fun before q after htrace hq => ?_, fun v hv => hheeds.answered_of_ok hv⟩
  obtain ⟨hafter, he⟩ := hheeds.of_trace_eq htrace hq
  exact ⟨hafter, q.refusal, he, rfl, Run.function?_refusal q⟩

theorem refusal_ends_eval_nested :
    (∃ e, ((initial {}).eval .text "left(f(a, b), 2)".toList).result = .error e ∧
      e.kind = .functionFailure ∧ e.function? = some "f".toList) ∧
    ∀ q ∈ ((initial { text := some }).eval .text "left(a + b, 1)".toList).trace,
      (initial { text := some }).host.refuses q = false := by
  let q : Callback := .textCall "f".toList ["a".toList, "b".toList]
  have hasked : ((initial {}).evalText "left(f(a, b), 2)".toList).trace = [q] := by
    decide +kernel
  have hrefused : ((initial {}).evalText "left(f(a, b), 2)".toList).result =
      .error q.refusal := by decide +kernel
  have hanswered : ((initial { text := some }).evalText "left(a + b, 1)".toList).result =
      .ok "a".toList := by decide +kernel
  have heval := Run.bind_of_error hrefused fun t => (return Value.text t : Run Value)
  have heval' := Run.bind_of_ok hanswered fun t => (return Value.text t : Run Value)
  refine ⟨(((initial {}).refusal_ends_eval .text _).1 [] q [] ?_ rfl).2,
    ((initial _).refusal_ends_eval .text _).2 (.text "a".toList) ?_⟩
  · exact (congrArg Run.trace heval).trans hasked
  · exact congrArg Run.result heval'

end Surroundings

end FormulaEngine
