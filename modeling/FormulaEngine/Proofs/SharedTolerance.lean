import FormulaEngine.Process

/-! # The shared tolerance is fixed by the first request that touches it

A request touches the shared tolerance when it chooses it or when it has no precision of its own to
go by. In every sequence of requests to a process that has not settled on a tolerance yet, the first
such request decides: a choice for its decimals, anything else for five. From then on nothing moves
it, and until then nothing looks at it. Threads that race for the first request are not considered;
the requests come one after the other. -/

namespace FormulaEngine

/-- The value of a formula in an application, when comparisons look at so many decimals. -/
def Application.value (a : Application) (decimals : UInt32) (kind : ValueKind) (formula : Text) :
    Run Value :=
  ({ now := a.now, tolerance := ⟨decimals⟩, firstDay := a.config.firstDay, host := a.host } :
    Surroundings).eval kind formula

/-- The request chooses the shared tolerance or reads it. An evaluation reads it unless the
application has a precision. -/
def Request.touches : Request → Bool
  | .choose _ | .read => true
  | .resolve precision => precision.isNone
  | .evaluate a _ _ => a.config.precision.isNone

namespace SharedTolerance

/-- The decimals that requests settle on: those of the choice that comes before everything else that
touches the shared tolerance, and five when that is not a choice. -/
def settled (requests : List Request) : UInt32 :=
  match requests.find? (·.touches) with
  | some (.choose decimals) => decimals
  | _ => 5

/-- The shared tolerance after requests to a process that began without one. -/
def after (requests : List Request) : SharedTolerance :=
  if requests.any (·.touches) then some ⟨settled requests⟩ else none

variable {earlier : List Request} {q : Request}

theorem settled_append_of_touched (h : earlier.any (·.touches) = true) (later : List Request) :
    settled (earlier ++ later) = settled earlier := by
  obtain ⟨e, he⟩ := Option.isSome_iff_exists.mp (List.find?_isSome.mpr (List.any_eq_true.mp h))
  simp only [settled, List.find?_append, he, Option.some_or]

theorem settled_append_of_untouched (h : earlier.any (·.touches) = false)
    (later : List Request) : settled (earlier ++ later) = settled later := by
  have he : earlier.find? (·.touches) = none := by simpa using h
  simp only [settled, List.find?_append, he, Option.none_or]

theorem settled_cons (h : q.touches = true) (later : List Request) :
    settled (q :: later) = settled [q] := by
  simp only [settled, List.find?_cons_of_pos h]

theorem after_of_touched (h : earlier.any (·.touches) = true) (later : List Request) :
    after earlier = some ⟨settled (earlier ++ later)⟩ := by
  rw [settled_append_of_touched h, after, if_pos h]

theorem after_of_untouched (h : earlier.any (·.touches) = false) : after earlier = none := by
  simp [after, h]

/-! ## One request -/

/-- An evaluation that has a precision goes by it and leaves the shared tolerance alone. -/
theorem step_evaluate_some (s : SharedTolerance) {a : Application} {decimals : UInt32}
    (h : a.config.precision = some decimals) (kind : ValueKind) (formula : Text) :
    s.step (.evaluate a kind formula) = (.evaluated (a.value decimals kind formula), s) := by
  simp [step, Config.settings, resolve, h, Application.value]

/-- An evaluation without a precision reads the shared tolerance. -/
theorem step_evaluate_none (s : SharedTolerance) {a : Application}
    (h : a.config.precision = none) (kind : ValueKind) (formula : Text) :
    s.step (.evaluate a kind formula) =
      (.evaluated (a.value s.read.1.decimals kind formula), s.read.2) := by
  simp [step, Config.settings, resolve, h, Application.value]

/-- Requests that do not touch the shared tolerance leave it as it is. -/
theorem step_untouched (s : SharedTolerance) (h : q.touches = false) : (s.step q).2 = s := by
  cases q with
  | choose _ | read => contradiction
  | resolve precision =>
    obtain ⟨decimals, rfl⟩ := Option.isSome_iff_exists.mp (by simpa [Request.touches] using h)
    rfl
  | evaluate a kind formula =>
    obtain ⟨decimals, ha⟩ := Option.isSome_iff_exists.mp (by simpa [Request.touches] using h)
    rw [step_evaluate_some s ha]

/-- A fixed tolerance is not moved by any request. -/
theorem step_fixed (t : Tolerance) (q : Request) : (step (some t) q).2 = some t := by
  cases q with
  | choose _ | read => rfl
  | resolve precision => cases precision <;> rfl
  | evaluate a kind formula =>
    cases ha : a.config.precision with
    | none => rw [step_evaluate_none _ ha]; rfl
    | some decimals => rw [step_evaluate_some _ ha]

/-- The request that touches the open tolerance settles it. -/
theorem step_open (h : q.touches = true) : (step none q).2 = some ⟨settled [q]⟩ := by
  cases q with
  | choose _ | read => rfl
  | resolve precision =>
    obtain rfl : precision = none := by simpa [Request.touches] using h
    rfl
  | evaluate a kind formula =>
    have ha : a.config.precision = none := by simpa [Request.touches] using h
    rw [step_evaluate_none _ ha, settled, List.find?_cons_of_pos h]
    rfl

theorem step_after (earlier : List Request) (q : Request) :
    ((after earlier).step q).2 = after (earlier ++ [q]) := by
  cases h : earlier.any (·.touches) with
  | true =>
    rw [after_of_touched h [q], step_fixed, after, if_pos (by simp [h])]
  | false =>
    cases hq : q.touches with
    | true =>
      rw [after_of_untouched h, step_open hq, after, if_pos (by simp [hq]),
        settled_append_of_untouched h]
    | false =>
      rw [step_untouched _ hq, after_of_untouched h, after_of_untouched (by simp [h, hq])]

/-! ## Sequences of requests -/

theorem run_after (earlier later : List Request) :
    ((after earlier).run later).2 = after (earlier ++ later) := by
  induction later generalizing earlier with
  | nil => simp [run]
  | cons q later ih =>
    simp only [run, step_after]
    simpa using ih (earlier ++ [q])

/-- A request is answered from what the requests before it have left. -/
theorem response_run (s : SharedTolerance) (earlier : List Request) (q : Request)
    (later : List Request) :
    (s.run (earlier ++ q :: later)).1[earlier.length]? =
      some ((s.run earlier).2.step q).1 := by
  induction earlier generalizing s with
  | nil => rfl
  | cons p earlier ih => simpa [run] using ih (s.step p).2

/-- What is read after some requests is what all of them settle on, if it is they that touch the
shared tolerance first. -/
theorem read_after (earlier : List Request) (hq : q.touches = true) (hs : settled [q] = 5)
    (later : List Request) :
    (after earlier).read.1 = ⟨settled (earlier ++ q :: later)⟩ := by
  cases h : earlier.any (·.touches) with
  | true => rw [after_of_touched h (q :: later)]; rfl
  | false =>
    rw [after_of_untouched h, settled_append_of_untouched h, settled_cons hq, hs]
    rfl

/-- In every sequence of requests to a process that has not settled on a tolerance yet: a choice is
accepted exactly when nothing before it has touched the shared tolerance, and otherwise is told what
is in force and changes nothing; whatever reads the shared tolerance finds what the sequence settles
on; and a request with a precision of its own goes by that, and leaves no trace. -/
theorem response_settled (earlier : List Request) (q : Request) (later : List Request) :
    let settled := settled (earlier ++ q :: later)
    let response := (run none (earlier ++ q :: later)).1[earlier.length]?
    let unchanged := (run none (earlier ++ [q])).2 = (run none earlier).2
    match q with
    | .choose _ =>
      (response = some (.chosen (.ok ())) ↔ ∀ p ∈ earlier, p.touches = false) ∧
        (response ≠ some (.chosen (.ok ())) →
          response = some (.chosen (.error settled)) ∧ unchanged)
    | .read | .resolve none => response = some (.tolerance ⟨settled⟩)
    | .resolve (some decimals) => response = some (.tolerance ⟨decimals⟩) ∧ unchanged
    | .evaluate a kind formula =>
      match a.config.precision with
      | none => response = some (.evaluated (a.value settled kind formula))
      | some decimals =>
        response = some (.evaluated (a.value decimals kind formula)) ∧ unchanged := by
  have hr : (run none earlier).2 = after earlier := run_after [] earlier
  have hq : (run none (earlier ++ [q])).2 = after (earlier ++ [q]) := run_after [] _
  simp only [response_run, hr, hq, ← step_after]
  match q with
  | .choose decimals =>
    cases h : earlier.any (·.touches) with
    | true =>
      obtain ⟨p, hp, ht⟩ := List.any_eq_true.mp h
      rw [after_of_touched h (.choose decimals :: later)]
      refine ⟨iff_of_false (by simp [step, choose]) fun hn => ?_, fun _ => ⟨rfl, rfl⟩⟩
      exact absurd ht (by simp [hn p hp])
    | false =>
      rw [after_of_untouched h]
      exact ⟨iff_of_true rfl (by simpa using h), fun hn => absurd rfl hn⟩
  | .read =>
    exact congrArg (some ∘ Response.tolerance) (read_after earlier rfl rfl later)
  | .resolve none =>
    exact congrArg (some ∘ Response.tolerance) (read_after earlier rfl rfl later)
  | .resolve (some decimals) => exact ⟨rfl, rfl⟩
  | .evaluate a kind formula =>
    cases ha : a.config.precision with
    | none =>
      have ht : (Request.evaluate a kind formula).touches = true := by simp [Request.touches, ha]
      have hs : settled [.evaluate a kind formula] = 5 := by rw [settled, List.find?_cons_of_pos ht]
      simp only [ha, step_evaluate_none _ ha, read_after earlier ht hs later]
    | some decimals =>
      simp only [ha, step_evaluate_some _ ha, and_self]

/-- A choice that comes after another one is told the decimals of the first. -/
theorem response_choose_twice :
    (run none [.resolve (some 2), .choose 3, .choose 7, .read]).1[2]? =
      some (.chosen (.error 3)) :=
  have h := response_settled [.resolve (some 2), .choose 3] (.choose 7) [.read]
  (h.2 fun hn => absurd (h.1.mp hn (.choose 3) (by simp)) (by simp [Request.touches])).1

end SharedTolerance

end FormulaEngine
