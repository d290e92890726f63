import FormulaEngine.Intrinsic.Body
import Mathlib.Data.List.Forall2

/-! # Runs that end in a value

Every part of a run with a value has a value, and a run without questions is its value. -/

namespace FormulaEngine.Run

variable {α β : Type}

/-- Errors are mapped to errors, so a value that is left has been there before. -/
theorem eq_ok_of_mapError {δ : Type} {g : FormulaError → δ} {r : Except FormulaError α} {a : α}
    (h : .ok a = r.mapError g) : r = .ok a := by
  cases r with
  | ok b =>
    cases h
    rfl
  | error e => cases h

theorem exists_of_mapError {δ : Type} {g : FormulaError → δ} {r : Except FormulaError α} {d : δ}
    (h : .error d = r.mapError g) : ∃ e, r = .error e ∧ d = g e := by
  cases r with
  | ok b => cases h
  | error e => exact ⟨e, rfl, Except.error.inj h⟩

/-- A value comes from a value of the first part. -/
theorem exists_of_bind {r : Run α} {f : α → Run β} {b : β} (h : (r >>= f).result = .ok b) :
    ∃ a, r.result = .ok a ∧ (f a).result = .ok b ∧ (r >>= f).trace = r.trace ++ (f a).trace := by
  cases hr : r.result with
  | error e =>
    rw [bind_of_error hr] at h
    cases h
  | ok a =>
    rw [bind_of_ok hr] at h ⊢
    exact ⟨a, rfl, h, rfl⟩

theorem bind_bind {γ : Type} (r : Run α) (f : α → Run β) (g : β → Run γ) :
    r >>= f >>= g = r >>= fun a => f a >>= g := by
  cases hr : r.result with
  | error e => rw [bind_of_error hr, bind_of_error hr, bind_of_error rfl]
  | ok a =>
    rw [bind_of_ok hr, bind_of_ok hr]
    cases hf : (f a).result with
    | error e => rw [bind_of_error hf, bind_of_error rfl]
    | ok b => rw [bind_of_ok hf, bind_of_ok rfl, List.append_assoc]

theorem return_bind (a : α) (f : α → Run β) : (return a) >>= f = f a := rfl

theorem result_bind_of_ok {r : Run α} {a : α} (h : r.result = .ok a) (f : α → Run β) :
    (r >>= f).result = (f a).result := by
  rw [bind_of_ok h]

/-- Two values are read, one after the other, and something is made of them. -/
theorem result_map₂ {γ : Type} {r : Run α} {r' : Run β} {a : α} {b : β} (h : r.result = .ok a)
    (h' : r'.result = .ok b) (g : α → β → γ) :
    (do return g (← r) (← r')).result = .ok (g a b) := by
  rw [result_bind_of_ok h, result_bind_of_ok h']
  rfl

/-- The questions have no part in the result. -/
theorem result_bind_congr {r r' : Run α} (h : r.result = r'.result) (f : α → Run β) :
    (r >>= f).result = (r' >>= f).result := by
  cases hr : r.result with
  | error e => rw [bind_of_error hr, bind_of_error (h ▸ hr)]
  | ok a => rw [bind_of_ok hr, bind_of_ok (h ▸ hr)]

/-- What has been asked stays asked. -/
theorem mem_trace_bind {r : Run α} {q : Callback} (h : q ∈ r.trace) (f : α → Run β) :
    q ∈ (r >>= f).trace := by
  cases hr : r.result with
  | error e =>
    rw [bind_of_error hr]
    exact h
  | ok a =>
    rw [bind_of_ok hr]
    exact List.mem_append_left _ h

theorem exists_of_each {f : α → Run β} {xs : List α} {bs : List β}
    (h : (each f xs).result = .ok bs) : ∀ x ∈ xs, ∃ b, (f x).result = .ok b := by
  induction xs generalizing bs with
  | nil => exact fun x hx => nomatch hx
  | cons x xs ih =>
    obtain ⟨b, hb, h, _⟩ := exists_of_bind h
    obtain ⟨cs, hcs, _⟩ := exists_of_bind h
    exact List.forall_mem_cons.mpr ⟨⟨b, hb⟩, ih hcs⟩

theorem each_of_forall₂ {f : α → Run β} {xs : List α} {bs : List β}
    (h : List.Forall₂ (fun x b => (f x).result = .ok b) xs bs) : (each f xs).result = .ok bs := by
  induction h with
  | nil => rfl
  | cons hx _ ih => rw [each, result_bind_of_ok hx, result_bind_of_ok ih]; rfl

theorem each_map_of_pure {γ : Type} {f : α → Run β} {h : γ → α} {g : γ → β} {xs : List γ}
    (hf : ∀ x ∈ xs, f (h x) = Pure.pure (g x)) : each f (xs.map h) = Pure.pure (xs.map g) := by
  induction xs with
  | nil => rfl
  | cons x xs ih =>
    obtain ⟨hx, hxs⟩ := List.forall_mem_cons.mp hf
    rw [List.map_cons, each, hx, ih hxs]
    rfl

theorem result_blamedOn (r : Run α) (name : Text) :
    (r.blamedOn name).result = r.result.mapError (·.blamedOn name) := rfl

theorem result_blamedOn_eq_ok {r : Run α} {name : Text} {a : α} :
    (r.blamedOn name).result = .ok a ↔ r.result = .ok a := by
  rw [blamedOn]
  cases r.result with
  | ok b => exact Iff.rfl
  | error e => constructor <;> intro h <;> cases h

end FormulaEngine.Run
