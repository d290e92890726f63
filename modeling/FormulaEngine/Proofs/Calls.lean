import FormulaEngine.Proofs.Derivability
import FormulaEngine.Proofs.Printing

/-! # Printed formulas

A formula that spells a derivation has the value of the derivation. So a formula that is nothing but
a call has the value of the call. -/

namespace FormulaEngine

variable {name : Text} {ts : List Text}

namespace Surroundings

open Lexemes (Spells)

variable (s : Surroundings) {t : Text}

theorem evalNumber_of_spells (ht : normalize t = t) {d : Segments (NumericPhrase (.chain .bitwise))}
    (hd : Spells .number t (d.pieces NumericPhrase.pieces)) :
    s.evalNumber t = (d.program NumericPhrase.expr).eval (·.eval s.ambient) := by
  obtain ⟨q, hq⟩ := hd.exists_finish ht
  exact evalNumber_of_starts hq

theorem evalText_of_spells (ht : normalize t = t) {d : Segments TextPhrase}
    (hd : Spells .text t (d.pieces TextPhrase.pieces)) :
    s.evalText t = (d.program TextPhrase.expr).eval (·.eval s.ambient) := by
  obtain ⟨q, hq⟩ := hd.exists_finish ht
  exact evalText_of_starts hq

variable {s} in
theorem evalNumber_of_call {q : Nat}
    (h : Lexemes.Starts (Lexemes.ofText .number (normalize t)) [.call name ts] (.finish q)) :
    s.evalNumber t = NumericExpr.callFunction s.ambient name ts := by
  obtain ⟨d, hd, he⟩ := (NumericPhrase.call name ts).exists_lift (.chain .bitwise) (by decide)
  have hpieces : (Segments.last d).pieces NumericPhrase.pieces = [.call name ts] := hd
  rw [← hpieces] at h
  rw [evalNumber_of_starts h, Segments.program, Segments.final, he]
  rfl

variable {s} in
theorem evalText_of_call {q : Nat}
    (h : Lexemes.Starts (Lexemes.ofText .text (normalize t)) [.call name ts] (.finish q)) :
    s.evalText t = TextExpr.callFunction s.ambient name ts :=
  evalText_of_starts (d := .last (.chain (.call name ts) .stop)) h

theorem evalNumber_call (hname : IsName name) (hf : Elementary.ofName? name = none)
    (hts : ∀ t ∈ ts, t.Standalone) :
    s.evalNumber (Text.call name ts) = NumericExpr.callFunction s.ambient name ts := by
  have hspells : Spells .number (Text.call name ts) [.call name ts] := .call hname hf hts
  obtain ⟨q, hq⟩ := hspells.exists_finish (Text.Standalone.call hname hts).normalize_eq
  exact evalNumber_of_call hq

theorem evalText_call (hname : IsName name) (hts : ∀ t ∈ ts, t.Standalone) :
    s.evalText (Text.call name ts) = TextExpr.callFunction s.ambient name ts := by
  have hspells : Spells .text (Text.call name ts) [.call name ts] := .call hname rfl hts
  obtain ⟨q, hq⟩ := hspells.exists_finish (Text.Standalone.call hname hts).normalize_eq
  exact evalText_of_call hq

end Surroundings

/-! ## Functions of the language -/

theorem mem_of_lookup_eq_some {α : Type} {entries : List (Text × α)} {name : Text} {a : α}
    (h : entries.lookup name = some a) : (name, a) ∈ entries := by
  obtain ⟨before, after, rfl, _⟩ := List.lookup_eq_some_iff.mp h
  exact List.mem_append_right _ List.mem_cons_self

namespace Intrinsic

/-- Numeric calls of this name run this function of the language. -/
structure Calls (name : Text) (body : Body Text Float) : Prop where
  isName : IsName name
  not_elementary : Elementary.ofName? name = none
  lookup_eq : numericTable.lookup (Text.foldCase name) = some body

/-- Text calls of this name run this function of the language. -/
structure CallsText (name : Text) (body : Body Text Text) : Prop where
  isName : IsName name
  lookup_eq : textTable.lookup (Text.foldCase name) = some body

theorem call_of_lookup {α : Type} {table : List (Text × Body Text α)} {sort : Text}
    {c : Context Text} {body : Body Text α} {r : Run α}
    (h : table.lookup (Text.foldCase name) = some body) (hr : body.run? c ts = some r) :
    call table sort c name ts = r.blamedOn name := by
  rw [call, h]
  dsimp only
  rw [hr]

theorem isIntrinsic_of_lookup {body : Body Text Float}
    (h : numericTable.lookup (Text.foldCase name) = some body) : isIntrinsic name = true := by
  have hmem : Text.foldCase name ∈ numericNames :=
    List.mem_map_of_mem (f := Prod.fst) (mem_of_lookup_eq_some h)
  simp [isIntrinsic, hmem]

theorem isIntrinsic_of_lookupText {body : Body Text Text}
    (h : textTable.lookup (Text.foldCase name) = some body) : isIntrinsic name = true := by
  have hmem : Text.foldCase name ∈ textNames :=
    List.mem_map_of_mem (f := Prod.fst) (mem_of_lookup_eq_some h)
  simp [isIntrinsic, hmem]

end Intrinsic

theorem NumericExpr.callFunction_of_lookup {body : Body Text Float} {c : Context Text}
    {r : Run Float} (h : Intrinsic.numericTable.lookup (Text.foldCase name) = some body)
    (hr : body.run? c ts = some r) : callFunction c name ts = r.blamedOn name := by
  rw [callFunction, if_pos (Intrinsic.isIntrinsic_of_lookup h), Intrinsic.callNumeric,
    Intrinsic.call_of_lookup h hr]

theorem TextExpr.callFunction_of_lookup {body : Body Text Text} {c : Context Text} {r : Run Text}
    (h : Intrinsic.textTable.lookup (Text.foldCase name) = some body)
    (hr : body.run? c ts = some r) : callFunction c name ts = r.blamedOn name := by
  unfold callFunction
  rw [if_pos (Intrinsic.isIntrinsic_of_lookupText h), Intrinsic.callText,
    Intrinsic.call_of_lookup h hr]

theorem Intrinsic.Calls.callFunction_eq {body : Body Text Float} (h : Calls name body)
    {c : Context Text} {r : Run Float} (hr : body.run? c ts = some r) :
    NumericExpr.callFunction c name ts = r.blamedOn name :=
  NumericExpr.callFunction_of_lookup h.lookup_eq hr

theorem Intrinsic.CallsText.callFunction_eq {body : Body Text Text} (h : CallsText name body)
    {c : Context Text} {r : Run Text} (hr : body.run? c ts = some r) :
    TextExpr.callFunction c name ts = r.blamedOn name :=
  TextExpr.callFunction_of_lookup h.lookup_eq hr

theorem Surroundings.evalNumber_of_calls {s : Surroundings} {body : Body Text Float}
    (h : Intrinsic.Calls name body) (hts : ∀ t ∈ ts, t.Standalone) {r : Run Float}
    (hr : body.run? s.ambient ts = some r) :
    s.evalNumber (Text.call name ts) = r.blamedOn name := by
  rw [s.evalNumber_call h.isName h.not_elementary hts, h.callFunction_eq hr]

/-- The value of a function is the value of a call of it. -/
theorem Surroundings.result_of_calls {s : Surroundings} {body : Body Text Float}
    (h : Intrinsic.Calls name body) (hts : ∀ t ∈ ts, t.Standalone) {r : Run Float} {v : Float}
    (hr : body.run? s.ambient ts = some r) (hv : r.result = .ok v) :
    (s.evalNumber (Text.call name ts)).result = .ok v := by
  rw [evalNumber_of_calls h hts hr]
  exact Run.result_blamedOn_eq_ok.mpr hv

theorem Surroundings.evalText_of_calls {s : Surroundings} {body : Body Text Text}
    (h : Intrinsic.CallsText name body) (hts : ∀ t ∈ ts, t.Standalone) {r : Run Text}
    (hr : body.run? s.ambient ts = some r) :
    s.evalText (Text.call name ts) = r.blamedOn name := by
  rw [s.evalText_call h.isName hts, h.callFunction_eq hr]

@[inherit_doc Surroundings.result_of_calls]
theorem Surroundings.resultText_of_calls {s : Surroundings} {body : Body Text Text}
    (h : Intrinsic.CallsText name body) (hts : ∀ t ∈ ts, t.Standalone) {r : Run Text} {t : Text}
    (hr : body.run? s.ambient ts = some r) (ht : r.result = .ok t) :
    (s.evalText (Text.call name ts)).result = .ok t := by
  rw [evalText_of_calls h hts hr]
  exact Run.result_blamedOn_eq_ok.mpr ht

namespace Surroundings

variable {s : Surroundings} {x y : Text} {α β : Type} {r : Run α} {r' : Run β} {a : α} {b : β}

/-- A function that makes something of the values of its two arguments. -/
theorem result_of_two {f : Context Text → Text → Text → Run Float} {g : α → β → Float}
    (h : Intrinsic.Calls name (.two f)) (hx : x.Standalone) (hy : y.Standalone)
    (hf : f s.ambient x y = do return g (← r) (← r')) (ha : r.result = .ok a)
    (hb : r'.result = .ok b) : (s.evalNumber (Text.call name [x, y])).result = .ok (g a b) :=
  result_of_calls h (by simp [hx, hy]) rfl (hf ▸ Run.result_map₂ ha hb g)

@[inherit_doc result_of_two]
theorem resultText_of_two {f : Context Text → Text → Text → Run Text} {g : α → β → Text}
    (h : Intrinsic.CallsText name (.two f)) (hx : x.Standalone) (hy : y.Standalone)
    (hf : f s.ambient x y = do return g (← r) (← r')) (ha : r.result = .ok a)
    (hb : r'.result = .ok b) : (s.evalText (Text.call name [x, y])).result = .ok (g a b) :=
  resultText_of_calls h (by simp [hx, hy]) rfl (hf ▸ Run.result_map₂ ha hb g)

end Surroundings

end FormulaEngine
