import FormulaEngine.Proofs.Formulas
import FormulaEngine.Proofs.Runs
import FormulaEngine.Proofs.Unfolding

/-! # Only derivable formulas have values

A formula that has a value is read without an error up to its end, the grammar derives it in exactly
one way, and the value is that of the last expression of the derivation, after the ones before it
have been evaluated in order. -/

namespace FormulaEngine

/-- What the lexer reads is determined by where it stands. -/
theorem Lexer.Reads.unique {kind : ValueKind} {l : Lexer} {ps ps' : List Piece}
    (h : l.Reads kind ps) (h' : l.Reads kind ps') : ps = ps' := by
  induction h generalizing ps' with
  | finish hn =>
    cases h' with
    | finish => rfl
    | token hn' | call hn' | apply hn' => cases hn.symm.trans hn'
  | token hn hopen _ ih =>
    cases h' with
    | finish hn' => cases hn.symm.trans hn'
    | token hn' _ h' =>
      cases hn.symm.trans hn'
      rw [ih h']
    | call hn' ho' | apply hn' ho' =>
      cases hn.symm.trans hn'
      exact absurd ho' (hopen _ rfl _)
  | call hn ho hf ha _ ih =>
    cases h' with
    | finish hn' => cases hn.symm.trans hn'
    | token hn' hopen' =>
      cases hn.symm.trans hn'
      exact absurd ho (hopen' _ rfl _)
    | call hn' ho' hf' ha' h' =>
      cases hn.symm.trans hn'
      cases ho.symm.trans ho'
      cases ha.symm.trans ha'
      rw [ih h']
    | apply hn' ho' hf' =>
      cases hn.symm.trans hn'
      cases hf.symm.trans hf'
  | apply hn ho hf _ ih =>
    cases h' with
    | finish hn' => cases hn.symm.trans hn'
    | token hn' hopen' =>
      cases hn.symm.trans hn'
      exact absurd ho (hopen' _ rfl _)
    | call hn' ho' hf' =>
      cases hn.symm.trans hn'
      cases hf.symm.trans hf'
    | apply hn' ho' hf' h' =>
      cases hn.symm.trans hn'
      cases ho.symm.trans ho'
      cases hf.symm.trans hf'
      rw [ih h']

namespace Segments

variable {ε δ α : Type}

/-- The run evaluates the expressions one after the other, each with a value, and its own value is
that of the last. -/
structure Evaluates (value : δ → Run α) (d : Segments δ) (r : Run α) (v : α) : Prop where
  earlier : ∀ e ∈ d.earlier, ∃ w, (value e).result = .ok w
  final : (value d.final).result = .ok v
  trace : r.trace = d.earlier.flatMap (fun e => (value e).trace) ++ (value d.final).trace

/-- The expression that is evaluated first. -/
def first : Segments δ → δ
  | last d => d
  | next d _ => d

theorem exists_pieces_first (f : δ → List Piece) (d : Segments δ) :
    ∃ ps, d.pieces f = f d.first ++ ps := by
  cases d with
  | last d => exact ⟨[], (List.append_nil _).symm⟩
  | next d rest => exact ⟨_, rfl⟩

theorem Evaluates.first {value : δ → Run α} {d : Segments δ} {r : Run α} {v : α}
    (h : d.Evaluates value r v) : ∃ w, (value d.first).result = .ok w := by
  cases d with
  | last d => exact ⟨v, h.final⟩
  | next d rest => exact h.earlier d (by simp [Segments.earlier])

/-- A program of a derivation that has a value has evaluated the derivation. -/
theorem evaluates_program {value : ε → Run α} {expr : δ → ε} {d : Segments δ} {v : α}
    (h : ((d.program expr).eval value).result = .ok v) :
    d.Evaluates (fun e => value (expr e)) ((d.program expr).eval value) v := by
  have steps : ∀ es : List δ,
      (Program.eval.go value (d.program expr) (es.map expr)).result = .ok v →
        (∀ e ∈ es, ∃ w, (value (expr e)).result = .ok w) ∧
          (value (expr d.final)).result = .ok v ∧
          (Program.eval.go value (d.program expr) (es.map expr)).trace =
            es.flatMap (fun e => (value (expr e)).trace) ++ (value (expr d.final)).trace := by
    intro es
    induction es with
    | nil => exact fun h => ⟨fun e he => (nomatch he), h, rfl⟩
    | cons e es ih =>
      intro h
      rw [List.map_cons, Program.eval.go] at h ⊢
      obtain ⟨w, hw, hrest, hbind⟩ := Run.exists_of_bind h
      obtain ⟨hes, hfinal, htrace⟩ := ih hrest
      refine ⟨List.forall_mem_cons.mpr ⟨⟨w, hw⟩, hes⟩, hfinal, ?_⟩
      rw [hbind, htrace, List.flatMap_cons, List.append_assoc]
  obtain ⟨hearlier, hfinal, htrace⟩ := steps d.earlier h
  exact ⟨hearlier, hfinal, htrace⟩

end Segments

/-- A program that has a value ends in an expression. -/
theorem Program.exists_ending {ε α : Type} {value : ε → Run α} {p : Program ε} {v : α}
    (h : (p.eval value).result = .ok v) : ∃ e, p.ending = .ok e := by
  have steps : ∀ es : List ε, (eval.go value p es).result = .ok v → ∃ e, p.ending = .ok e := by
    intro es
    induction es with
    | nil =>
      intro h
      rw [eval.go] at h
      split at h
      · rename_i e he
        exact ⟨e, he⟩
      · cases h
    | cons e es ih =>
      intro h
      rw [eval.go] at h
      obtain ⟨w, _, hrest, _⟩ := Run.exists_of_bind h
      exact ih hrest
  exact steps p.steps h

/-- The value of a derivation is that of the expression that it derives. -/
def NumericPhrase.value {l : Level} (s : Surroundings) (d : NumericPhrase l) : Run Float :=
  d.expr.eval s.ambient

@[inherit_doc NumericPhrase.value]
def TextPhrase.value (s : Surroundings) (d : TextPhrase) : Run Text := d.expr.eval s.ambient

theorem NumericPhrase.segments_unique {d d' : Segments (NumericPhrase (.chain .bitwise))}
    (h : d.pieces pieces = d'.pieces pieces) : d = d' :=
  Segments.unique (E := (Level.chain .bitwise).Ends) trivial (fun _ => trivial)
    (fun d d' _ _ h hps hps' => d.unique d' h hps hps') h

theorem TextPhrase.segments_unique {d d' : Segments TextPhrase}
    (h : d.pieces pieces = d'.pieces pieces) : d = d' :=
  Segments.unique (E := (Level.chain .additive).Ends) trivial (fun _ => trivial)
    (fun d d' _ _ h hps hps' => d.unique d' h hps hps') h

namespace Surroundings

variable (s : Surroundings) (formula : Text)

variable {s formula} in
theorem evalNumber_of_starts {d : Segments (NumericPhrase (.chain .bitwise))} {q : Nat}
    (h : Lexemes.Starts (Lexemes.ofText .number (normalize formula))
      (d.pieces NumericPhrase.pieces) (.finish q)) :
    s.evalNumber formula = (d.program NumericPhrase.expr).eval (·.eval s.ambient) := by
  rw [evalNumber_eq, NumericExpr.complete_parse h]

variable {s formula} in
theorem evalText_of_starts {d : Segments TextPhrase} {q : Nat}
    (h : Lexemes.Starts (Lexemes.ofText .text (normalize formula))
      (d.pieces TextPhrase.pieces) (.finish q)) :
    s.evalText formula = (d.program TextPhrase.expr).eval (·.eval s.ambient) := by
  rw [evalText_eq, TextExpr.complete_parse h]

theorem numeric_derived {v : Float} (h : (s.evalNumber formula).result = .ok v) :
    ∃ d : Segments (NumericPhrase (.chain .bitwise)),
      (Lexer.ofText (normalize formula)).Reads .number (d.pieces NumericPhrase.pieces) ∧
        d.Evaluates (NumericPhrase.value s) (s.evalNumber formula) v := by
  rw [evalNumber_eq] at h ⊢
  obtain ⟨e, he⟩ := Program.exists_ending h
  obtain ⟨d, q, hd, hp⟩ := NumericExpr.sound_parse he
  rw [hp] at h ⊢
  exact ⟨d, Lexemes.reads_of_starts hd rfl, Segments.evaluates_program h⟩

theorem text_derived {v : Text} (h : (s.evalText formula).result = .ok v) :
    ∃ d : Segments TextPhrase,
      (Lexer.ofText (normalize formula)).Reads .text (d.pieces TextPhrase.pieces) ∧
        d.Evaluates (TextPhrase.value s) (s.evalText formula) v := by
  rw [evalText_eq] at h ⊢
  obtain ⟨e, he⟩ := Program.exists_ending h
  obtain ⟨d, q, hd, hp⟩ := TextExpr.sound_parse he
  rw [hp] at h ⊢
  exact ⟨d, Lexemes.reads_of_starts hd rfl, Segments.evaluates_program h⟩

/-- Whatever has a value is a formula of the grammar: its text is read without an error up to its
end, there is one derivation of what was read, and the value is the one of the derivation. -/
theorem derivable_of_value :
    (∀ v, (s.evalNumber formula).result = .ok v →
      ∃ d : Segments (NumericPhrase (.chain .bitwise)),
        (Lexer.ofText (normalize formula)).Reads .number (d.pieces NumericPhrase.pieces) ∧
          (∀ d' : Segments (NumericPhrase (.chain .bitwise)),
            (Lexer.ofText (normalize formula)).Reads .number (d'.pieces NumericPhrase.pieces) →
              d' = d) ∧
          d.Evaluates (NumericPhrase.value s) (s.evalNumber formula) v) ∧
      ∀ v, (s.evalText formula).result = .ok v →
        ∃ d : Segments TextPhrase,
          (Lexer.ofText (normalize formula)).Reads .text (d.pieces TextPhrase.pieces) ∧
            (∀ d' : Segments TextPhrase,
              (Lexer.ofText (normalize formula)).Reads .text (d'.pieces TextPhrase.pieces) →
                d' = d) ∧
            d.Evaluates (TextPhrase.value s) (s.evalText formula) v := by
  refine ⟨fun v h => ?_, fun v h => ?_⟩
  · obtain ⟨d, hd, hv⟩ := s.numeric_derived formula h
    exact ⟨d, hd, fun d' hd' => NumericPhrase.segments_unique (hd'.unique hd), hv⟩
  · obtain ⟨d, hd, hv⟩ := s.text_derived formula h
    exact ⟨d, hd, fun d' hd' => TextPhrase.segments_unique (hd'.unique hd), hv⟩

open Lexemes in
theorem derivable_of_value_segments :
    (∃ d : Segments (NumericPhrase (.chain .bitwise)),
      (Lexer.ofText "1;2".toList).Reads .number (d.pieces NumericPhrase.pieces) ∧
        d.Evaluates (NumericPhrase.value (initial {})) ((initial {}).evalNumber "1;2".toList)
          (Float.ofNat 2)) ∧
      ∃ d : Segments TextPhrase,
        (Lexer.ofText "'a';'b'".toList).Reads .text (d.pieces TextPhrase.pieces) ∧
          d.Evaluates (TextPhrase.value (initial {})) ((initial {}).evalText "'a';'b'".toList)
            "b".toList := by
  have hnumber : ((initial {}).evalNumber "1;2".toList).result = .ok (Float.ofNat 2) := by
    have hread : ofText .number (normalize "1;2".toList) =
        .token 0 (.numeral (.whole 1)) (.token 1 .semicolon
          (.token 2 (.numeral (.whole 2)) (.finish 3))) := by
      rw [ofText, show normalize "1;2".toList = "1;2".toList by decide,
        read_token (w := 1) (k := .numeral (.whole 1)) (by rfl) (fun _ hk => by cases hk),
        read_token (w := 1) (k := .semicolon) (by rfl) (fun _ hk => by cases hk),
        read_token (w := 1) (k := .numeral (.whole 2)) (by rfl) (fun _ hk => by cases hk),
        read_finish (w := 0) (by rfl)]
      rfl
    have literal (n : Nat) := (NumericPhrase.literal (.whole n)).exists_lift (.chain .bitwise)
      (by decide)
    obtain ⟨d, hd, he⟩ := literal 1
    obtain ⟨d', hd', he'⟩ := literal 2
    have hs : Starts (ofText .number (normalize "1;2".toList))
        ((Segments.next d (.last d')).pieces NumericPhrase.pieces) (.finish 3) := by
      rw [hread, Segments.pieces, Segments.pieces, hd, hd']
      exact .token (.token (.token .nil))
    rw [evalNumber_of_starts hs, Segments.program, Segments.earlier, Segments.earlier,
      Segments.final, Segments.final, List.map_cons, he, he']
    rfl
  have htext : ((initial {}).evalText "'a';'b'".toList).result = .ok "b".toList := by
    have hread : ofText .text (normalize "'a';'b'".toList) =
        .token 0 (.string "a".toList) (.token 3 .semicolon
          (.token 4 (.string "b".toList) (.finish 7))) := by
      rw [ofText, show normalize "'a';'b'".toList = "'a';'b'".toList by decide,
        read_token (w := 3) (k := .string "a".toList) (by rfl) (fun _ hk => by cases hk),
        read_token (w := 1) (k := .semicolon) (by rfl) (fun _ hk => by cases hk),
        read_token (w := 3) (k := .string "b".toList) (by rfl) (fun _ hk => by cases hk),
        read_finish (w := 0) (by rfl)]
      rfl
    rw [evalText_of_starts (d := .next (.chain (.literal "a".toList) .stop)
      (.last (.chain (.literal "b".toList) .stop))) (q := 7)]
    · rfl
    · rw [hread]
      exact .token (.token (.token .nil))
  obtain ⟨d, hd, _, hv⟩ := ((initial {}).derivable_of_value "1;2".toList).1 _ hnumber
  obtain ⟨d', hd', _, hv'⟩ := ((initial {}).derivable_of_value "'a';'b'".toList).2 _ htext
  exact ⟨⟨d, hd, hv⟩, d', hd', hv'⟩

end Surroundings

end FormulaEngine
