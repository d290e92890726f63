import FormulaEngine.Proofs.Parsing

/-! # Formulas and the grammar

A formula is a sequence of expressions. One that is parsed without an error is derived by the
grammar from its pieces, up to the end of the text, and what the grammar derives is parsed as it
says. -/

namespace FormulaEngine

open Lexemes (Starts)

/-- The program of a derivation. -/
def Segments.program {ε δ : Type} (expr : δ → ε) (d : Segments δ) : Program ε :=
  ⟨d.earlier.map expr, .ok (expr d.final)⟩

namespace Parser

variable {ε δ : Type} {pieces : δ → List Piece} {expr : δ → ε} {expression : Parser ε}

theorem sound_segments
    (he : ∀ s e s', expression s = .ok (e, s') → ∃ d, expr d = e ∧ Starts s (pieces d) s')
    {fuel : Nat} {s : Lexemes} {e : ε} (h : (segments expression fuel s).ending = .ok e) :
    ∃ (d : Segments δ) (q : Nat), Starts s (d.pieces pieces) (.finish q) ∧
      segments expression fuel s = d.program expr := by
  induction fuel generalizing s with
  | zero => cases h
  | succ fuel ih =>
    unfold segments at h ⊢
    split at h
    · cases h
    · rename_i e' q hp
      obtain ⟨d, rfl, hd⟩ := he _ _ _ hp
      exact ⟨.last d, q, hd, rfl⟩
    · rename_i e' p rest hp
      obtain ⟨d, rfl, hd⟩ := he _ _ _ hp
      obtain ⟨ds, q, hs, hprogram⟩ := ih h
      refine ⟨.next d ds, q, hd.append (.token hs), ?_⟩
      rw [hprogram]
      rfl
    · cases h

theorem complete_segments {n : Nat}
    (he : ∀ d s s', (pieces d).length ≤ n → Starts s (pieces d) s' →
      (Level.chain .bitwise).Stops s' → expression s = .ok (expr d, s'))
    {fuel : Nat} {d : Segments δ} {s : Lexemes} {q : Nat} (hn : (d.pieces pieces).length ≤ n)
    (hf : (d.pieces pieces).length < fuel) (h : Starts s (d.pieces pieces) (.finish q)) :
    segments expression fuel s = d.program expr := by
  induction d generalizing fuel s with
  | last d =>
    obtain ⟨fuel, rfl⟩ : ∃ m, fuel = m + 1 := ⟨fuel - 1, by omega⟩
    simp only [segments, he d s _ hn h trivial]
    rfl
  | next d ds ih =>
    obtain ⟨fuel, rfl⟩ : ∃ m, fuel = m + 1 := ⟨fuel - 1, by omega⟩
    simp only [Segments.pieces, List.length_append, List.length_cons] at hn hf
    obtain ⟨s', hd, hs⟩ := h.of_append
    cases hs with
    | token hs =>
      have hds : segments expression fuel _ = ds.program expr := ih (by omega) (by omega) hs
      simp only [segments, he d s _ (by omega) hd trivial, hds]
      rfl

end Parser

/-- A numeric formula that is parsed without an error is derived from its pieces. -/
theorem NumericExpr.sound_parse {t : Text} {e : NumericExpr} (h : (parse t).ending = .ok e) :
    ∃ (d : Segments (NumericPhrase (.chain .bitwise))) (q : Nat),
      Starts (Lexemes.ofText .number t) (d.pieces NumericPhrase.pieces) (.finish q) ∧
        parse t = d.program NumericPhrase.expr :=
  Parser.sound_segments (fun _ _ _ hp => sound_expression _ hp) h

theorem NumericExpr.complete_parse {t : Text} {d : Segments (NumericPhrase (.chain .bitwise))}
    {q : Nat} (h : Starts (Lexemes.ofText .number t) (d.pieces NumericPhrase.pieces) (.finish q)) :
    parse t = d.program NumericPhrase.expr := by
  have hsize : (Lexemes.ofText .number t).size = (d.pieces NumericPhrase.pieces).length + 1 :=
    h.size_eq
  exact Parser.complete_segments (fun d _ _ hn hs hstop => complete_expression _ d hn hs hstop)
    (by omega) (by omega) h

/-- A text formula that is parsed without an error is derived from its pieces. -/
theorem TextExpr.sound_parse {t : Text} {e : TextExpr} (h : (parse t).ending = .ok e) :
    ∃ (d : Segments TextPhrase) (q : Nat),
      Starts (Lexemes.ofText .text t) (d.pieces TextPhrase.pieces) (.finish q) ∧
        parse t = d.program TextPhrase.expr :=
  Parser.sound_segments (fun _ _ _ hp => sound_expression _ hp) h

theorem TextExpr.complete_parse {t : Text} {d : Segments TextPhrase} {q : Nat}
    (h : Starts (Lexemes.ofText .text t) (d.pieces TextPhrase.pieces) (.finish q)) :
    parse t = d.program TextPhrase.expr := by
  have hsize : (Lexemes.ofText .text t).size = (d.pieces TextPhrase.pieces).length + 1 :=
    h.size_eq
  have hle : (Level.chain .bitwise).rank ≤ (Level.chain .additive).rank := by decide
  exact Parser.complete_segments
    (fun d _ _ hn hs hstop => complete_expression _ d hn hs (hstop.mono hle)) (by omega)
    (by omega) h

end FormulaEngine
