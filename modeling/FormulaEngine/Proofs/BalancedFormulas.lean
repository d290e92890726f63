import FormulaEngine.Proofs.Depth
import FormulaEngine.Proofs.Derivability
import FormulaEngine.Proofs.Tokens

/-! # Parentheses of formulas

The grammar and the splitter of arguments count parentheses apart from each other: the grammar counts
tokens, and the splitter characters outside single quotes. They agree where no literal stands in
double quotes. There every piece of a formula changes the depth as its spelling does, and since the
parentheses of a derivation match, a formula that has a value is a balanced text. -/

namespace FormulaEngine

open Nesting (outside)
open Text (Balanced IsArgument)

/-- The depth behind a piece; nothing when it closes a parenthesis that was not opened. -/
def Piece.nest (depth : Nat) : Piece → Option Nat
  | token .openParen | apply _ _ => some (depth + 1)
  | token .closeParen => if depth = 0 then none else some (depth - 1)
  | token _ | call _ _ => some depth

/-! ## Characters that are passed over -/

namespace Nesting

theorem step_of_isPlain {c : Char} (h : IsPlain c) (n : Nesting) : n.step c = some n :=
  step_of_argumentStep (argumentStep_of_isPlain h n)

theorem after_of_isPlain {t : Text} (h : ∀ c ∈ t, IsPlain c) (n : Nesting) : n.after t = some n :=
  after_of_argumentAfter (argumentAfter_of_isPlain h n)

/-- At any depth a balanced text comes back to where it began. -/
theorem after_of_balanced {t : Text} (h : Balanced t) (depth : Nat) :
    Nesting.after ⟨depth, false⟩ t = some ⟨depth, false⟩ := by
  cases depth with
  | zero => exact h
  | succ k => simpa [outside] using after_of_argumentAfter (argumentAfter_deeper k h)

end Nesting

theorem isMark_of_isDigit {c : Char} (h : c.isDigit = true) : IsMark c := by
  have all : ∀ c ∈ "0123456789".toList, IsMark c := by decide
  exact all c (mem_digits_of_isDigit h)

theorem Symbol.after_punctuation : ∀ p ∈ punctuation, ∀ depth,
    Nesting.after ⟨depth, false⟩ p.1 = ((Piece.token p.2).nest depth).map (⟨·, false⟩) := by
  simp only [punctuation, List.forall_mem_cons]
  simp [Nesting.step, Piece.nest, apply_ite]

/-- A token changes the depth as its spelling does. -/
theorem Symbol.Spelling.after_eq {w : Text} {k : Token} (h : Spelling w k) (hw : '"' ∉ w)
    (depth : Nat) :
    Nesting.after ⟨depth, false⟩ w = ((Piece.token k).nest depth).map (⟨·, false⟩) := by
  have digits : ∀ {t : Text}, (∀ c ∈ t, c.isDigit = true) →
      ∀ n : Nesting, n.after t = some n := by
    intro t ht
    exact Nesting.after_of_isPlain fun c hc => (isMark_of_isDigit (ht c hc)).1
  cases h with
  | string hquote hcontent =>
    rcases hquote with rfl | rfl
    · exact Nesting.after_of_balanced (Text.isArgument_quoted hcontent).balanced depth
    · exact absurd List.mem_cons_self hw
  | whole _ hdigits => exact digits hdigits _
  | decimal _ hdigits hpoint hplaces =>
    rw [Nesting.after_append, digits hdigits, Option.bind_some, Nesting.after_cons]
    rcases hpoint with rfl | rfl
    · exact digits hplaces _
    · exact digits hplaces _
  | name hname =>
    exact Nesting.after_of_isPlain (fun c hc => (isMark_of_isNamePart (hname.all c hc)).1) _
  | punctuation hmem => exact after_punctuation _ hmem depth

/-! ## What the lexer reads -/

namespace Lexer

variable {kind : ValueKind} {l l' : Lexer} {k : Token} {ps : List Piece}

theorem subset_of_next (h : l.next = (.ok (.token k), l')) : l'.cursor.after ⊆ l.cursor.after := by
  obtain ⟨n, w, hafter, -, -⟩ := spelling_of_next h
  rw [hafter, ← List.append_assoc]
  exact List.subset_append_right _ _

theorem after_gap (m : Nesting) (n : Nat) : m.after (Text.gap n) = some m :=
  Nesting.after_of_isPlain (fun c hc => by rw [List.eq_of_mem_replicate hc]; decide) m

theorem after_of_next (h : l.next = (.ok (.token k), l')) (hl : '"' ∉ l.cursor.after)
    (depth : Nat) :
    Nesting.after ⟨depth, false⟩ l.cursor.after =
      ((Piece.token k).nest depth).bind fun depth => Nesting.after ⟨depth, false⟩ l'.cursor.after := by
  obtain ⟨n, w, hafter, hspelling, -⟩ := spelling_of_next h
  have hw : '"' ∉ w := by
    intro hmem
    exact hl (by simp [hafter, hmem])
  rw [hafter, Nesting.after_append, after_gap, Option.bind_some, Nesting.after_append,
    hspelling.after_eq hw, Option.bind_map]
  rfl

theorem after_of_opens {l'' : Lexer} {name : Text} (hn : l.next = (.ok (.token (.name name)), l'))
    (ho : l'.next = (.ok (.token .openParen), l'')) (hl : '"' ∉ l.cursor.after) (depth : Nat) :
    Nesting.after ⟨depth, false⟩ l.cursor.after =
      Nesting.after ⟨depth + 1, false⟩ l''.cursor.after :=
  (after_of_next hn hl depth).trans
    (after_of_next ho (fun hmem => hl (subset_of_next hn hmem)) depth)

/-- The pieces of a text without double quotes change the depth as the text does. -/
theorem Reads.after_eq (h : l.Reads kind ps) (hl : '"' ∉ l.cursor.after) (depth : Nat) :
    Nesting.after ⟨depth, false⟩ l.cursor.after =
      (ps.foldlM Piece.nest depth).map (⟨·, false⟩) := by
  induction h generalizing depth with
  | finish hn =>
    obtain ⟨n, hafter, -⟩ := gap_of_next hn
    rw [hafter]
    exact after_gap _ n
  | token hn _ _ ih =>
    have hrest := ih fun hmem => hl (subset_of_next hn hmem)
    rw [after_of_next hn hl, List.foldlM_cons]
    cases Piece.nest depth (.token _) with
    | none => rfl
    | some depth => exact hrest depth
  | @call l l' l'' name arguments taken ps hn ho _ ha _ ih =>
    -- the arguments are balanced, and the parenthesis behind them closes the one before them
    obtain ⟨ts, rest, -, hts, hjoin, rfl, rfl⟩ := Arguments.read_eq_ok_iff.mp ha
    have harguments : Balanced (Text.join [','] ts) :=
      Arguments.balanced_join (by decide) fun t ht => (hts t ht).balanced
    have hbehind : (l''.cursor.advanceBy ((Text.join [','] ts).length + 1)).after = rest := by
      simp [Cursor.advanceBy, hjoin]
    have hrest : '"' ∉ rest := by
      intro hmem
      exact hl (subset_of_next hn (subset_of_next ho (by simp [hjoin, hmem])))
    rw [hbehind] at ih
    rw [after_of_opens hn ho hl, hjoin, Nesting.after_append, Nesting.after_of_balanced harguments,
      Option.bind_some, Nesting.after_cons]
    exact ih hrest depth
  | apply hn ho _ _ ih =>
    rw [after_of_opens hn ho hl]
    exact ih (fun hmem => hl (subset_of_next hn (subset_of_next ho hmem))) (depth + 1)

end Lexer

/-! ## The parentheses of a derivation match -/

mutual

theorem NumericPhrase.foldlM_nest {l : Level} (d : NumericPhrase l) (depth : Nat) :
    d.pieces.foldlM Piece.nest depth = some depth := by
  match d with
  | .chain first rest =>
    have hfirst := first.foldlM_nest depth
    have hrest := rest.foldlM_nest depth
    simp [NumericPhrase.pieces, List.foldlM_append, hfirst, hrest]
  | .signed o operand => exact operand.foldlM_nest depth
  | .unsigned operand => exact operand.foldlM_nest depth
  | .literal _ | .name _ | .call _ _ => rfl
  | .enclosed inner | .apply _ _ inner =>
    have hinner := inner.foldlM_nest (depth + 1)
    simp [NumericPhrase.pieces, Piece.nest, List.foldlM_append, hinner]

theorem NumericTail.foldlM_nest {p : Precedence} (t : NumericTail p) (depth : Nat) :
    t.pieces.foldlM Piece.nest depth = some depth := by
  match t with
  | .stop => rfl
  | .more o h operand rest =>
    have hoperand := operand.foldlM_nest depth
    have hrest := rest.foldlM_nest depth
    simp [NumericTail.pieces, Piece.nest, List.foldlM_append, hoperand, hrest]

end

mutual

theorem TextPhrase.foldlM_nest (d : TextPhrase) (depth : Nat) :
    d.pieces.foldlM Piece.nest depth = some depth := by
  match d with
  | .chain first rest =>
    have hfirst := first.foldlM_nest depth
    have hrest := rest.foldlM_nest depth
    simp [TextPhrase.pieces, List.foldlM_append, hfirst, hrest]

theorem TextTail.foldlM_nest (t : TextTail) (depth : Nat) :
    t.pieces.foldlM Piece.nest depth = some depth := by
  match t with
  | .stop => rfl
  | .more operand rest =>
    have hoperand := operand.foldlM_nest depth
    have hrest := rest.foldlM_nest depth
    simp [TextTail.pieces, Piece.nest, List.foldlM_append, hoperand, hrest]

theorem TextTerm.foldlM_nest (d : TextTerm) (depth : Nat) :
    d.pieces.foldlM Piece.nest depth = some depth := by
  match d with
  | .literal _ | .name _ | .call _ _ => rfl
  | .enclosed inner =>
    have hinner := inner.foldlM_nest (depth + 1)
    simp [TextTerm.pieces, Piece.nest, List.foldlM_append, hinner]

end

theorem Segments.foldlM_nest {δ : Type} {f : δ → List Piece}
    (hf : ∀ d depth, (f d).foldlM Piece.nest depth = some depth) (d : Segments δ) (depth : Nat) :
    (d.pieces f).foldlM Piece.nest depth = some depth := by
  induction d with
  | last d => exact hf d depth
  | next d rest ih => simp [Segments.pieces, Piece.nest, List.foldlM_append, hf, ih]

/-! ## Formulas that have a value -/

theorem Segments.pieces_ne_nil {δ : Type} {f : δ → List Piece} (hf : ∀ d, 0 < (f d).length)
    (d : Segments δ) : d.pieces f ≠ [] := by
  obtain ⟨ps, hfirst⟩ := d.exists_pieces_first f
  rw [hfirst]
  exact List.append_ne_nil_of_left_ne_nil (List.ne_nil_of_length_pos (hf d.first)) ps

/-- Something is read only where something stands. -/
theorem Lexer.Reads.ne_nil {kind : ValueKind} {l : Lexer} {ps : List Piece} (h : l.Reads kind ps)
    (hps : ps ≠ []) : l.cursor.after ≠ [] := by
  cases h with
  | finish => exact absurd rfl hps
  | token hn | call hn | apply hn =>
    intro hnil
    have hlength := length_lt_of_next hn
    simp [hnil] at hlength

namespace Surroundings

variable {s : Surroundings} {kind : ValueKind} {formula : Text} {v : Value}

theorem result_eval_number {w : Float} (h : (s.evalNumber formula).result = .ok w) :
    (s.eval .number formula).result = .ok (.number w) := Run.result_bind_of_ok h _

theorem result_eval_text {w : Text} (h : (s.evalText formula).result = .ok w) :
    (s.eval .text formula).result = .ok (.text w) := Run.result_bind_of_ok h _

theorem exists_reads_of_value (h : (s.eval kind formula).result = .ok v) :
    ∃ ps, (Lexer.ofText (normalize formula)).Reads kind ps ∧ ps ≠ [] ∧
      ps.foldlM Piece.nest 0 = some 0 := by
  cases kind with
  | number =>
    obtain ⟨w, hw, -⟩ := Run.exists_of_bind h
    obtain ⟨d, hd, -⟩ := s.numeric_derived formula hw
    exact ⟨_, hd, d.pieces_ne_nil NumericExpr.length_pieces_pos,
      d.foldlM_nest NumericPhrase.foldlM_nest 0⟩
  | text =>
    obtain ⟨w, hw, -⟩ := Run.exists_of_bind h
    obtain ⟨d, hd, -⟩ := s.text_derived formula hw
    exact ⟨_, hd, d.pieces_ne_nil TextExpr.length_phrase_pos,
      d.foldlM_nest TextPhrase.foldlM_nest 0⟩

theorem normalize_ne_nil_of_value (h : (s.eval kind formula).result = .ok v) :
    normalize formula ≠ [] := by
  obtain ⟨ps, hreads, hps, -⟩ := exists_reads_of_value h
  exact hreads.ne_nil hps

/-- Whatever has a value and no literal in double quotes is balanced. -/
theorem balanced_of_value (h : (s.eval kind formula).result = .ok v) (hquote : '"' ∉ formula) :
    Balanced (normalize formula) := by
  obtain ⟨ps, hreads, -, hnest⟩ := exists_reads_of_value h
  have hnormal : '"' ∉ normalize formula :=
    fun hmem => hquote (Text.trim_subset formula (List.mem_filter.mp hmem).1)
  have hafter := hreads.after_eq hnormal 0
  rw [hnest] at hafter
  exact hafter

end Surroundings

end FormulaEngine
