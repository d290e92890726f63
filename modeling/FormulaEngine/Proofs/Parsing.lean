import FormulaEngine.Proofs.Grammar

/-! # Parsers and the grammar

A parser is sound for a sort of phrases when what it takes off the front of a formula is a phrase
that derives its expression, and complete up to a number of pieces when it finds every such phrase
that nothing behind it continues. Both are shown layer by layer, the depth bounding the number of
pieces, so a formula is parsed without an error exactly when the grammar derives it. -/

namespace FormulaEngine

open Lexemes (Starts)

/-- Nothing at the beginning of the lexemes continues an expression of this level, and what is there
can be read. -/
def Level.Stops (l : Level) : Lexemes → Prop
  | .token _ (.operator o) _ => ∀ i, o = InfixOperator.operator i → i.precedence.rank < l.rank
  | .openString _ => False
  | _ => True

theorem Level.Stops.mono {l l' : Level} {s : Lexemes} (h : l.Stops s) (hl : l.rank ≤ l'.rank) :
    l'.Stops s := by
  unfold Level.Stops at h ⊢
  split
  · intro i hi
    exact Nat.lt_of_lt_of_le (h i hi) hl
  · exact h
  · trivial

namespace Parser

variable {ε : Type} {joins? : Token → Option (ε → ε → ε)} {operand inner : Parser ε}

/-- A round of a chain stops, or takes an operator and an operand. -/
theorem chainRest_cases {fuel : Nat} {left e : ε} {s s' : Lexemes}
    (h : chainRest joins? operand fuel left s = .ok (e, s')) :
    (e = left ∧ s' = s) ∨
      ∃ n p k rest join right rest', fuel = n + 1 ∧ s = .token p k rest ∧
        joins? k = some join ∧ operand rest = .ok (right, rest') ∧
        chainRest joins? operand n (join left right) rest' = .ok (e, s') := by
  unfold chainRest at h
  split at h
  · rename_i n p k rest
    split at h
    · cases h
      exact .inl ⟨rfl, rfl⟩
    · rename_i join hj
      split at h
      · rename_i right rest' ho
        exact .inr ⟨n, p, k, rest, join, right, rest', rfl, rfl, hj, ho, h⟩
      · cases h
  · cases h
    exact .inl ⟨rfl, rfl⟩

theorem chain_cases {fuel : Nat} {e : ε} {s s' : Lexemes}
    (h : chain joins? operand fuel s = .ok (e, s')) :
    ∃ left rest, operand s = .ok (left, rest) ∧
      chainRest joins? operand fuel left rest = .ok (e, s') := by
  unfold chain at h
  split at h
  · rename_i left rest ho
    exact ⟨left, rest, ho, h⟩
  · cases h

theorem enclosed_cases {missing : Lexemes → FormulaError} {e : ε} {s s' : Lexemes}
    (h : enclosed inner missing s = .ok (e, s')) :
    ∃ p, inner s = .ok (e, .token p .closeParen s') := by
  unfold enclosed at h
  split at h
  · rename_i e' p rest hi
    cases h
    exact ⟨p, hi⟩
  · cases h
  · cases h

theorem name_cases {make : Text → ε} {n : Text} {e : ε} {s s' : Lexemes}
    (h : name make n s = .ok (e, s')) : e = make n ∧ s' = s := by
  unfold name at h
  split at h
  · cases h
  · cases h
    exact ⟨rfl, rfl⟩

theorem chainRest_stop {fuel : Nat} {left : ε} {s : Lexemes}
    (h : ∀ p k rest, s = .token p k rest → joins? k = none) :
    chainRest joins? operand fuel left s = .ok (left, s) := by
  unfold chainRest
  split
  · rename_i p k rest
    rw [h p k rest rfl]
  · rfl

theorem enclosed_eq_ok {missing : Lexemes → FormulaError} {e : ε} {s rest : Lexemes} {p : Nat}
    (h : inner s = .ok (e, .token p .closeParen rest)) :
    enclosed inner missing s = .ok (e, rest) := by
  simp only [enclosed, h]

end Parser

namespace NumericExpr

def Sound (l : Level) (parse : Parser NumericExpr) : Prop :=
  ∀ ⦃s e s'⦄, parse s = .ok (e, s') → ∃ d : NumericPhrase l, d.expr = e ∧ Starts s d.pieces s'

theorem joins?_eq_some {p : Precedence} {k : Token}
    {join : NumericExpr → NumericExpr → NumericExpr} (h : joins? p k = some join) :
    ∃ o : InfixOperator, k = .operator o.operator ∧ o.precedence = p ∧ join = binary o := by
  unfold joins? at h
  split at h
  · split at h
    · rename_i o i hi
      split at h
      · rename_i hp
        cases h
        exact ⟨i, by rw [Operator.infix?_eq_some_iff.mp hi], hp, rfl⟩
      · cases h
    · cases h
  · cases h

theorem joins?_operator (o : InfixOperator) :
    joins? o.precedence (.operator o.operator) = some (binary o) := by
  simp [joins?, Operator.infix?_eq_some_iff.mpr rfl]

theorem joins?_eq_none {p : Precedence} {s : Lexemes} (h : (Level.chain p).Stops s)
    {q : Nat} {k : Token} {rest : Lexemes} (hs : s = .token q k rest) : joins? p k = none := by
  rw [Option.eq_none_iff_forall_ne_some]
  intro join hj
  obtain ⟨o, rfl, rfl, _⟩ := joins?_eq_some hj
  subst hs
  exact absurd (h o rfl) (by simp [Level.rank])

/-! ## Soundness -/

theorem sound_chainRest {p : Precedence} {operand : Parser NumericExpr}
    (ho : Sound p.operands operand) {fuel : Nat} {left e : NumericExpr} {s s' : Lexemes}
    (h : Parser.chainRest (joins? p) operand fuel left s = .ok (e, s')) :
    ∃ t : NumericTail p, t.exprFrom left = e ∧ Starts s t.pieces s' := by
  induction fuel generalizing left s with
  | zero =>
    obtain ⟨rfl, rfl⟩ | ⟨n, _, _, _, _, _, _, hn, _⟩ := Parser.chainRest_cases h
    · exact ⟨.stop, rfl, .nil⟩
    · cases hn
  | succ fuel ih =>
    obtain ⟨rfl, rfl⟩ | ⟨n, q, k, rest, join, right, rest', hn, rfl, hj, hr, h⟩ :=
      Parser.chainRest_cases h
    · exact ⟨.stop, rfl, .nil⟩
    · cases hn
      obtain ⟨o, rfl, hp, rfl⟩ := joins?_eq_some hj
      obtain ⟨d, rfl, hd⟩ := ho hr
      obtain ⟨t, rfl, ht⟩ := ih h
      exact ⟨.more o hp d t, rfl, .token (hd.append ht)⟩

theorem sound_chain {p : Precedence} {operand : Parser NumericExpr}
    (ho : Sound p.operands operand) (fuel : Nat) :
    Sound (.chain p) (Parser.chain (joins? p) operand fuel) := by
  intro s e s' h
  obtain ⟨left, rest, hl, hr⟩ := Parser.chain_cases h
  obtain ⟨d, rfl, hd⟩ := ho hl
  obtain ⟨t, rfl, ht⟩ := sound_chainRest ho hr
  exact ⟨.chain d t, rfl, hd.append ht⟩

theorem sound_signs {operand : Parser NumericExpr} (ho : Sound (.chain .power) operand) :
    Sound .signs (signs operand) := by
  have unsigned : ∀ {s e s'}, operand s = .ok (e, s') →
      ∃ d : NumericPhrase .signs, d.expr = e ∧ Starts s d.pieces s' := by
    intro s e s' h
    obtain ⟨d, rfl, hd⟩ := ho h
    exact ⟨.unsigned d, rfl, hd⟩
  intro s
  induction s with
  | token p k rest ih =>
    intro e s' h
    unfold signs at h
    split at h
    · rename_i o _ heq
      cases heq
      split at h
      · exact unsigned h
      · rename_i i hi
        split at h
        · rename_i e' rest' hr
          cases h
          obtain ⟨d, rfl, hd⟩ := ih hr
          rw [Operator.prefix?_eq_some_iff.mp hi]
          exact ⟨.signed i d, rfl, .token hd⟩
        · cases h
    · exact unsigned h
  | finish | invalid | openString | openCall | call | apply =>
    intro e s' h
    exact unsigned h

theorem sound_term {inner : Parser NumericExpr} (hi : Sound (.chain .bitwise) inner) :
    Sound .term (term inner) := by
  intro s e s' h
  unfold term at h
  split at h
  · rename_i n rest
    cases h
    exact ⟨.literal n, rfl, .token .nil⟩
  · obtain ⟨p, hp⟩ := Parser.enclosed_cases h
    obtain ⟨d, rfl, hd⟩ := hi hp
    exact ⟨.enclosed d, rfl, .token (hd.append (.token .nil))⟩
  · rename_i n rest
    obtain ⟨rfl, rfl⟩ := Parser.name_cases h
    exact ⟨.name n, rfl, .token .nil⟩
  · rename_i n arguments rest
    cases h
    exact ⟨.call n arguments, rfl, .call .nil⟩
  · cases h
  · rename_i n f rest
    split at h
    · rename_i he
      cases h
      obtain ⟨p, hp⟩ := Parser.enclosed_cases he
      obtain ⟨d, rfl, hd⟩ := hi hp
      exact ⟨.apply n f d, rfl, .apply (hd.append (.token .nil))⟩
    · cases h
  · cases h

theorem sound_expression (depth : Nat) : Sound (.chain .bitwise) (expression depth) := by
  induction depth with
  | zero => intro s e s' h; cases h
  | succ depth ih =>
    exact sound_chain (p := .bitwise) (sound_chain (p := .relational)
      (sound_chain (p := .additive) (sound_chain (p := .multiplicative)
        (sound_signs (sound_chain (p := .power) (sound_term ih) depth)) depth) depth) depth) depth

/-! ## Completeness -/

/-- Every phrase of at most `n` pieces is found. -/
def Complete (n : Nat) (l : Level) (parse : Parser NumericExpr) : Prop :=
  ∀ (d : NumericPhrase l) ⦃s s'⦄, d.pieces.length ≤ n → Starts s d.pieces s' → l.Stops s' →
    parse s = .ok (d.expr, s')

theorem stops_operands {p : Precedence} (t : NumericTail p) {s s' : Lexemes}
    (h : Starts s t.pieces s') (hs : (Level.chain p).Stops s') : p.operands.Stops s := by
  have hp := p.rank_operands
  cases t with
  | stop =>
    cases h
    exact hs.mono (by rw [hp]; exact Nat.le_succ _)
  | more o ho operand rest =>
    cases h with
    | token _ =>
      intro i hi
      rw [← InfixOperator.operator_injective hi, ho]
      omega

theorem length_pieces_pos {l : Level} (d : NumericPhrase l) : 0 < d.pieces.length := by
  induction d using NumericPhrase.rec (motive_2 := fun _ _ => True) with
  | chain first rest ih => rw [NumericPhrase.pieces, List.length_append]; omega
  | unsigned operand ih => exact ih
  | stop | more => trivial
  | signed | literal | name | enclosed | call | apply => simp [NumericPhrase.pieces]

theorem complete_chainRest {n : Nat} {p : Precedence} {operand : Parser NumericExpr}
    (ho : Complete n p.operands operand) (t : NumericTail p) {fuel : Nat} {left : NumericExpr}
    {s s' : Lexemes} (hn : t.pieces.length ≤ n) (hf : t.pieces.length ≤ fuel)
    (hs : Starts s t.pieces s') (hstop : (Level.chain p).Stops s') :
    Parser.chainRest (joins? p) operand fuel left s = .ok (t.exprFrom left, s') := by
  induction fuel generalizing t left s with
  | zero =>
    cases t with
    | stop =>
      cases hs
      exact Parser.chainRest_stop fun _ _ _ => joins?_eq_none hstop
    | more o h d rest => simp [NumericTail.pieces] at hf
  | succ fuel ih =>
    cases t with
    | stop =>
      cases hs
      exact Parser.chainRest_stop fun _ _ _ => joins?_eq_none hstop
    | more o h d rest =>
      subst h
      simp only [NumericTail.pieces, List.length_cons, List.length_append] at hn hf
      cases hs with
      | token hs =>
        obtain ⟨m, hd, hr⟩ := hs.of_append
        have hoperand := ho d (by omega) hd (stops_operands rest hr hstop)
        simp only [Parser.chainRest, joins?_operator, hoperand]
        exact ih rest (by omega) (by omega) hr

theorem complete_chain {n fuel : Nat} {p : Precedence} {operand : Parser NumericExpr}
    (ho : Complete n p.operands operand) (hf : n ≤ fuel + 1) :
    Complete n (.chain p) (Parser.chain (joins? p) operand fuel) := by
  intro d s s' hn hs hstop
  cases d with
  | chain first rest =>
    obtain ⟨m, hm, hr⟩ := hs.of_append
    have hpos := length_pieces_pos first
    simp only [NumericPhrase.pieces, List.length_append] at hn
    have hfirst := ho first (by omega) hm (stops_operands rest hr hstop)
    simp only [Parser.chain, hfirst]
    exact complete_chainRest ho rest (by omega) (by omega) hr hstop

theorem complete_signs {n : Nat} {operand : Parser NumericExpr}
    (ho : Complete n (.chain .power) operand) : Complete n .signs (signs operand) := by
  intro d
  generalize hl : Level.signs = l at d
  induction d using NumericPhrase.rec (motive_2 := fun _ _ => True) with
  | signed o d ih =>
    intro s s' hn hs hstop
    cases hs with
    | token hs =>
      have hd := ih rfl (by simp only [NumericPhrase.pieces, List.length_cons] at hn; omega) hs hstop
      simp only [signs, Operator.prefix?_eq_some_iff.mpr rfl, hd]
      rfl
  | unsigned d =>
    intro s s' hn hs hstop
    have hd := ho d hn hs (hstop.mono (by decide))
    rw [show (NumericPhrase.unsigned d).expr = d.expr from rfl, ← hd]
    -- the operand does not begin with an operator
    unfold signs
    split
    · rename_i p o rest
      have hpos := length_pieces_pos d
      have hhead := d.head_of_power o []
      change Starts _ d.pieces _ at hs
      generalize d.pieces = ps at hs hpos hhead
      cases hs with
      | nil => cases hpos
      | token hs => exact absurd (List.append_nil _) (hhead _)
    · rfl
  | stop | more => trivial
  | chain | literal | name | enclosed | call | apply => cases hl

theorem complete_term {n : Nat} {inner : Parser NumericExpr}
    (hi : Complete n (.chain .bitwise) inner) : Complete (n + 1) .term (term inner) := by
  intro d s s' hn hs hstop
  have hclose : ∀ q, (Level.chain .bitwise).Stops (.token q .closeParen s') := fun _ => trivial
  cases d with
  | literal k =>
    cases hs with
    | token hs => cases hs; rfl
  | name k =>
    cases hs with
    | token hs =>
      cases hs
      simp only [term, Parser.name]
      split
      · exact hstop.elim
      · rfl
  | enclosed d =>
    cases hs with
    | token hs =>
      obtain ⟨m, hd, hc⟩ := hs.of_append
      cases hc with
      | token hc =>
        cases hc
        simp only [NumericPhrase.pieces, List.length_cons, List.length_append] at hn
        exact Parser.enclosed_eq_ok (hi d (by omega) hd (hclose _))
  | call k arguments =>
    cases hs with
    | call hs => cases hs; rfl
  | apply k f d =>
    cases hs with
    | apply hs =>
      obtain ⟨m, hd, hc⟩ := hs.of_append
      cases hc with
      | token hc =>
        cases hc
        simp only [NumericPhrase.pieces, List.length_cons, List.length_append] at hn
        have he : Parser.enclosed inner (missingParen k) _ = .ok (d.expr, _) :=
          Parser.enclosed_eq_ok (hi d (by omega) hd (hclose _))
        simp only [term, he]
        rfl

theorem complete_expression (depth : Nat) :
    Complete depth (.chain .bitwise) (expression depth) := by
  induction depth with
  | zero =>
    intro d s s' hn
    have := length_pieces_pos d
    omega
  | succ depth ih =>
    have hf : depth + 1 ≤ depth + 1 := Nat.le_refl _
    exact complete_chain (p := .bitwise) (complete_chain (p := .relational)
      (complete_chain (p := .additive) (complete_chain (p := .multiplicative)
        (complete_signs (complete_chain (p := .power) (complete_term ih) hf)) hf) hf) hf) hf

end NumericExpr

namespace TextExpr

def Sound (parse : Parser TextExpr) : Prop :=
  ∀ ⦃s e s'⦄, parse s = .ok (e, s') → ∃ d : TextPhrase, d.expr = e ∧ Starts s d.pieces s'

/-- As `Sound`, for an operand. -/
def SoundTerm (parse : Parser TextExpr) : Prop :=
  ∀ ⦃s e s'⦄, parse s = .ok (e, s') → ∃ d : TextTerm, d.expr = e ∧ Starts s d.pieces s'

theorem joins?_eq_some {k : Token} {join : TextExpr → TextExpr → TextExpr}
    (h : joins? k = some join) : k = .operator .plus ∧ join = append := by
  unfold joins? at h
  split at h
  · cases h
    exact ⟨rfl, rfl⟩
  · cases h

theorem joins?_eq_none {s : Lexemes} (h : (Level.chain .additive).Stops s) {q : Nat} {k : Token}
    {rest : Lexemes} (hs : s = .token q k rest) : joins? k = none := by
  rw [Option.eq_none_iff_forall_ne_some]
  intro join hj
  obtain ⟨rfl, _⟩ := joins?_eq_some hj
  subst hs
  exact absurd (h .plus rfl) (by decide)

theorem sound_chain {operand : Parser TextExpr} (ho : SoundTerm operand) (fuel : Nat) :
    Sound (Parser.chain joins? operand fuel) := by
  have rounds : ∀ {fuel left e s s'}, Parser.chainRest joins? operand fuel left s = .ok (e, s') →
      ∃ t : TextTail, t.exprFrom left = e ∧ Starts s t.pieces s' := by
    intro fuel
    induction fuel with
    | zero =>
      intro left e s s' h
      obtain ⟨rfl, rfl⟩ | ⟨n, _, _, _, _, _, _, hn, _⟩ := Parser.chainRest_cases h
      · exact ⟨.stop, rfl, .nil⟩
      · cases hn
    | succ fuel ih =>
      intro left e s s' h
      obtain ⟨rfl, rfl⟩ | ⟨n, q, k, rest, join, right, rest', hn, rfl, hj, hr, h⟩ :=
        Parser.chainRest_cases h
      · exact ⟨.stop, rfl, .nil⟩
      · cases hn
        obtain ⟨rfl, rfl⟩ := joins?_eq_some hj
        obtain ⟨d, rfl, hd⟩ := ho hr
        obtain ⟨t, rfl, ht⟩ := ih h
        exact ⟨.more d t, rfl, .token (hd.append ht)⟩
  intro s e s' h
  obtain ⟨left, rest, hl, hr⟩ := Parser.chain_cases h
  obtain ⟨d, rfl, hd⟩ := ho hl
  obtain ⟨t, rfl, ht⟩ := rounds hr
  exact ⟨.chain d t, rfl, hd.append ht⟩

theorem sound_term {inner : Parser TextExpr} (hi : Sound inner) : SoundTerm (term inner) := by
  intro s e s' h
  unfold term at h
  split at h
  · rename_i content rest
    cases h
    exact ⟨.literal content, rfl, .token .nil⟩
  · obtain ⟨p, hp⟩ := Parser.enclosed_cases h
    obtain ⟨d, rfl, hd⟩ := hi hp
    exact ⟨.enclosed d, rfl, .token (hd.append (.token .nil))⟩
  · rename_i n rest
    obtain ⟨rfl, rfl⟩ := Parser.name_cases h
    exact ⟨.name n, rfl, .token .nil⟩
  · rename_i n arguments rest
    cases h
    exact ⟨.call n arguments, rfl, .call .nil⟩
  · cases h
  · cases h

theorem sound_expression (depth : Nat) : Sound (expression depth) := by
  induction depth with
  | zero => intro s e s' h; cases h
  | succ depth ih => exact sound_chain (sound_term ih) depth

/-- Every phrase of at most `n` pieces is found. -/
def Complete (n : Nat) (parse : Parser TextExpr) : Prop :=
  ∀ (d : TextPhrase) ⦃s s'⦄, d.pieces.length ≤ n → Starts s d.pieces s' →
    (Level.chain .additive).Stops s' → parse s = .ok (d.expr, s')

/-- As `Complete`, for an operand; it ends where it ends, if only what follows can be read. -/
def CompleteTerm (n : Nat) (parse : Parser TextExpr) : Prop :=
  ∀ (d : TextTerm) ⦃s s'⦄, d.pieces.length ≤ n → Starts s d.pieces s' →
    Level.term.Stops s' → parse s = .ok (d.expr, s')

theorem stops_term (t : TextTail) {s s' : Lexemes} (h : Starts s t.pieces s')
    (hs : (Level.chain .additive).Stops s') : Level.term.Stops s := by
  cases t with
  | stop =>
    cases h
    exact hs.mono (by decide)
  | more operand rest =>
    cases h with
    | token _ =>
      intro i hi
      rw [← InfixOperator.operator_injective (i := .plus) hi]
      decide

theorem length_pieces_pos (d : TextTerm) : 0 < d.pieces.length := by
  cases d <;> simp [TextTerm.pieces]

theorem length_phrase_pos (d : TextPhrase) : 0 < d.pieces.length := by
  cases d with
  | chain first rest =>
    have hfirst := length_pieces_pos first
    rw [TextPhrase.pieces, List.length_append]
    omega

theorem complete_chainRest {n : Nat} {operand : Parser TextExpr} (ho : CompleteTerm n operand)
    (t : TextTail) {fuel : Nat} {left : TextExpr} {s s' : Lexemes} (hn : t.pieces.length ≤ n)
    (hf : t.pieces.length ≤ fuel) (hs : Starts s t.pieces s')
    (hstop : (Level.chain .additive).Stops s') :
    Parser.chainRest joins? operand fuel left s = .ok (t.exprFrom left, s') := by
  induction fuel generalizing t left s with
  | zero =>
    cases t with
    | stop =>
      cases hs
      exact Parser.chainRest_stop fun _ _ _ => joins?_eq_none hstop
    | more d rest => simp [TextTail.pieces] at hf
  | succ fuel ih =>
    cases t with
    | stop =>
      cases hs
      exact Parser.chainRest_stop fun _ _ _ => joins?_eq_none hstop
    | more d rest =>
      simp only [TextTail.pieces, List.length_cons, List.length_append] at hn hf
      cases hs with
      | token hs =>
        obtain ⟨m, hd, hr⟩ := hs.of_append
        have hoperand := ho d (by omega) hd (stops_term rest hr hstop)
        simp only [Parser.chainRest, joins?, hoperand]
        exact ih rest (by omega) (by omega) hr

theorem complete_chain {n fuel : Nat} {operand : Parser TextExpr} (ho : CompleteTerm n operand)
    (hf : n ≤ fuel + 1) : Complete n (Parser.chain joins? operand fuel) := by
  intro d s s' hn hs hstop
  cases d with
  | chain first rest =>
    obtain ⟨m, hm, hr⟩ := hs.of_append
    have hpos := length_pieces_pos first
    simp only [TextPhrase.pieces, List.length_append] at hn
    have hfirst := ho first (by omega) hm (stops_term rest hr hstop)
    simp only [Parser.chain, hfirst]
    exact complete_chainRest ho rest (by omega) (by omega) hr hstop

theorem complete_term {n : Nat} {inner : Parser TextExpr} (hi : Complete n inner) :
    CompleteTerm (n + 1) (term inner) := by
  intro d s s' hn hs hstop
  cases d with
  | literal k =>
    cases hs with
    | token hs => cases hs; rfl
  | name k =>
    cases hs with
    | token hs =>
      cases hs
      simp only [term, Parser.name]
      split
      · exact hstop.elim
      · rfl
  | enclosed d =>
    cases hs with
    | token hs =>
      obtain ⟨m, hd, hc⟩ := hs.of_append
      cases hc with
      | token hc =>
        cases hc
        simp only [TextTerm.pieces, List.length_cons, List.length_append] at hn
        exact Parser.enclosed_eq_ok (hi d (by omega) hd trivial)
  | call k arguments =>
    cases hs with
    | call hs => cases hs; rfl

theorem complete_expression (depth : Nat) : Complete depth (expression depth) := by
  induction depth with
  | zero =>
    intro d s s' hn
    have := length_phrase_pos d
    omega
  | succ depth ih => exact complete_chain (complete_term ih) (Nat.le_refl _)

end TextExpr

end FormulaEngine
