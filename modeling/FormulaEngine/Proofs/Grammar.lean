import FormulaEngine.Expr.Grammar
import FormulaEngine.Proofs.Pieces

/-! # The grammar of formulas

Derivation trees of both sorts of formulas. A tree is made of the pieces that it derives, in order,
and of nothing else. Operators of one precedence form a chain over operands that bind more tightly;
a formula is a sequence of expressions with semicolons between them. The grammar is unambiguous: two
trees over the same pieces are the same tree. -/

namespace FormulaEngine

def PrefixOperator.operator : PrefixOperator → Operator
  | not => .not
  | complement => .complement
  | plus => .plus
  | minus => .minus

def InfixOperator.operator : InfixOperator → Operator
  | power => .power
  | times => .times
  | divide => .divide
  | remainder => .remainder
  | percent => .percent
  | plus => .plus
  | minus => .minus
  | less => .less
  | lessOrEqual => .lessOrEqual
  | equal => .equal
  | notEqual => .notEqual
  | greaterOrEqual => .greaterOrEqual
  | greater => .greater
  | or => .or
  | xor => .xor
  | and => .and

theorem Operator.prefix?_eq_some_iff {o : Operator} {i : PrefixOperator} :
    o.prefix? = some i ↔ o = i.operator := by
  cases o <;> cases i <;> simp [Operator.prefix?, PrefixOperator.operator]

theorem Operator.infix?_eq_some_iff {o : Operator} {i : InfixOperator} :
    o.infix? = some i ↔ o = i.operator := by
  cases o <;> cases i <;> simp [Operator.infix?, InfixOperator.operator]

/-- What an expression can be asked to be: a chain of operators of one precedence, an operand with
signs, or a term. -/
inductive Level where
  | chain (p : Precedence)
  | signs
  | term
  deriving DecidableEq, Repr

/-- How tightly an operator binds, from the loosest up. Signs come between. -/
def Precedence.rank : Precedence → Nat
  | bitwise => 0
  | relational => 1
  | additive => 2
  | multiplicative => 3
  | power => 5

def Level.rank : Level → Nat
  | chain p => p.rank
  | signs => 4
  | term => 6

/-- What stands between the operators of one precedence. -/
def Precedence.operands : Precedence → Level
  | bitwise => .chain .relational
  | relational => .chain .additive
  | additive => .chain .multiplicative
  | multiplicative => .signs
  | power => .term

theorem Precedence.rank_operands (p : Precedence) : p.operands.rank = p.rank + 1 := by
  cases p <;> rfl

mutual

/-- A derivation of a numeric expression. -/
inductive NumericPhrase : Level → Type where
  | chain {p : Precedence} (first : NumericPhrase p.operands) (rest : NumericTail p) :
      NumericPhrase (.chain p)
  | signed (o : PrefixOperator) (operand : NumericPhrase .signs) : NumericPhrase .signs
  | unsigned (operand : NumericPhrase (.chain .power)) : NumericPhrase .signs
  | literal (n : Numeral) : NumericPhrase .term
  | name (n : Text) : NumericPhrase .term
  | enclosed (inner : NumericPhrase (.chain .bitwise)) : NumericPhrase .term
  | call (name : Text) (arguments : List Text) : NumericPhrase .term
  | apply (name : Text) (f : Elementary) (inner : NumericPhrase (.chain .bitwise)) :
      NumericPhrase .term

/-- The operators and operands behind the first operand of a chain. -/
inductive NumericTail : Precedence → Type where
  | stop {p : Precedence} : NumericTail p
  | more {p : Precedence} (o : InfixOperator) (h : o.precedence = p)
      (operand : NumericPhrase p.operands) (rest : NumericTail p) : NumericTail p

end

mutual

/-- A derivation of a text expression. -/
inductive TextPhrase where
  | chain (first : TextTerm) (rest : TextTail)

/-- The operands behind the first one. -/
inductive TextTail where
  | stop
  | more (operand : TextTerm) (rest : TextTail)

inductive TextTerm where
  | literal (content : Text)
  | name (n : Text)
  | enclosed (inner : TextPhrase)
  | call (name : Text) (arguments : List Text)

end

/-- A formula: expressions of one sort, one after the other. -/
inductive Segments (δ : Type) where
  | last (d : δ)
  | next (d : δ) (rest : Segments δ)

namespace Segments

variable {δ : Type}

/-- The expressions whose values are dropped. -/
def earlier : Segments δ → List δ
  | last _ => []
  | next d rest => d :: rest.earlier

/-- The expression whose value counts. -/
def final : Segments δ → δ
  | last d => d
  | next _ rest => rest.final

def pieces (f : δ → List Piece) : Segments δ → List Piece
  | last d => f d
  | next d rest => f d ++ .token .semicolon :: rest.pieces f

end Segments

/-! ## The pieces of a derivation, and the expression that it derives -/

mutual

def NumericPhrase.pieces : {l : Level} → NumericPhrase l → List Piece
  | _, .chain first rest => first.pieces ++ rest.pieces
  | _, .signed o operand => .token (.operator o.operator) :: operand.pieces
  | _, .unsigned operand => operand.pieces
  | _, .literal n => [.token (.numeral n)]
  | _, .name n => [.token (.name n)]
  | _, .enclosed inner => .token .openParen :: (inner.pieces ++ [.token .closeParen])
  | _, .call name arguments => [.call name arguments]
  | _, .apply name f inner => .apply name f :: (inner.pieces ++ [.token .closeParen])

def NumericTail.pieces : {p : Precedence} → NumericTail p → List Piece
  | _, .stop => []
  | _, .more o _ operand rest =>
    .token (.operator o.operator) :: (operand.pieces ++ rest.pieces)

end

mutual

def NumericPhrase.expr : {l : Level} → NumericPhrase l → NumericExpr
  | _, .chain first rest => rest.exprFrom first.expr
  | _, .signed o operand => .signed o operand.expr
  | _, .unsigned operand => operand.expr
  | _, .literal n => .literal n
  | _, .name n => .name n
  | _, .enclosed inner => inner.expr
  | _, .call name arguments => .call name arguments
  | _, .apply _ f inner => .apply f inner.expr

/-- The expression of a chain whose operands so far make `left`: it groups to the left. -/
def NumericTail.exprFrom (left : NumericExpr) : {p : Precedence} → NumericTail p → NumericExpr
  | _, .stop => left
  | _, .more o _ operand rest => rest.exprFrom (.binary o left operand.expr)

end

mutual

def TextPhrase.pieces : TextPhrase → List Piece
  | .chain first rest => first.pieces ++ rest.pieces

def TextTail.pieces : TextTail → List Piece
  | .stop => []
  | .more operand rest => .token (.operator .plus) :: (operand.pieces ++ rest.pieces)

def TextTerm.pieces : TextTerm → List Piece
  | .literal content => [.token (.string content)]
  | .name n => [.token (.name n)]
  | .enclosed inner => .token .openParen :: (inner.pieces ++ [.token .closeParen])
  | .call name arguments => [.call name arguments]

end

mutual

def TextPhrase.expr : TextPhrase → TextExpr
  | .chain first rest => rest.exprFrom first.expr

def TextTail.exprFrom (left : TextExpr) : TextTail → TextExpr
  | .stop => left
  | .more operand rest => rest.exprFrom (.append left operand.expr)

def TextTerm.expr : TextTerm → TextExpr
  | .literal content => .literal content
  | .name n => .name n
  | .enclosed inner => inner.expr
  | .call name arguments => .call name arguments

end

/-! ## Looser levels -/

theorem Level.eq_of_rank_eq {l l' : Level} (h : l.rank = l'.rank) : l = l' := by
  rcases l with (_ | _ | _ | _ | _) | _ | _ <;> rcases l' with (_ | _ | _ | _ | _) | _ | _ <;>
    first | rfl | cases h

theorem Level.rank_le (l : Level) : l.rank ≤ Level.term.rank := by
  rcases l with (_ | _ | _ | _ | _) | _ | _ <;> decide

/-- What binds tightly can stand where something looser is expected. -/
theorem NumericPhrase.exists_lift {l : Level} (d : NumericPhrase l) (l' : Level)
    (h : l'.rank ≤ l.rank) :
    ∃ d' : NumericPhrase l', d'.pieces = d.pieces ∧ d'.expr = d.expr := by
  induction hn : l.rank - l'.rank generalizing l' with
  | zero =>
    obtain rfl : l = l' := Level.eq_of_rank_eq (by omega)
    exact ⟨d, rfl, rfl⟩
  | succ n ih =>
    cases l' with
    | chain p =>
      have hp : p.operands.rank = (Level.chain p).rank + 1 := p.rank_operands
      obtain ⟨d', hpieces, hexpr⟩ := ih p.operands (by omega) (by omega)
      exact ⟨.chain d' .stop, by simp [pieces, NumericTail.pieces, hpieces], hexpr⟩
    | signs =>
      have hp : (Level.chain .power).rank = Level.signs.rank + 1 := rfl
      obtain ⟨d', hpieces, hexpr⟩ := ih (.chain .power) (by omega) (by omega)
      exact ⟨.unsigned d', hpieces, hexpr⟩
    | term =>
      have := l.rank_le
      omega

/-! ## Longer chains -/

theorem NumericTail.exists_concat {p : Precedence} (t : NumericTail p) {o : InfixOperator}
    (h : o.precedence = p) (d : NumericPhrase p.operands) :
    ∃ t' : NumericTail p, t'.pieces = t.pieces ++ .token (.operator o.operator) :: d.pieces ∧
      ∀ left, t'.exprFrom left = .binary o (t.exprFrom left) d.expr := by
  match t with
  | .stop => exact ⟨.more o h d .stop, by simp [pieces], fun _ => by simp [exprFrom]⟩
  | .more o' h' d' rest =>
    obtain ⟨t', hpieces, hexpr⟩ := rest.exists_concat h d
    refine ⟨.more o' h' d' t', by simp [pieces, hpieces], fun left => ?_⟩
    rw [exprFrom, exprFrom, hexpr]

/-- One more operator and operand behind a chain. -/
theorem NumericPhrase.exists_binary (o : InfixOperator) (d : NumericPhrase (.chain o.precedence))
    (d' : NumericPhrase o.precedence.operands) :
    ∃ e : NumericPhrase (.chain o.precedence),
      e.pieces = d.pieces ++ .token (.operator o.operator) :: d'.pieces ∧
        e.expr = .binary o d.expr d'.expr := by
  cases d with
  | chain first rest =>
    obtain ⟨t, hpieces, hexpr⟩ := rest.exists_concat rfl d'
    refine ⟨.chain first t, by simp [pieces, hpieces], ?_⟩
    rw [expr, hexpr, expr]

theorem TextTail.exists_concat (t : TextTail) (d : TextTerm) :
    ∃ t' : TextTail, t'.pieces = t.pieces ++ .token (.operator .plus) :: d.pieces ∧
      ∀ left, t'.exprFrom left = .append (t.exprFrom left) d.expr := by
  match t with
  | .stop => exact ⟨.more d .stop, by simp [pieces], fun _ => by simp [exprFrom]⟩
  | .more d' rest =>
    obtain ⟨t', hpieces, hexpr⟩ := rest.exists_concat d
    refine ⟨.more d' t', by simp [pieces, hpieces], fun left => ?_⟩
    rw [exprFrom, exprFrom, hexpr]

@[inherit_doc NumericPhrase.exists_binary]
theorem TextPhrase.exists_append (d : TextPhrase) (d' : TextTerm) :
    ∃ e : TextPhrase, e.pieces = d.pieces ++ .token (.operator .plus) :: d'.pieces ∧
      e.expr = .append d.expr d'.expr := by
  cases d with
  | chain first rest =>
    obtain ⟨t, hpieces, hexpr⟩ := rest.exists_concat d'
    refine ⟨.chain first t, by simp [pieces, hpieces], ?_⟩
    rw [expr, hexpr, expr]

/-! ## Uniqueness -/

/-- Nothing at the beginning of the pieces continues an expression of this level. -/
def Level.Ends (l : Level) : List Piece → Prop
  | .token (.operator o) :: _ => ∀ i, o = InfixOperator.operator i → i.precedence.rank < l.rank
  | _ => True

theorem Level.Ends.mono {l l' : Level} {ps : List Piece} (h : l.Ends ps) (hl : l.rank ≤ l'.rank) :
    l'.Ends ps := by
  unfold Level.Ends at h ⊢
  split
  · intro i hi
    exact Nat.lt_of_lt_of_le (h i hi) hl
  · trivial

theorem InfixOperator.operator_injective {i j : InfixOperator} (h : i.operator = j.operator) :
    i = j :=
  Option.some.inj ((Operator.infix?_eq_some_iff.mpr rfl).symm.trans
    (Operator.infix?_eq_some_iff.mpr h))

theorem PrefixOperator.operator_injective {i j : PrefixOperator} (h : i.operator = j.operator) :
    i = j :=
  Option.some.inj ((Operator.prefix?_eq_some_iff.mpr rfl).symm.trans
    (Operator.prefix?_eq_some_iff.mpr h))

/-- What follows the first operand of a chain does not continue the operand. -/
theorem NumericTail.ends {p : Precedence} (t : NumericTail p) {ps : List Piece}
    (h : (Level.chain p).Ends ps) : p.operands.Ends (t.pieces ++ ps) := by
  have hp := p.rank_operands
  cases t with
  | stop => exact h.mono (by rw [hp]; exact Nat.le_succ _)
  | more o ho operand rest =>
    intro i hi
    rw [← InfixOperator.operator_injective hi, ho]
    omega

/-- Only an operand with signs begins with an operator. -/
theorem NumericPhrase.head_of_power (d : NumericPhrase (.chain .power)) (o : Operator)
    (ps qs : List Piece) : d.pieces ++ ps ≠ .token (.operator o) :: qs := by
  cases d with
  | chain first rest =>
    rw [pieces]
    cases first <;> simp [pieces]

mutual

theorem NumericPhrase.unique {l : Level} (d d' : NumericPhrase l) {ps ps' : List Piece}
    (h : d.pieces ++ ps = d'.pieces ++ ps') (hps : l.Ends ps) (hps' : l.Ends ps') :
    d = d' ∧ ps = ps' := by
  match d, d' with
  | .chain first rest, .chain first' rest' =>
    simp only [NumericPhrase.pieces, List.append_assoc] at h
    obtain ⟨rfl, hr⟩ := first.unique first' h (rest.ends hps) (rest'.ends hps')
    obtain ⟨rfl, he⟩ := rest.unique rest' hr hps hps'
    exact ⟨rfl, he⟩
  | .signed o d, .signed o' d' =>
    simp only [NumericPhrase.pieces, List.cons_append, List.cons.injEq, Piece.token.injEq,
      Token.operator.injEq] at h
    obtain ⟨ho, h⟩ := h
    obtain ⟨rfl, he⟩ := d.unique d' h hps hps'
    exact ⟨by rw [PrefixOperator.operator_injective ho], he⟩
  | .unsigned d, .unsigned d' =>
    have hle : Level.signs.rank ≤ (Level.chain .power).rank := by decide
    obtain ⟨rfl, hr⟩ := d.unique d' h (hps.mono hle) (hps'.mono hle)
    exact ⟨rfl, hr⟩
  | .signed o d, .unsigned d' => exact absurd h.symm (d'.head_of_power _ _ _)
  | .unsigned d, .signed o d' => exact absurd h (d.head_of_power _ _ _)
  | .enclosed d, .enclosed d' =>
    simp only [NumericPhrase.pieces, List.cons_append, List.append_assoc, List.cons.injEq,
      true_and] at h
    obtain ⟨rfl, h⟩ := d.unique d' h trivial trivial
    exact ⟨rfl, by simpa using h⟩
  | .apply n f d, .apply n' f' d' =>
    simp only [NumericPhrase.pieces, List.cons_append, List.append_assoc, List.cons.injEq,
      Piece.apply.injEq] at h
    obtain ⟨⟨rfl, rfl⟩, h⟩ := h
    obtain ⟨rfl, h⟩ := d.unique d' h trivial trivial
    exact ⟨rfl, by simpa using h⟩
  | .literal n, .literal n' => simpa [NumericPhrase.pieces] using h
  | .name n, .name n' => simpa [NumericPhrase.pieces] using h
  | .call n args, .call n' args' => simpa [NumericPhrase.pieces, and_assoc] using h
  | .literal _, .name _ | .literal _, .enclosed _ | .literal _, .call _ _
  | .literal _, .apply _ _ _ | .name _, .literal _ | .name _, .enclosed _
  | .name _, .call _ _ | .name _, .apply _ _ _ | .enclosed _, .literal _
  | .enclosed _, .name _ | .enclosed _, .call _ _ | .enclosed _, .apply _ _ _
  | .call _ _, .literal _ | .call _ _, .name _ | .call _ _, .enclosed _
  | .call _ _, .apply _ _ _ | .apply _ _ _, .literal _ | .apply _ _ _, .name _
  | .apply _ _ _, .enclosed _ | .apply _ _ _, .call _ _ => simp [NumericPhrase.pieces] at h

theorem NumericTail.unique {p : Precedence} (t t' : NumericTail p) {ps ps' : List Piece}
    (h : t.pieces ++ ps = t'.pieces ++ ps') (hps : (Level.chain p).Ends ps)
    (hps' : (Level.chain p).Ends ps') : t = t' ∧ ps = ps' := by
  match t, t' with
  | .stop, .stop => exact ⟨rfl, h⟩
  | .more o ho d rest, .more o' ho' d' rest' =>
    simp only [NumericTail.pieces, List.cons_append, List.append_assoc, List.cons.injEq,
      Piece.token.injEq, Token.operator.injEq] at h
    obtain ⟨hoo, h⟩ := h
    obtain ⟨rfl, hr⟩ := d.unique d' h (rest.ends hps) (rest'.ends hps')
    obtain ⟨rfl, he⟩ := rest.unique rest' hr hps hps'
    cases InfixOperator.operator_injective hoo
    exact ⟨rfl, he⟩
  | .stop, .more o ho d rest =>
    rw [show ps = _ from h] at hps
    exact absurd (hps o rfl) (by simp [ho, Level.rank])
  | .more o ho d rest, .stop =>
    rw [show ps' = _ from h.symm] at hps'
    exact absurd (hps' o rfl) (by simp [ho, Level.rank])

end

mutual

theorem TextPhrase.unique (d d' : TextPhrase) {ps ps' : List Piece}
    (h : d.pieces ++ ps = d'.pieces ++ ps') (hps : (Level.chain .additive).Ends ps)
    (hps' : (Level.chain .additive).Ends ps') : d = d' ∧ ps = ps' := by
  match d, d' with
  | .chain first rest, .chain first' rest' =>
    simp only [TextPhrase.pieces, List.append_assoc] at h
    obtain ⟨rfl, hr⟩ := first.unique first' h
    obtain ⟨rfl, he⟩ := rest.unique rest' hr hps hps'
    exact ⟨rfl, he⟩

theorem TextTail.unique (t t' : TextTail) {ps ps' : List Piece}
    (h : t.pieces ++ ps = t'.pieces ++ ps') (hps : (Level.chain .additive).Ends ps)
    (hps' : (Level.chain .additive).Ends ps') : t = t' ∧ ps = ps' := by
  match t, t' with
  | .stop, .stop => exact ⟨rfl, h⟩
  | .more d rest, .more d' rest' =>
    simp only [TextTail.pieces, List.cons_append, List.append_assoc, List.cons.injEq, true_and] at h
    obtain ⟨rfl, hr⟩ := d.unique d' h
    obtain ⟨rfl, he⟩ := rest.unique rest' hr hps hps'
    exact ⟨rfl, he⟩
  | .stop, .more d rest =>
    rw [show ps = _ from h] at hps
    exact absurd (hps .plus rfl) (by decide)
  | .more d rest, .stop =>
    rw [show ps' = _ from h.symm] at hps'
    exact absurd (hps' .plus rfl) (by decide)

theorem TextTerm.unique (d d' : TextTerm) {ps ps' : List Piece}
    (h : d.pieces ++ ps = d'.pieces ++ ps') : d = d' ∧ ps = ps' := by
  match d, d' with
  | .literal n, .literal n' => simpa [TextTerm.pieces] using h
  | .name n, .name n' => simpa [TextTerm.pieces] using h
  | .call n args, .call n' args' => simpa [TextTerm.pieces, and_assoc] using h
  | .enclosed d, .enclosed d' =>
    simp only [TextTerm.pieces, List.cons_append, List.append_assoc, List.cons.injEq, true_and] at h
    obtain ⟨rfl, h⟩ := d.unique d' h trivial trivial
    exact ⟨rfl, by simpa using h⟩
  | .literal _, .name _ | .literal _, .enclosed _ | .literal _, .call _ _ | .name _, .literal _
  | .name _, .enclosed _ | .name _, .call _ _ | .enclosed _, .literal _ | .enclosed _, .name _
  | .enclosed _, .call _ _ | .call _ _, .literal _ | .call _ _, .name _
  | .call _ _, .enclosed _ => simp [TextTerm.pieces] at h

end

/-- If expressions are unique before the end and before a semicolon, so are sequences of them. -/
theorem Segments.unique {δ : Type} {f : δ → List Piece} {E : List Piece → Prop} (hnil : E [])
    (hsemi : ∀ ps, E (.token .semicolon :: ps))
    (hf : ∀ d d' ps ps', f d ++ ps = f d' ++ ps' → E ps → E ps' → d = d' ∧ ps = ps')
    {s s' : Segments δ} (h : s.pieces f = s'.pieces f) : s = s' := by
  induction s generalizing s' with
  | last d =>
    cases s' with
    | last d' =>
      obtain ⟨rfl, _⟩ := hf d d' [] [] (by simpa [pieces] using h) hnil hnil
      rfl
    | next d' rest' =>
      obtain ⟨_, h⟩ := hf d d' [] _ (by simpa [pieces] using h) hnil (hsemi _)
      cases h
  | next d rest ih =>
    cases s' with
    | last d' =>
      obtain ⟨_, h⟩ := hf d d' _ [] (by simpa [pieces] using h) (hsemi _) hnil
      cases h
    | next d' rest' =>
      obtain ⟨rfl, hr⟩ := hf d d' _ _ h (hsemi _) (hsemi _)
      rw [ih (List.cons.inj hr).2]

end FormulaEngine
