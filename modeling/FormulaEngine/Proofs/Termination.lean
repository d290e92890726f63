import FormulaEngine.Proofs.Unfolding

/-! # Evaluation needs no bound

Four recursions of the definitions count down a number: the rounds of a chain of operators, the
parentheses of an expression, the segments of a formula, and the calls that stand in arguments of
calls. `Engine.Unbounded` says the same recursions without any number. They have exactly one
solution, and it is what the definitions compute: a token takes a character at least, every level
of the grammar takes a lexeme or fails and is entered again only behind one, and an argument is
shorter than the text that it is cut from. -/

namespace FormulaEngine

/-! ## Tokens -/

theorem Cursor.position_le_advanceBy (c : Cursor) (n : Nat) :
    c.position ≤ (c.advanceBy n).position := by
  simp [advanceBy, position]

namespace Lexer

/-- Reading a token moves the cursor forwards. -/
theorem position_lt_of_next {l l' : Lexer} {k : Token} (h : l.next = (.ok (.token k), l')) :
    l.cursor.position < l'.cursor.position := by
  have hspaces := l.cursor.position_le_advanceBy (spaces l.cursor.after)
  simp only [next] at h
  split at h
  · rename_i s w hs
    cases h
    have hw := Symbol.scan?_width hs
    rw [Cursor.position_advanceBy _ hw.2]
    omega
  · cases h

/-- Whatever is read, the cursor does not end before its beginning. -/
theorem tokenStart_le_position (l : Lexer) : l.next.2.tokenStart ≤ l.next.2.cursor.position := by
  simp only [next]
  split <;> exact Cursor.position_le_advanceBy _ _

end Lexer

theorem Lexemes.size_pos (s : Lexemes) : 0 < s.size := by
  cases s <;> simp [size]

/-! ## Loops -/

namespace Parser

section

variable {α : Type} {f g h : Lexemes → α} {m n : Nat}

/-- The functions do the same where at most `n` lexemes are left. -/
def Agree (n : Nat) (f g : Lexemes → α) : Prop := ∀ ⦃s⦄, s.size ≤ n → f s = g s

/-- There is always a lexeme left, if only the end. -/
theorem agree_zero : Agree 0 f g := fun s hs => absurd s.size_pos (by omega)

theorem Agree.mono (h : Agree n f g) (hm : m ≤ n) : Agree m f g :=
  fun _ hs => h (Nat.le_trans hs hm)

theorem Agree.symm (h : Agree n f g) : Agree n g f := fun _ hs => (h hs).symm

theorem Agree.trans (hf : Agree n f g) (hg : Agree n g h) : Agree n f h :=
  fun _ hs => (hf hs).trans (hg hs)

/-- The member of a family whose number is what is left. -/
def limit (e : Nat → Lexemes → α) : Lexemes → α := fun s => e s.size s

/-- A family that only changes where more is left than its number goes over into its limit. -/
theorem agree_limit {e : Nat → Lexemes → α} (h : ∀ n, Agree n (e n) (e (n + 1))) (n : Nat) :
    Agree n (e n) (limit e) := by
  intro s hs
  induction n, hs using Nat.le_induction with
  | base => rfl
  | succ n hn ih => rw [← h n hn, ih]

end

variable {ε : Type} {joins? : Token → Option (ε → ε → ε)} {operand operand' : Parser ε}
  {more more' : ε → Parser ε} {n : Nat}

/-- What the parser takes off a formula is a lexeme at least. -/
def Consumes (parse : Parser ε) : Prop :=
  ∀ ⦃s e s'⦄, parse s = .ok (e, s') → s'.size < s.size

theorem consumes_limit {e : Nat → Parser ε} (h : ∀ n, Consumes (e n)) : Consumes (limit e) :=
  fun s _ _ he => h s.size he

/-- One round of a chain: an operator and an operand, and then more of them. -/
def round (joins? : Token → Option (ε → ε → ε)) (operand : Parser ε) (more : ε → Parser ε)
    (left : ε) : Parser ε
  | .token p k rest =>
    match joins? k with
    | none => .ok (left, .token p k rest)
    | some join =>
      match operand rest with
      | .ok (right, rest) => more (join left right) rest
      | .error f => .error (f.after left)
  | s => .ok (left, s)

/-- An operand, and then more. -/
def followed (operand : Parser ε) (more : ε → Parser ε) : Parser ε := fun s =>
  match operand s with
  | .ok (left, rest) => more left rest
  | .error f => .error f

theorem chainRest_succ (n : Nat) (left : ε) :
    chainRest joins? operand (n + 1) left =
      round joins? operand (chainRest joins? operand n) left := by
  funext s
  cases s <;> rfl

/-- A round enters its operand, and the rounds after it, only behind a lexeme. -/
theorem agree_round (hc : Consumes operand) (ho : Agree n operand operand')
    (hm : ∀ left, Agree n (more left) (more' left)) (left : ε) :
    Agree (n + 1) (round joins? operand more left) (round joins? operand' more' left) := by
  intro s hs
  cases s with
  | token p k rest =>
    have hrest : rest.size ≤ n := Nat.le_of_succ_le_succ hs
    simp only [round, ← ho hrest]
    split
    · rfl
    · split
      · rename_i right rest' he
        exact hm _ (Nat.le_trans (Nat.le_of_lt (hc he)) hrest)
      · rfl
  | finish | invalid | openString | openCall | call | apply => rfl

/-- Rounds without a bound, where at most `n` lexemes are left. -/
def Loops (n : Nat) (joins? : Token → Option (ε → ε → ε)) (operand : Parser ε)
    (more : ε → Parser ε) : Prop :=
  ∀ left, Agree n (more left) (round joins? operand more left)

theorem Loops.mono {m : Nat} (h : Loops n joins? operand more) (hm : m ≤ n) :
    Loops m joins? operand more := fun left => (h left).mono hm

/-- The bound of a chain is not reached. -/
theorem loops_chainRest (hc : Consumes operand) (n : Nat) :
    Loops n joins? operand (chainRest joins? operand n) := by
  induction n with
  | zero => exact fun _ => agree_zero
  | succ n ih =>
    intro left
    nth_rewrite 1 [chainRest_succ]
    refine agree_round hc (fun _ _ => rfl) (fun left => ?_) left
    rw [chainRest_succ]
    exact ih left

theorem agree_chainRest (hc : Consumes operand) (ho : Agree n operand operand')
    (hl : Loops n joins? operand' more) (left : ε) :
    Agree n (chainRest joins? operand n left) (more left) := by
  induction n generalizing left with
  | zero => exact agree_zero
  | succ n ih =>
    rw [chainRest_succ]
    have ho' := ho.mono (Nat.le_succ n)
    exact (agree_round hc ho' (ih ho' (hl.mono (Nat.le_succ n))) left).trans (hl left).symm

theorem agree_chain (hc : Consumes operand) (ho : Agree (n + 1) operand operand')
    (hl : Loops n joins? operand' more) :
    Agree (n + 1) (chain joins? operand n) (followed operand' more) := by
  intro s hs
  simp only [chain, followed, ← ho hs]
  cases he : operand s with
  | error f => rfl
  | ok r =>
    have hrest := hc he
    exact agree_chainRest hc (ho.mono (Nat.le_succ n)) hl r.1 (by omega)

/-- The rounds of a chain of operands, both bounded by what is left. -/
def limitRounds (joins? : Token → Option (ε → ε → ε)) (operand : Nat → Parser ε) (left : ε) :
    Parser ε :=
  limit fun n => chainRest joins? (operand n) n left

section

variable {e : Nat → Parser ε}

theorem agree_limitRounds (hc : ∀ n, Consumes (e n)) (he : ∀ n, Agree n (e n) (e (n + 1)))
    (n : Nat) (left : ε) :
    Agree n (chainRest joins? (e n) n left) (limitRounds joins? e left) := by
  refine agree_limit (e := fun n => chainRest joins? (e n) n left) (fun m => ?_) n
  exact agree_chainRest (hc m) (he m)
    ((loops_chainRest (hc (m + 1)) (m + 1)).mono (Nat.le_succ m)) left

/-- Rounds that are bounded by what is left are rounds without a bound. -/
theorem loops_limitRounds (hc : ∀ n, Consumes (e n)) (he : ∀ n, Agree n (e n) (e (n + 1)))
    (n : Nat) : Loops n joins? (limit e) (limitRounds joins? e) := by
  intro left s _
  have hrounds : ∀ left, Agree s.size (chainRest joins? (e s.size) s.size left)
      (limitRounds joins? e left) := agree_limitRounds hc he s.size
  exact (loops_chainRest (hc s.size) s.size left (Nat.le_refl _)).trans
    (agree_round (hc s.size) (agree_limit he s.size) hrounds left (Nat.le_succ s.size))

end

/-- One segment of a formula, and then more of them. -/
def segment (expression : Parser ε) (more : Lexemes → Program ε) (s : Lexemes) : Program ε :=
  match expression s with
  | .error f => ⟨f.pending, .error f.error⟩
  | .ok (e, .finish _) => ⟨[], .ok e⟩
  | .ok (e, .token _ .semicolon rest) => (more rest).after e
  | .ok (e, s) => ⟨[e], .error s.unexpected⟩

/-- A segment is entered only behind the one before it. -/
theorem agree_segment {m m' : Lexemes → Program ε} (hc : Consumes operand)
    (ho : Agree (n + 1) operand operand') (hm : Agree n m m') :
    Agree (n + 1) (segment operand m) (segment operand' m') := by
  intro s hs
  unfold segment
  rw [← ho hs]
  split
  · rfl
  · rfl
  · rename_i e p rest he
    have hrest := hc he
    simp only [Lexemes.size] at hrest
    rw [hm (by omega)]
  · rfl

/-- The bound of the segments is not reached. -/
theorem agree_segments {m : Lexemes → Program ε} (hc : Consumes operand)
    (ho : Agree n operand operand') (hm : Agree n m (segment operand' m)) :
    Agree n (segments operand n) m := by
  induction n with
  | zero => exact agree_zero
  | succ n ih =>
    have hrest := ih (ho.mono (Nat.le_succ n)) (hm.mono (Nat.le_succ n))
    exact (agree_segment hc ho hrest).trans hm.symm

/-- Segments that are bounded by what is left are segments without a bound. -/
theorem limit_segments (hc : Consumes operand) (s : Lexemes) :
    limit (segments operand) s = segment operand (limit (segments operand)) s := by
  have hsucc : ∀ n, Agree n (segments operand n) (segments operand (n + 1)) := by
    intro n
    induction n with
    | zero => exact agree_zero
    | succ n ih => exact agree_segment hc (fun _ _ => rfl) ih
  exact (hsucc s.size (Nat.le_refl _)).trans
    (agree_segment hc (fun _ _ => rfl) (agree_limit hsucc s.size) (Nat.le_succ s.size))

theorem agree_enclosed (hi : Agree n operand operand') (missing : Lexemes → FormulaError) :
    Agree n (enclosed operand missing) (enclosed operand' missing) := by
  intro s hs
  simp only [enclosed, hi hs]

end Parser

open FormulaEngine.Parser (Agree Consumes Loops)

/-! ## The numeric grammar -/

namespace NumericExpr

theorem Sound.consumes {l : Level} {parse : Parser NumericExpr} (h : Sound l parse) :
    Consumes parse := by
  intro s e s' he
  obtain ⟨d, _, hs⟩ := h he
  have := length_pieces_pos d
  rw [hs.size_eq]
  omega

/-- An operand enters the expression in its parentheses only behind a lexeme. -/
theorem agree_term {n : Nat} {inner inner' : Parser NumericExpr} (h : Agree n inner inner') :
    Agree (n + 1) (term inner) (term inner') := by
  intro s hs
  cases s with
  | token p k rest =>
    have hrest : rest.size ≤ n := Nat.le_of_succ_le_succ hs
    cases k with
    | openParen => exact Parser.agree_enclosed h _ hrest
    | closeParen | semicolon | numeral | name | string | operator => rfl
  | apply p name f rest =>
    have hrest : rest.size ≤ n := Nat.le_of_succ_le_succ hs
    simp only [term, Parser.agree_enclosed h _ hrest]
  | finish | invalid | openString | openCall | call => rfl

theorem agree_signs {n : Nat} {operand operand' : Parser NumericExpr}
    (h : Agree n operand operand') : Agree n (signs operand) (signs operand') := by
  intro s
  induction s with
  | token p k rest ih =>
    intro hs
    cases k with
    | operator o =>
      have hrest : rest.size ≤ n := Nat.le_of_succ_le hs
      simp only [signs, h hs, ih hrest]
    | openParen | closeParen | semicolon | numeral | name | string => exact h hs
  | finish | invalid | openString | openCall | call | apply => exact fun hs => h hs

/-- A parser for each level of the grammar, and for the rounds of each precedence. -/
@[ext]
structure Descent where
  level : Level → Parser NumericExpr
  rounds : Precedence → NumericExpr → Parser NumericExpr

/-- The recursive descent without any bound. -/
structure Descent.Unbounded (d : Descent) : Prop where
  chain : ∀ p s, d.level (.chain p) s = Parser.followed (d.level p.operands) (d.rounds p) s
  rounds : ∀ p left s, d.rounds p left s =
    Parser.round (joins? p) (d.level p.operands) (d.rounds p) left s
  signs : ∀ s, d.level .signs s = signs (d.level (.chain .power)) s
  term : ∀ s, d.level .term s = term (d.level (.chain .bitwise)) s

/-- One layer of the descent around `inner`, where at most `n` lexemes are left behind the first
operand. -/
structure Descent.Layer (n : Nat) (inner : Parser NumericExpr) (d : Descent) : Prop where
  chain : ∀ p, d.level (.chain p) = Parser.followed (d.level p.operands) (d.rounds p)
  rounds : ∀ p, Loops n (joins? p) (d.level p.operands) (d.rounds p)
  signs : d.level .signs = NumericExpr.signs (d.level (.chain .power))
  term : d.level .term = NumericExpr.term inner

theorem Descent.Unbounded.layer {d : Descent} (h : d.Unbounded) (n : Nat) :
    d.Layer n (d.level (.chain .bitwise)) where
  chain p := funext (h.chain p)
  rounds p left s _ := h.rounds p left s
  signs := funext h.signs
  term := funext h.term

/-- The levels of a layer around the expressions in which parentheses nest less deeply than `n`. -/
def within (n : Nat) : Level → Parser NumericExpr :=
  let chain (p : Precedence) (operand : Parser NumericExpr) : Parser NumericExpr :=
    Parser.chain (joins? p) operand n
  let operand := term (expression n)
  let power := chain .power operand
  let signs := signs power
  let multiplicative := chain .multiplicative signs
  let additive := chain .additive multiplicative
  let relational := chain .relational additive
  fun
  | .term => operand
  | .chain .power => power
  | .signs => signs
  | .chain .multiplicative => multiplicative
  | .chain .additive => additive
  | .chain .relational => relational
  | .chain .bitwise => chain .bitwise relational

theorem within_chain (n : Nat) (p : Precedence) :
    within n (.chain p) = Parser.chain (joins? p) (within n p.operands) n := by
  cases p <;> rfl

theorem consumes_within (n : Nat) (l : Level) : Consumes (within n l) := by
  have term : Sound .term (within n .term) := sound_term (sound_expression n)
  have power : Sound (.chain .power) (within n (.chain .power)) := sound_chain (p := .power) term n
  have signs : Sound .signs (within n .signs) := sound_signs power
  have multiplicative : Sound _ (within n (.chain .multiplicative)) :=
    sound_chain (p := .multiplicative) signs n
  have additive : Sound _ (within n (.chain .additive)) :=
    sound_chain (p := .additive) multiplicative n
  have relational : Sound _ (within n (.chain .relational)) :=
    sound_chain (p := .relational) additive n
  have bitwise : Sound _ (within n (.chain .bitwise)) := sound_chain (p := .bitwise) relational n
  match l with
  | .term => exact term.consumes
  | .signs => exact signs.consumes
  | .chain .power => exact power.consumes
  | .chain .multiplicative => exact multiplicative.consumes
  | .chain .additive => exact additive.consumes
  | .chain .relational => exact relational.consumes
  | .chain .bitwise => exact bitwise.consumes

/-- The parsers with a bound, as a descent. -/
def bounded (n : Nat) : Descent where
  level := within n
  rounds p := Parser.chainRest (joins? p) (within n p.operands) n

theorem layer_bounded (n : Nat) : (bounded n).Layer n (expression n) where
  chain := within_chain n
  rounds p := Parser.loops_chainRest (consumes_within n p.operands) n
  signs := rfl
  term := rfl

/-- Layers around what is alike are alike, one lexeme further. -/
theorem Descent.Layer.agree {n : Nat} {d : Descent} {inner : Parser NumericExpr}
    (hd : d.Layer n inner) (hi : Agree n (expression n) inner) (l : Level) :
    Agree (n + 1) (within n l) (d.level l) := by
  have chain : ∀ p, Agree (n + 1) (within n p.operands) (d.level p.operands) →
      Agree (n + 1) (within n (.chain p)) (d.level (.chain p)) := by
    intro p h
    rw [within_chain, hd.chain]
    exact Parser.agree_chain (consumes_within n p.operands) h (hd.rounds p)
  have term : Agree (n + 1) (within n .term) (d.level .term) := by
    rw [hd.term]
    exact agree_term hi
  have power := chain .power term
  have signs : Agree (n + 1) (within n .signs) (d.level .signs) := by
    rw [hd.signs]
    exact agree_signs power
  have multiplicative := chain .multiplicative signs
  have additive := chain .additive multiplicative
  have relational := chain .relational additive
  match l with
  | .term => exact term
  | .signs => exact signs
  | .chain .power => exact power
  | .chain .multiplicative => exact multiplicative
  | .chain .additive => exact additive
  | .chain .relational => exact relational
  | .chain .bitwise => exact chain .bitwise relational

/-- The depth of an expression is not reached. -/
theorem Descent.Unbounded.agree {d : Descent} (hd : d.Unbounded) (n : Nat) (l : Level) :
    Agree (n + 1) (within n l) (d.level l) := by
  refine (hd.layer n).agree ?_ l
  induction n with
  | zero => exact Parser.agree_zero
  | succ n ih => exact (hd.layer n).agree ih (.chain .bitwise)

/-- One more parenthesis makes no difference where there are too few lexemes for it. -/
theorem agree_within_succ (n : Nat) (l : Level) :
    Agree (n + 1) (within n l) (within (n + 1) l) := by
  induction n generalizing l with
  | zero =>
    have hd : (bounded 1).Layer 0 (expression 1) :=
      { layer_bounded 1 with rounds := fun _ _ => Parser.agree_zero }
    exact hd.agree (Parser.agree_zero) l
  | succ n ih =>
    have hd : (bounded (n + 2)).Layer (n + 1) (expression (n + 2)) :=
      { layer_bounded (n + 2) with
        rounds := fun p => ((layer_bounded (n + 2)).rounds p).mono (Nat.le_succ (n + 1)) }
    exact hd.agree (ih (.chain .bitwise)) l

/-- The descent whose bounds are what is left. -/
def descent : Descent where
  level l := Parser.limit (within · l)
  rounds p := Parser.limitRounds (joins? p) (within · p.operands)

theorem agree_succ (n : Nat) (l : Level) : Agree n (within n l) (within (n + 1) l) :=
  (agree_within_succ n l).mono (Nat.le_succ n)

theorem agree_descent (n : Nat) (l : Level) : Agree (n + 1) (within n l) (descent.level l) :=
  (agree_within_succ n l).trans (Parser.agree_limit (agree_succ · l) (n + 1))

theorem unbounded_descent : descent.Unbounded where
  chain p s := by
    have hloops : Parser.Loops s.size (joins? p) _ _ :=
      Parser.loops_limitRounds (consumes_within · p.operands) (agree_succ · p.operands) s.size
    have hchain := Parser.agree_chain (consumes_within s.size p.operands)
      (agree_descent s.size p.operands) hloops (Nat.le_succ s.size)
    rw [← within_chain] at hchain
    exact hchain
  rounds p left s := Parser.loops_limitRounds (consumes_within · p.operands)
    (agree_succ · p.operands) s.size left (Nat.le_refl s.size)
  signs s := agree_signs (agree_descent s.size (.chain .power)) (Nat.le_succ s.size)
  term s := by
    refine agree_term (n := s.size) ?_ (Nat.le_succ s.size)
    match s.size with
    | 0 => exact Parser.agree_zero
    | n + 1 => exact agree_descent n (.chain .bitwise)

/-- There is only one descent without a bound. -/
theorem Descent.Unbounded.eq_descent {d : Descent} (hd : d.Unbounded) : d = descent := by
  ext1
  · funext l s
    exact (hd.agree s.size l (Nat.le_succ s.size)).symm
  · funext p left s
    have hoperand := (hd.agree s.size p.operands).mono (Nat.le_succ s.size)
    exact (Parser.agree_chainRest (consumes_within s.size p.operands) hoperand
      ((hd.layer s.size).rounds p) left (Nat.le_refl s.size)).symm

theorem consumes_descent (l : Level) : Consumes (descent.level l) :=
  Parser.consumes_limit fun n => consumes_within n l

/-- Parsing a formula takes no more parentheses and no more segments than its bounds allow. -/
theorem parse_eq (t : Text) :
    parse t = Parser.limit (Parser.segments (descent.level (.chain .bitwise)))
      (Lexemes.ofText .number t) := by
  have hexpression := (agree_descent (Lexemes.ofText .number t).size (.chain .bitwise)).mono
    (Nat.le_succ _)
  exact Parser.agree_segments (consumes_within _ (.chain .bitwise)) hexpression
    (fun s _ => Parser.limit_segments (consumes_descent _) s) (Nat.le_refl _)

end NumericExpr

/-! ## The text grammar -/

namespace TextExpr

/-- Parsers for operands and expressions, and for the rounds of the chain. -/
@[ext]
structure Descent where
  operand : Parser TextExpr
  expression : Parser TextExpr
  rounds : TextExpr → Parser TextExpr

@[inherit_doc NumericExpr.Descent.Unbounded]
structure Descent.Unbounded (d : Descent) : Prop where
  operand : ∀ s, d.operand s = term d.expression s
  expression : ∀ s, d.expression s = Parser.followed d.operand d.rounds s
  rounds : ∀ left s, d.rounds left s = Parser.round joins? d.operand d.rounds left s

theorem consumes_term (n : Nat) : Consumes (term (expression n)) := by
  intro s e s' he
  obtain ⟨d, _, hs⟩ := sound_term (sound_expression n) he
  have := length_pieces_pos d
  rw [hs.size_eq]
  omega

theorem consumes_expression (n : Nat) : Consumes (expression n) := by
  intro s e s' he
  obtain ⟨⟨first, rest⟩, _, hs⟩ := sound_expression n he
  have := length_pieces_pos first
  rw [hs.size_eq, TextPhrase.pieces, List.length_append]
  omega

@[inherit_doc NumericExpr.agree_term]
theorem agree_term {n : Nat} {inner inner' : Parser TextExpr} (h : Agree n inner inner') :
    Agree (n + 1) (term inner) (term inner') := by
  intro s hs
  cases s with
  | token p k rest =>
    have hrest : rest.size ≤ n := Nat.le_of_succ_le_succ hs
    cases k with
    | openParen => exact Parser.agree_enclosed h _ hrest
    | closeParen | semicolon | numeral | name | string | operator => rfl
  | finish | invalid | openString | openCall | call | apply => rfl

@[inherit_doc NumericExpr.Descent.Unbounded.agree]
theorem Descent.Unbounded.agree {d : Descent} (hd : d.Unbounded) (n : Nat) :
    Agree n (TextExpr.expression n) d.expression := by
  induction n with
  | zero => exact Parser.agree_zero
  | succ n ih =>
    have hoperand : Agree (n + 1) (term (TextExpr.expression n)) d.operand :=
      (agree_term ih).trans fun s _ => (hd.operand s).symm
    exact (Parser.agree_chain (consumes_term n) hoperand fun left s _ => hd.rounds left s).trans
      fun s _ => (hd.expression s).symm

@[inherit_doc NumericExpr.agree_within_succ]
theorem agree_expression_succ (n : Nat) : Agree n (expression n) (expression (n + 1)) := by
  induction n with
  | zero => exact Parser.agree_zero
  | succ n ih =>
    exact Parser.agree_chain (consumes_term n) (agree_term ih)
      ((Parser.loops_chainRest (consumes_term (n + 1)) (n + 1)).mono (Nat.le_succ n))

theorem agree_term_succ (n : Nat) :
    Agree n (term (expression n)) (term (expression (n + 1))) :=
  (agree_term (agree_expression_succ n)).mono (Nat.le_succ n)

@[inherit_doc NumericExpr.descent]
def descent : Descent where
  operand := Parser.limit fun n => term (expression n)
  expression := Parser.limit expression
  rounds := Parser.limitRounds joins? fun n => term (expression n)

theorem unbounded_descent : descent.Unbounded where
  operand s := agree_term (Parser.agree_limit agree_expression_succ s.size) (Nat.le_succ s.size)
  expression s := by
    have hoperand : Agree (s.size + 1) (term (expression s.size)) descent.operand :=
      (agree_term (agree_expression_succ s.size)).trans
        (Parser.agree_limit agree_term_succ (s.size + 1))
    exact (agree_expression_succ s.size (Nat.le_refl s.size)).trans
      (Parser.agree_chain (consumes_term s.size) hoperand
        (Parser.loops_limitRounds consumes_term agree_term_succ s.size) (Nat.le_succ s.size))
  rounds left s :=
    Parser.loops_limitRounds consumes_term agree_term_succ s.size left (Nat.le_refl s.size)

@[inherit_doc NumericExpr.Descent.Unbounded.eq_descent]
theorem Descent.Unbounded.eq_descent {d : Descent} (hd : d.Unbounded) : d = descent := by
  have hoperand : ∀ n, Agree (n + 1) (term (TextExpr.expression n)) d.operand :=
    fun n => (agree_term (hd.agree n)).trans fun s _ => (hd.operand s).symm
  ext1
  · funext s
    exact (hoperand s.size (Nat.le_succ s.size)).symm
  · funext s
    exact (hd.agree s.size (Nat.le_refl s.size)).symm
  · funext left s
    exact (Parser.agree_chainRest (consumes_term s.size) ((hoperand s.size).mono (Nat.le_succ _))
      (fun left s' _ => hd.rounds left s') left (Nat.le_refl s.size)).symm

@[inherit_doc NumericExpr.parse_eq]
theorem parse_eq (t : Text) :
    parse t = Parser.limit (Parser.segments descent.expression) (Lexemes.ofText .text t) := by
  have hexpression := (Parser.agree_limit agree_expression_succ
    ((Lexemes.ofText .text t).size + 1)).mono (Nat.le_succ _)
  exact Parser.agree_segments (consumes_expression _) hexpression
    (fun s _ => Parser.limit_segments (Parser.consumes_limit consumes_expression) s)
    (Nat.le_refl _)

end TextExpr

/-! ## Evaluation -/

/-- Everything that recurs in an evaluation: the levels of both grammars, the segments of a
formula, and the values of formulas. -/
@[ext]
structure Engine where
  numeric : NumericExpr.Descent
  textual : TextExpr.Descent
  numericSegments : Lexemes → Program NumericExpr
  textSegments : Lexemes → Program TextExpr
  number : Text → Run Float
  text : Text → Run Text

namespace Surroundings

variable (s : Surroundings)

/-- The context in which arguments are read in the given way. -/
def reading (number : Text → Run Float) (text : Text → Run Text) : Context Text :=
  { s with source := id, number, text }

end Surroundings

/-- The recursion of an evaluation without any bound. -/
structure Engine.Unbounded (s : Surroundings) (e : Engine) : Prop where
  numeric : e.numeric.Unbounded
  textual : e.textual.Unbounded
  numericSegments : ∀ l, e.numericSegments l =
    Parser.segment (e.numeric.level (.chain .bitwise)) e.numericSegments l
  textSegments : ∀ l, e.textSegments l =
    Parser.segment e.textual.expression e.textSegments l
  number : ∀ t, e.number t = (e.numericSegments (.ofText .number (normalize t))).eval
    (·.eval (s.reading e.number e.text))
  text : ∀ t, e.text t = (e.textSegments (.ofText .text (normalize t))).eval
    (·.eval (s.reading e.number e.text))

/-- Every level of both grammars takes a lexeme or fails, and a level, a round or a segment is
entered again only behind one: what is done with `n + 1` lexemes does not depend on what would be
done there with more than `n`. -/
structure Engine.Advances (e : Engine) : Prop where
  numeric : ∀ l, Consumes (e.numeric.level l)
  operand : Consumes e.textual.operand
  expression : Consumes e.textual.expression
  numericTerm : ∀ {n inner}, Agree n (e.numeric.level (.chain .bitwise)) inner →
    Agree (n + 1) (e.numeric.level .term) (NumericExpr.term inner)
  textTerm : ∀ {n inner}, Agree n e.textual.expression inner →
    Agree (n + 1) e.textual.operand (TextExpr.term inner)
  numericRounds : ∀ {n p operand more}, Agree n (e.numeric.level p.operands) operand →
    (∀ left, Agree n (e.numeric.rounds p left) (more left)) → ∀ left,
    Agree (n + 1) (e.numeric.rounds p left) (Parser.round (NumericExpr.joins? p) operand more left)
  textRounds : ∀ {n operand more}, Agree n e.textual.operand operand →
    (∀ left, Agree n (e.textual.rounds left) (more left)) → ∀ left,
    Agree (n + 1) (e.textual.rounds left) (Parser.round TextExpr.joins? operand more left)
  numericSegments : ∀ {n more}, Agree n e.numericSegments more →
    Agree (n + 1) e.numericSegments (Parser.segment (e.numeric.level (.chain .bitwise)) more)
  textSegments : ∀ {n more}, Agree n e.textSegments more →
    Agree (n + 1) e.textSegments (Parser.segment e.textual.expression more)

namespace Surroundings

variable (s : Surroundings)

/-- What the definitions compute. -/
def engine : Engine where
  numeric := NumericExpr.descent
  textual := TextExpr.descent
  numericSegments := Parser.limit (Parser.segments (NumericExpr.descent.level (.chain .bitwise)))
  textSegments := Parser.limit (Parser.segments TextExpr.descent.expression)
  number := s.evalNumber
  text := s.evalText

theorem unbounded_engine : s.engine.Unbounded s where
  numeric := NumericExpr.unbounded_descent
  textual := TextExpr.unbounded_descent
  numericSegments := Parser.limit_segments (NumericExpr.consumes_descent _)
  textSegments := Parser.limit_segments (Parser.consumes_limit TextExpr.consumes_expression)
  number t := by
    show s.evalNumber t = _
    rw [evalNumber_eq, NumericExpr.parse_eq]
    rfl
  text t := by
    show s.evalText t = _
    rw [evalText_eq, TextExpr.parse_eq]
    rfl

theorem advances_engine : s.engine.Advances where
  numeric := NumericExpr.consumes_descent
  operand := Parser.consumes_limit TextExpr.consumes_term
  expression := Parser.consumes_limit TextExpr.consumes_expression
  numericTerm h s hs := (NumericExpr.unbounded_descent.term s).trans (NumericExpr.agree_term h hs)
  textTerm h s hs := (TextExpr.unbounded_descent.operand s).trans (TextExpr.agree_term h hs)
  numericRounds ho hm left s hs := (NumericExpr.unbounded_descent.rounds _ left s).trans
    (Parser.agree_round (NumericExpr.consumes_descent _) ho hm left hs)
  textRounds ho hm left s hs := (TextExpr.unbounded_descent.rounds left s).trans
    (Parser.agree_round (Parser.consumes_limit TextExpr.consumes_term) ho hm left hs)
  numericSegments h l hl := (s.unbounded_engine.numericSegments l).trans
    (Parser.agree_segment (NumericExpr.consumes_descent _) (fun _ _ => rfl) h hl)
  textSegments h l hl := (s.unbounded_engine.textSegments l).trans
    (Parser.agree_segment (Parser.consumes_limit TextExpr.consumes_expression) (fun _ _ => rfl)
      h hl)

variable {s}

theorem length_normalize_le (t : Text) : (normalize t).length ≤ t.length := by
  refine (List.length_filter_le _ _).trans ?_
  exact Text.trim_length_le t

/-- There is only one evaluation without a bound, since arguments are shorter. -/
theorem eq_engine {e : Engine} (he : e.Unbounded s) : e = s.engine := by
  have numeric := he.numeric.eq_descent
  have textual := he.textual.eq_descent
  have numericSegments : e.numericSegments = s.engine.numericSegments := by
    funext l
    refine (Parser.agree_segments (NumericExpr.consumes_descent _) (fun _ _ => rfl) (fun l _ => ?_)
      (Nat.le_refl l.size)).symm
    rw [he.numericSegments, numeric]
  have textSegments : e.textSegments = s.engine.textSegments := by
    funext l
    refine (Parser.agree_segments (Parser.consumes_limit TextExpr.consumes_expression)
      (fun _ _ => rfl) (fun l _ => ?_) (Nat.le_refl l.size)).symm
    rw [he.textSegments, textual]
    rfl
  have values : ∀ t, e.number t = s.evalNumber t ∧ e.text t = s.evalText t := by
    intro t
    induction hl : (normalize t).length using Nat.strong_induction_on generalizing t with
    | _ l ih =>
      have harguments : ∀ x : Text, x.length < (normalize t).length → Text.trim x = x →
          x ⊆ normalize t → ∀ k, Intrinsic.Read .equality (s.reading e.number e.text) s.ambient
            k x x := by
        intro x hx _ _ k
        have hx' := ih _ (Nat.lt_of_le_of_lt (length_normalize_le x) (hl ▸ hx)) x rfl
        cases k with
        | number => exact hx'.1
        | text => exact hx'.2
      have halike : (s.reading e.number e.text).Alike s.ambient := ⟨rfl, rfl, rfl, rfl⟩
      have hcongr := evalProgram_congr halike rfl rfl harguments
      rw [he.number, he.text, numericSegments, textSegments, evalNumber_eq, evalText_eq,
        ← hcongr.1, ← hcongr.2, NumericExpr.parse_eq, TextExpr.parse_eq]
      exact ⟨rfl, rfl⟩
  ext1
  · exact numeric
  · exact textual
  · exact numericSegments
  · exact textSegments
  · exact funext fun t => (values t).1
  · exact funext fun t => (values t).2

variable (s)

/-- Evaluation ends without any bound. Tokens take characters, and the lexer does not fall back
behind the beginning of one; arguments are shorter than what they are cut from; every level of the
grammar takes lexemes and is entered again only behind them. So the recursion of the evaluation has
a solution, only one, and that is what formulas evaluate to. -/
theorem evaluation_needs_no_bound :
    (∀ (l l' : Lexer) (k : Token), l.next = (.ok (.token k), l') →
      l.cursor.position < l'.cursor.position) ∧
    (∀ l : Lexer, l.next.2.tokenStart ≤ l.next.2.cursor.position) ∧
    (∀ kind t name arguments, Piece.call name arguments ∈ (Lexemes.ofText kind t).pieces →
      ∀ x ∈ arguments, x.length < t.length) ∧
    ∃ e : Engine, e.Unbounded s ∧ (∀ e' : Engine, e'.Unbounded s → e' = e) ∧ e.Advances ∧
      e.number = s.evalNumber ∧ e.text = s.evalText := by
  refine ⟨fun _ _ _ h => Lexer.position_lt_of_next h, Lexer.tokenStart_le_position, ?_,
    s.engine, s.unbounded_engine, fun _ => eq_engine, s.advances_engine, rfl, rfl⟩
  intro kind t name arguments hcall x hx
  have hcut := Lexemes.all_iff.mp (Lexemes.read_cutFrom kind 0 t) _ hcall
  exact (hcut.argument hx).1

end Surroundings

end FormulaEngine
