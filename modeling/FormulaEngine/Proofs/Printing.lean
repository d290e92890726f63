import FormulaEngine.Proofs.Grammar
import FormulaEngine.Proofs.Standalone

/-! # Printed pieces

A text spells pieces when it is read as them, whatever closes the expression that it is a part of.
Every way of printing a piece or of putting pieces together has its lemma here. Spaces between
tokens change positions only. -/

namespace FormulaEngine

/-- A number as it is written: digits, and perhaps a point with further digits. -/
structure NumberLiteral where
  whole : Text
  places? : Option Text
  whole_ne : whole ≠ []
  whole_digits : ∀ c ∈ whole, c.isDigit = true
  places_digits : ∀ places, places? = some places → ∀ c ∈ places, c.isDigit = true
  fits : (Decimal.digitsValue whole : Int) ≤ Binary64.maxInt64

namespace NumberLiteral

def toText (l : NumberLiteral) : Text :=
  match l.places? with
  | none => l.whole
  | some places => l.whole ++ '.' :: places

def value (l : NumberLiteral) : Numeral :=
  match l.places? with
  | none => .whole (Decimal.digitsValue l.whole)
  | some places => .decimal (decimalValue (Decimal.digitsValue l.whole) places)

theorem exists_head (l : NumberLiteral) (rest : Text) :
    ∃ c t, c.isDigit = true ∧ l.toText ++ rest = c :: t := by
  obtain ⟨c, t, ht⟩ := List.exists_cons_of_ne_nil l.whole_ne
  have hc : c.isDigit = true := l.whole_digits c (by simp [ht])
  unfold toText
  split
  · exact ⟨c, _, hc, by rw [ht, List.cons_append]⟩
  · exact ⟨c, _, hc, by rw [ht, List.cons_append, List.cons_append]⟩

end NumberLiteral

/-- An infix operator in one of its spellings. -/
structure SpelledOperator where
  operator : InfixOperator
  spelling : Text
  mem_punctuation : (spelling, Token.operator operator.operator) ∈ Symbol.punctuation

/-- So many spaces. -/
def Text.gap (n : Nat) : Text := List.replicate n ' '

/-- The characters that infix operators begin with, and those that end an expression. -/
def closers : Text :=
  ['*', '/', '%', '+', '-', '<', '=', '>', '!', '|', '^', '&', ';', ')']

/-- What follows an expression: nothing, or one of the closers behind some spaces. -/
inductive Closes : Text → Prop
  | nil : Closes []
  | gap (n : Nat) {c : Char} (hc : c ∈ closers) (t : Text) : Closes (Text.gap n ++ c :: t)

theorem SpelledOperator.exists_closer (o : SpelledOperator) :
    ∃ c t, o.spelling = c :: t ∧ c ∈ closers := by
  have all : ∀ p ∈ Symbol.punctuation, ∀ k, p.2 = .operator k → k.infix? ≠ none →
      ∃ c t, p.1 = c :: t ∧ c ∈ closers := by
    simp [Symbol.punctuation, closers, Operator.infix?]
  refine all _ o.mem_punctuation _ rfl ?_
  rw [Operator.infix?_eq_some_iff.mpr rfl]
  exact Option.some_ne_none _

/-- The characters that make an operator longer. -/
def extenders : Text := ['*', '%', '=', '<', '>']

/-- The text does not make an operator longer that stands in front of it. -/
def Apart (t : Text) : Prop := ∀ c, t.head? = some c → c ∉ extenders

/-- The text begins neither with a space nor with what makes an operator longer. -/
def Begins (t : Text) : Prop := ∃ c, t.head? = some c ∧ c ≠ ' ' ∧ c ∉ extenders

theorem Begins.append {t : Text} (h : Begins t) (rest : Text) : Begins (t ++ rest) := by
  obtain ⟨c, hc, hb⟩ := h
  obtain ⟨r, rfl⟩ := List.head?_eq_some_iff.mp hc
  exact ⟨c, rfl, hb⟩

theorem Begins.apart {t : Text} (h : Begins t) : Apart t := by
  obtain ⟨c, hc, _, hb⟩ := h
  intro d hd
  cases hc.symm.trans hd
  exact hb

theorem Begins.unspaced {t : Text} (h : Begins t) : Lexer.unspaced t = t := by
  obtain ⟨c, hc, hspace, _⟩ := h
  obtain ⟨r, rfl⟩ := List.head?_eq_some_iff.mp hc
  exact Lexer.unspaced_cons hspace r

theorem Begins.apart_gap {t : Text} (h : Begins t) (n : Nat) : Apart (Text.gap n ++ t) := by
  cases n with
  | zero => exact h.apart
  | succ n =>
    intro c hc
    cases hc
    decide

theorem IsName.begins {n : Text} (h : IsName n) : Begins n := by
  obtain ⟨⟨c, hc, hstart⟩, _⟩ := h
  refine ⟨c, hc, ?_, fun hmem => ?_⟩
  · rintro rfl
    exact absurd hstart (by decide)
  · have all : ∀ c ∈ extenders, isNameStart c = false := by decide
    rw [all c hmem] at hstart
    cases hstart

theorem NumberLiteral.begins (l : NumberLiteral) : Begins l.toText := by
  obtain ⟨c, t, hc, ht⟩ := l.exists_head []
  rw [List.append_nil] at ht
  have all : ∀ c ∈ "0123456789".toList, c ≠ ' ' ∧ c ∉ extenders := by decide
  exact ⟨c, by rw [ht]; rfl, all c (mem_digits_of_isDigit hc)⟩

theorem Lexer.unspaced_gap (n : Nat) {c : Char} (h : c ≠ ' ') (t : Text) :
    unspaced (Text.gap n ++ c :: t) = c :: t := by
  have hspaces : spaces (Text.gap n ++ c :: t) = n := by
    rw [spaces, Text.gap, List.takeWhile_append_of_pos fun d hd => by
      simp [List.eq_of_mem_replicate hd]]
    simp [h]
  rw [unspaced, hspaces]
  exact List.drop_left' List.length_replicate

theorem Closes.head {t : Text} (h : Closes t) {c : Char} (hc : t.head? = some c) :
    c = ' ' ∨ c ∈ closers := by
  cases h with
  | nil => cases hc
  | gap n hmem t =>
    cases n with
    | zero =>
      cases hc
      exact .inr hmem
    | succ n =>
      cases hc
      exact .inl rfl

theorem Closes.endsName {t : Text} (h : Closes t) : EndsName t := by
  have all : ∀ c ∈ closers, isNamePart c = false := by decide
  intro c hc
  rcases h.head hc with rfl | hmem
  · decide
  · exact all c hmem

theorem Closes.not_digit {t : Text} (h : Closes t) {c : Char} (hc : t.head? = some c) :
    c.isDigit = false ∧ c ≠ '.' ∧ c ≠ ',' := by
  have all : ∀ c ∈ closers, c.isDigit = false ∧ c ≠ '.' ∧ c ≠ ',' := by decide
  rcases h.head hc with rfl | hmem
  · decide
  · exact all c hmem

theorem Closes.not_paren {t : Text} (h : Closes t) : (Lexer.unspaced t).head? ≠ some '(' := by
  have all : ∀ c ∈ closers, c ≠ ' ' ∧ c ≠ '(' := by decide
  cases h with
  | nil => exact fun h => nomatch h
  | @gap n c hc t =>
    obtain ⟨hspace, hparen⟩ := all c hc
    rw [Lexer.unspaced_gap n hspace]
    simpa using hparen

/-! ## Scanning what is printed -/

namespace Symbol

theorem scan?_numeral (l : NumberLiteral) {rest : Text} (hrest : Closes rest) :
    scan? (l.toText ++ rest) = some (.token (.numeral l.value), l.toText.length) := by
  obtain ⟨c, t, hc, ht⟩ := l.exists_head rest
  rw [ht, scan?_digit hc, ← ht]
  unfold NumberLiteral.toText NumberLiteral.value
  split
  · rw [scanNumeral_whole l.whole_digits l.fits fun d hd => hrest.not_digit hd]
  · rename_i places hplaces
    rw [List.append_assoc, List.cons_append, scanNumeral_decimal l.whole_digits l.fits (.inl rfl)
      (l.places_digits places hplaces) fun d hd => (hrest.not_digit hd).1]
    simp only [List.length_append, List.length_cons, Option.some.injEq, Prod.mk.injEq, true_and]
    omega

/-- The characters that punctuation begins with. -/
def marks : Text := punctuation.flatMap fun p => p.1.take 1

theorem scan?_mark {c : Char} (hc : c ∈ marks) (t : Text) :
    scan? (c :: t) = some (scanPunctuation (c :: t)) := by
  have all : ∀ c ∈ marks, ¬ (c = '\'' ∨ c = '"') ∧ ¬ c.isDigit = true ∧ ¬ isNameStart c = true := by
    decide
  obtain ⟨hquote, hdigit, hname⟩ := all c hc
  rw [scan?, if_neg hquote, if_neg hdigit, if_neg hname]

/-- No spelling begins with one that stands before it, and only operators become other punctuation
by a further character. -/
theorem pairwise_punctuation : punctuation.Pairwise fun p q => ¬ p.1 <+: q.1 ∧
    (q.1 <+: p.1 → q.2.isOperator = true ∧
      ∃ c ∈ extenders, (p.1.drop q.1.length).head? = some c) := by
  decide

/-- Punctuation is scanned as what it spells, if what follows an operator does not make it
longer. -/
theorem scan?_punctuation {w : Text} {k : Token} (hw : (w, k) ∈ punctuation) {rest : Text}
    (hrest : k.isOperator = true → Apart rest) :
    scan? (w ++ rest) = some (.token k, w.length) := by
  have hmark : ∀ p ∈ punctuation, ∃ c t, p.1 = c :: t ∧ c ∈ marks := by
    simp [punctuation, marks]
  have hfind : punctuation.find? (·.1.isPrefixOf (w ++ rest)) = some (w, k) := by
    obtain ⟨before, behind, hsplit⟩ := List.append_of_mem hw
    refine List.find?_eq_some_iff_append.mpr ⟨by simp, before, behind, hsplit, fun p hp => ?_⟩
    have hpairs := pairwise_punctuation
    rw [hsplit] at hpairs
    obtain ⟨hbefore, hlonger⟩ := (List.pairwise_append.mp hpairs).2.2 p hp _ (List.mem_cons_self ..)
    by_contra h
    have h : p.1 <+: w ++ rest := by simpa using h
    rcases List.prefix_or_prefix_of_prefix h (List.prefix_append w rest) with hpw | hwp
    · exact hbefore hpw
    · obtain ⟨hk, c, hc, hhead⟩ := hlonger hwp
      obtain ⟨u, hu⟩ := hwp
      rw [← hu, List.drop_left] at hhead
      rw [← hu, List.prefix_append_right_inj] at h
      obtain ⟨r, rfl⟩ := List.head?_eq_some_iff.mp hhead
      obtain ⟨v, rfl⟩ := h
      exact hrest hk c rfl hc
  obtain ⟨c, t, hct, hc⟩ := hmark _ hw
  have hscan : scan? (w ++ rest) = some (scanPunctuation (w ++ rest)) := by
    rw [show w = c :: t from hct]
    exact scan?_mark hc _
  rw [hscan, scanPunctuation, hfind]

end Symbol

namespace Lexemes

open FormulaEngine.Symbol Lexer

variable {kind : ValueKind}

/-- A space in front only moves what follows. -/
theorem read_space (p : Nat) (t : Text) : read kind p (' ' :: t) = read kind (p + 1) t := by
  have hstart : p + spaces (' ' :: t) = p + 1 + spaces t := by
    simp only [spaces, List.takeWhile_cons, beq_self_eq_true, if_true, List.length_cons]
    omega
  rw [read, read]
  simp only [hstart]
  rfl

theorem read_gap (n p : Nat) (t : Text) : read kind p (Text.gap n ++ t) = read kind (p + n) t := by
  induction n generalizing p with
  | zero => rfl
  | succ n ih =>
    show read kind p (' ' :: (Text.gap n ++ t)) = _
    rw [read_space, ih, Nat.add_right_comm, Nat.add_assoc]

variable (kind) in
/-- A token in front of a text. -/
theorem exists_read_token (p : Nat) {k : Token} {t rest : Text}
    (hs : scan? (t ++ rest) = some (.token k, t.length)) (hspace : unspaced (t ++ rest) = t ++ rest)
    (hk : ∀ n, k = .name n → (unspaced rest).head? ≠ some '(') :
    ∃ p' q, read kind p (t ++ rest) = token p' k (read kind q rest) := by
  have hdrop : (unspaced (t ++ rest)).drop t.length = rest := by
    rw [hspace, List.drop_left]
  rw [← hspace] at hs
  refine ⟨p + spaces (t ++ rest), p + spaces (t ++ rest) + t.length, ?_⟩
  rw [read_token hs (by rwa [hdrop]), hdrop]

variable (kind) in
theorem exists_read_punctuation (p : Nat) {w : Text} {k : Token} (hw : (w, k) ∈ punctuation)
    (rest : Text) (hrest : k.isOperator = true → Apart rest) :
    ∃ p' q, read kind p (w ++ rest) = token p' k (read kind q rest) := by
  have hhead : ∀ p ∈ punctuation, ∃ c t, p.1 = c :: t ∧ c ≠ ' ' := by
    simp [punctuation]
  have hname : ∀ p ∈ punctuation, ∀ n, p.2 ≠ .name n := by
    simp [punctuation]
  obtain ⟨c, t, hct, hc⟩ := hhead _ hw
  refine exists_read_token kind p (scan?_punctuation hw hrest) ?_ fun n hn =>
    absurd hn (hname _ hw n)
  rw [show w = c :: t from hct]
  exact unspaced_cons hc _

/-- Whatever closes the expression, the text is read as these pieces. -/
structure Spells (kind : ValueKind) (t : Text) (ps : List Piece) : Prop where
  begins : Begins t
  starts : ∀ p {rest}, Closes rest → ∃ q, Starts (read kind p (t ++ rest)) ps (read kind q rest)

namespace Spells

variable {t u : Text} {ps qs : List Piece}

/-- A formula that spells pieces is read as them up to its end. -/
theorem exists_finish (h : Spells kind t ps) (ht : normalize t = t) :
    ∃ q, Starts (ofText kind (normalize t)) ps (finish q) := by
  obtain ⟨q, hq⟩ := h.starts 0 .nil
  have hfinish : read kind q [] = finish (q + spaces []) := read_finish (w := 0) rfl
  rw [List.append_nil, hfinish] at hq
  rw [ht]
  exact ⟨_, hq⟩

theorem token {k : Token} (hb : Begins t)
    (hs : ∀ rest, Closes rest → scan? (t ++ rest) = some (.token k, t.length)) :
    Spells kind t [.token k] where
  begins := hb
  starts p rest hrest := by
    obtain ⟨p', q, hread⟩ := exists_read_token kind p (hs rest hrest)
      (hb.append rest).unspaced fun _ _ => hrest.not_paren
    rw [hread]
    exact ⟨q, .token .nil⟩

theorem numeral (l : NumberLiteral) : Spells kind l.toText [.token (.numeral l.value)] :=
  token l.begins fun _ => scan?_numeral l

theorem name {n : Text} (hn : IsName n) : Spells kind n [.token (.name n)] :=
  token hn.begins fun _ hrest => scan?_name hn hrest.endsName

theorem quoted (ht : '\'' ∉ t) : Spells kind ('\'' :: (t ++ ['\''])) [.token (.string t)] := by
  refine token ⟨'\'', rfl, by decide⟩ fun rest _ => ?_
  rw [List.cons_append, List.append_assoc]
  simpa using scan?_string (.inl rfl) ht rest

theorem call {n : Text} {ts : List Text} (hn : IsName n) (hf : elementary? kind n = none)
    (hts : ∀ t ∈ ts, t.Standalone) : Spells kind (Text.call n ts) [.call n ts] where
  begins := hn.begins.append _
  starts p rest _ := by
    obtain ⟨p', q, hread⟩ := exists_read_call p rest hn hf (fun t ht => (hts t ht).tight)
      fun t ht => (hts t ht).argument
    refine ⟨q, ?_⟩
    rw [Text.call, List.append_assoc, List.cons_append, List.append_assoc, List.singleton_append,
      hread]
    exact .call .nil

/-- Punctuation that closes an expression follows its pieces. -/
theorem starts_punctuation (h : Spells kind t ps) {w : Text} {k : Token}
    (hw : (w, k) ∈ punctuation) (hc : ∃ c r, w = c :: r ∧ c ∈ closers) (n p : Nat) (rest : Text)
    (hrest : k.isOperator = true → Apart rest) :
    ∃ q, Starts (read kind p (t ++ (Text.gap n ++ (w ++ rest)))) (ps ++ [.token k])
      (read kind q rest) := by
  obtain ⟨c, r, hcr, hc⟩ := hc
  have hcloses : Closes (Text.gap n ++ (w ++ rest)) := by
    rw [hcr]
    exact .gap n hc (r ++ rest)
  obtain ⟨q, hq⟩ := h.starts p hcloses
  obtain ⟨p', q', hread⟩ := exists_read_punctuation kind (q + n) hw rest hrest
  rw [read_gap, hread] at hq
  exact ⟨q', hq.append (.token .nil)⟩

theorem signed (o : PrefixOperator) (h : Spells kind t ps) :
    Spells kind (o.operator.toText ++ t) (.token (.operator o.operator) :: ps) where
  begins := by cases o <;> exact ⟨_, rfl, by decide⟩
  starts p rest hrest := by
    have hw : (o.operator.toText, Token.operator o.operator) ∈ punctuation := by
      cases o <;> simp [punctuation, PrefixOperator.operator, Operator.toText]
    obtain ⟨p', q, hread⟩ := exists_read_punctuation kind p hw (t ++ rest)
      fun _ => (h.begins.append rest).apart
    obtain ⟨q', hq⟩ := h.starts q hrest
    rw [List.append_assoc, hread]
    exact ⟨q', .token hq⟩

theorem binary (o : SpelledOperator) (n : Nat) (h : Spells kind t ps) (h' : Spells kind u qs) :
    Spells kind (t ++ (Text.gap n ++ o.spelling ++ Text.gap n) ++ u)
      (ps ++ .token (.operator o.operator.operator) :: qs) where
  begins := (h.begins.append _).append _
  starts p rest hrest := by
    obtain ⟨q, hq⟩ := h.starts_punctuation o.mem_punctuation o.exists_closer n p
      (Text.gap n ++ (u ++ rest)) fun _ => (h'.begins.append rest).apart_gap n
    obtain ⟨q', hq'⟩ := h'.starts (q + n) hrest
    rw [read_gap] at hq
    refine ⟨q', ?_⟩
    simpa using hq.append hq'

theorem next (n : Nat) (h : Spells kind t ps) (h' : Spells kind u qs) :
    Spells kind (t ++ (';' :: Text.gap n) ++ u) (ps ++ .token .semicolon :: qs) where
  begins := (h.begins.append _).append _
  starts p rest hrest := by
    have hw : ([';'], Token.semicolon) ∈ punctuation := by simp [punctuation]
    obtain ⟨q, hq⟩ := h.starts_punctuation hw ⟨';', [], rfl, by decide⟩ 0 p
      (Text.gap n ++ (u ++ rest)) fun hk => by cases hk
    obtain ⟨q', hq'⟩ := h'.starts (q + n) hrest
    rw [read_gap] at hq
    refine ⟨q', ?_⟩
    simpa [Text.gap] using hq.append hq'

theorem starts_closeParen (h : Spells kind t ps) (p : Nat) (rest : Text) :
    ∃ q, Starts (read kind p (t ++ ')' :: rest)) (ps ++ [.token .closeParen])
      (read kind q rest) := by
  have hw : ([')'], Token.closeParen) ∈ punctuation := by simp [punctuation]
  simpa [Text.gap] using h.starts_punctuation hw ⟨')', [], rfl, by decide⟩ 0 p rest
    fun hk => by cases hk

theorem enclosed (h : Spells kind t ps) :
    Spells kind ('(' :: (t ++ [')'])) (.token .openParen :: (ps ++ [.token .closeParen])) where
  begins := ⟨'(', rfl, by decide⟩
  starts p rest _ := by
    have hw : (['('], Token.openParen) ∈ punctuation := by simp [punctuation]
    obtain ⟨p', q, hread⟩ :=
      exists_read_punctuation kind p hw (t ++ ')' :: rest) fun hk => by cases hk
    obtain ⟨q', hq⟩ := h.starts_closeParen q rest
    refine ⟨q', ?_⟩
    rw [List.cons_append, List.append_assoc]
    rw [List.singleton_append] at hread
    exact hread ▸ .token hq

theorem apply {n : Text} {f : Elementary} (hn : IsName n) (hf : elementary? kind n = some f)
    (h : Spells kind t ps) :
    Spells kind (Text.call n [t]) (.apply n f :: (ps ++ [.token .closeParen])) where
  begins := hn.begins.append _
  starts p rest _ := by
    obtain ⟨p', q, hread⟩ := exists_read_apply p (t ++ ')' :: rest) hn hf
    obtain ⟨q', hq⟩ := h.starts_closeParen q rest
    refine ⟨q', ?_⟩
    rw [Text.call, Text.join_singleton, List.append_assoc, List.cons_append, List.append_assoc,
      List.singleton_append, hread]
    exact .apply hq

end Spells

end Lexemes

end FormulaEngine
