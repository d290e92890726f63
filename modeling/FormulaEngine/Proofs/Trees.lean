import FormulaEngine.Proofs.Calls

/-! # Expression trees and how they are written

The expressions of the language as trees, numeric ones and those of texts. An argument of a call is
a formula of its own, of the kind that the function reads. Trees are written with parentheses only
where an operator binds too loosely for its place. What is written is parsed as the tree says. -/

namespace FormulaEngine

open Intrinsic (Parameters)

/-- A string literal in single quotes. -/
structure QuotedText where
  content : Text
  not_mem_quote : '\'' ∉ content
  unbroken : content.Unbroken

def QuotedText.toText (q : QuotedText) : Text := '\'' :: (q.content ++ ['\''])

structure Identifier where
  toText : Text
  isName : IsName toText

/-- Arguments of these kinds are of the kinds that are read. -/
def Intrinsic.Parameters.Accepts : Parameters → List ValueKind → Prop
  | each kinds, ks => ∀ p ∈ kinds.zip ks, p.1 = p.2
  | all kind, ks | values kind, ks => ∀ k ∈ ks, k = kind

instance (p : Parameters) (ks : List ValueKind) : Decidable (p.Accepts ks) :=
  match p with
  | .each _ | .all _ | .values _ => inferInstanceAs (Decidable (∀ _ ∈ _, _ = _))

/-- The arguments of a call are of the kinds that they are read as, where they are read: by a
function of the language, or as the only argument of another function among texts. -/
structure Takes (kind : ValueKind) (name : Text) (ks : List ValueKind) : Prop where
  own : ∀ p ∈ (Intrinsic.parameters kind).lookup (Text.foldCase name), p.Accepts ks
  single : kind = .text → Intrinsic.isIntrinsic name = false → ks.length = 1 → ks = [.text]

instance (kind : ValueKind) (name : Text) (ks : List ValueKind) : Decidable (Takes kind name ks) :=
  decidable_of_iff (_ ∧ _) ⟨fun ⟨own, single⟩ => ⟨own, single⟩, fun h => ⟨h.own, h.single⟩⟩

mutual

/-- An expression of a kind. -/
inductive Tree : ValueKind → Type where
  | numeral (l : NumberLiteral) : Tree .number
  | quoted (q : QuotedText) : Tree .text
  | name {k : ValueKind} (x : Identifier) : Tree k
  | signed (o : PrefixOperator) (e : Tree .number) : Tree .number
  | binary (o : SpelledOperator) (a b : Tree .number) : Tree .number
  | append (a b : Tree .text) : Tree .text
  | apply (x : Identifier) (f : Elementary) (h : Elementary.ofName? x.toText = some f)
      (e : Tree .number) : Tree .number
  | call {k : ValueKind} {ks : List ValueKind} (x : Identifier)
      (hx : Lexemes.elementary? k x.toText = none) (hks : Takes k x.toText ks)
      (arguments : Formulas ks) : Tree k

/-- Expressions of a kind one after the other. -/
inductive Formula : ValueKind → Type where
  | last {k : ValueKind} (e : Tree k) : Formula k
  | next {k : ValueKind} (e : Tree k) (rest : Formula k) : Formula k

/-- Formulas of these kinds. -/
inductive Formulas : List ValueKind → Type where
  | nil : Formulas []
  | cons {k : ValueKind} {ks : List ValueKind} (x : Formula k) (rest : Formulas ks) :
      Formulas (k :: ks)

end

/-- How tightly the outermost operator binds. -/
def Tree.level : {k : ValueKind} → Tree k → Level
  | _, .binary o _ _ => .chain o.operator.precedence
  | _, .signed _ _ => .signs
  | _, .append _ _ => .chain .additive
  | _, .numeral _ | _, .quoted _ | _, .name _ | _, .apply _ _ _ _ | _, .call _ _ _ _ => .term

/-- An expression of level `l` where one of level `l'` is needed: in parentheses if it binds too
loosely. -/
def Text.guarded (l l' : Level) (t : Text) : Text :=
  if l'.rank ≤ l.rank then t else '(' :: (t ++ [')'])

mutual

/-- The text of an expression, with so many spaces around infix operators and behind
semicolons. -/
def Tree.print (n : Nat) : {k : ValueKind} → Tree k → Text
  | _, .numeral l => l.toText
  | _, .quoted q => q.toText
  | _, .name x => x.toText
  | _, .signed o e => o.operator.toText ++ (e.print n).guarded e.level .signs
  | _, .binary o a b =>
    (a.print n).guarded a.level (.chain o.operator.precedence) ++
      (Text.gap n ++ o.spelling ++ Text.gap n) ++
      (b.print n).guarded b.level o.operator.precedence.operands
  | _, .append a b =>
    (a.print n).guarded a.level (.chain .additive) ++ (Text.gap n ++ ['+'] ++ Text.gap n) ++
      (b.print n).guarded b.level .term
  | _, .apply x _ _ e => Text.call x.toText [e.print n]
  | _, .call x _ _ arguments => Text.call x.toText (arguments.print n)

def Formula.print (n : Nat) : {k : ValueKind} → Formula k → Text
  | _, .last e => e.print n
  | _, .next e rest => e.print n ++ (';' :: Text.gap n) ++ rest.print n

def Formulas.print (n : Nat) : {ks : List ValueKind} → Formulas ks → List Text
  | _, .nil => []
  | _, .cons x rest => x.print n :: rest.print n

end

/-! ## What is written stands alone -/

theorem Text.Standalone.guarded {t : Text} (h : t.Standalone) (l l' : Level) :
    (t.guarded l l').Standalone := by
  unfold Text.guarded
  split
  · exact h
  · exact .enclosed h

theorem Symbol.isMark_of_mem_operator {w : Text} {o : Operator}
    (hw : (w, Token.operator o) ∈ punctuation) : ∀ c ∈ w, IsMark c := by
  have all : ∀ p ∈ punctuation, p.2.isOperator = true → ∀ c ∈ p.1, IsMark c := by decide
  exact all _ hw rfl

/-- Between two operands stand spaces and an operator. -/
theorem Text.Standalone.operands {t u : Text} (ht : t.Standalone) (n : Nat) {w : Text}
    {o : Operator} (hw : (w, Token.operator o) ∈ Symbol.punctuation) (hu : u.Standalone) :
    (t ++ (gap n ++ w ++ gap n) ++ u).Standalone := by
  refine ht.append (fun c hc => ?_) hu
  simp only [List.mem_append, gap, List.mem_replicate] at hc
  obtain (⟨_, rfl⟩ | hc) | ⟨_, rfl⟩ := hc
  · exact .inl rfl
  · exact .inr (Symbol.isMark_of_mem_operator hw c hc)
  · exact .inl rfl

theorem NumberLiteral.standalone (l : NumberLiteral) : l.toText.Standalone := by
  have digit : ∀ c : Char, c.isDigit = true → IsMark c := by
    have all : ∀ c ∈ "0123456789".toList, IsMark c := by decide
    exact fun c hc => all c (mem_digits_of_isDigit hc)
  obtain ⟨c, t, _, ht⟩ := l.exists_head []
  refine .of_marks (fun h => by simp [h] at ht) fun d hd => ?_
  unfold toText at hd
  split at hd
  · exact digit d (l.whole_digits d hd)
  · rename_i places hplaces
    simp only [List.mem_append, List.mem_cons] at hd
    obtain hd | rfl | hd := hd
    · exact digit d (l.whole_digits d hd)
    · decide
    · exact digit d (l.places_digits places hplaces d hd)

theorem PrefixOperator.standalone (o : PrefixOperator) : o.operator.toText.Standalone := by
  cases o <;> exact .of_marks (by decide) (by decide)

mutual

theorem Tree.standalone (n : Nat) {k : ValueKind} (e : Tree k) : (e.print n).Standalone := by
  match k, e with
  | _, .numeral l => exact l.standalone
  | _, .quoted q => exact .quoted q.not_mem_quote q.unbroken
  | _, .name x => exact .name x.isName
  | _, .signed o e =>
    simpa [Tree.print] using o.standalone.append (m := []) nofun
      ((e.standalone n).guarded e.level .signs)
  | _, .binary o a b =>
    exact ((a.standalone n).guarded _ _).operands n o.mem_punctuation ((b.standalone n).guarded _ _)
  | _, .append a b =>
    exact ((a.standalone n).guarded _ _).operands n (o := .plus) (by simp [Symbol.punctuation])
      ((b.standalone n).guarded _ _)
  | _, .apply x _ _ e => exact .call x.isName (by simpa using e.standalone n)
  | _, .call x _ _ arguments => exact .call x.isName (arguments.standalone n)

theorem Formula.standalone (n : Nat) {k : ValueKind} (x : Formula k) : (x.print n).Standalone := by
  match k, x with
  | _, .last e => exact e.standalone n
  | _, .next e rest =>
    refine (e.standalone n).append (m := ';' :: Text.gap n) (fun c hc => ?_) (rest.standalone n)
    rcases List.mem_cons.mp hc with rfl | hc
    · exact .inr (by decide)
    · exact .inl (List.eq_of_mem_replicate hc)

theorem Formulas.standalone (n : Nat) {ks : List ValueKind} (xs : Formulas ks) :
    ∀ t ∈ xs.print n, t.Standalone := by
  match ks, xs with
  | _, .nil => exact fun t ht => nomatch ht
  | _, .cons x rest => exact List.forall_mem_cons.mpr ⟨x.standalone n, rest.standalone n⟩

end

/-! ## What is written is parsed as the tree says -/

/-- Expressions of a kind. -/
abbrev ValueKind.Expr : ValueKind → Type
  | .number => NumericExpr
  | .text => TextExpr

/-- The expression of a tree, in which arguments are texts. -/
def Tree.expr (n : Nat) : {k : ValueKind} → Tree k → k.Expr
  | _, .numeral l => NumericExpr.literal l.value
  | _, .quoted q => TextExpr.literal q.content
  | .number, .name x => NumericExpr.name x.toText
  | .text, .name x => TextExpr.name x.toText
  | _, .signed o e => NumericExpr.signed o (e.expr n)
  | _, .binary o a b => NumericExpr.binary o.operator (a.expr n) (b.expr n)
  | _, .append a b => TextExpr.append (a.expr n) (b.expr n)
  | _, .apply _ f _ e => NumericExpr.apply f (e.expr n)
  | .number, .call x _ _ arguments => NumericExpr.call x.toText (arguments.print n)
  | .text, .call x _ _ arguments => TextExpr.call x.toText (arguments.print n)

def Formula.program (n : Nat) : {k : ValueKind} → Formula k → Program k.Expr
  | _, .last e => ⟨[], .ok (e.expr n)⟩
  | _, .next e rest => (rest.program n).after (e.expr n)

open Lexemes (Spells)

/-- The text spells a derivation of the expression, of this level. -/
def NumericExpr.Printed (l : Level) (t : Text) (e : NumericExpr) : Prop :=
  ∃ d : NumericPhrase l, d.expr = e ∧ Spells .number t d.pieces

namespace NumericExpr.Printed

variable {l : Level} {t u : Text} {e e' : NumericExpr}

theorem lift (h : e.Printed l t) {l' : Level} (hl : l'.rank ≤ l.rank) : e.Printed l' t := by
  obtain ⟨d, rfl, hd⟩ := h
  obtain ⟨d', hpieces, hexpr⟩ := d.exists_lift l' hl
  exact ⟨d', hexpr, hpieces ▸ hd⟩

theorem enclosed (h : e.Printed (.chain .bitwise) t) : e.Printed .term ('(' :: (t ++ [')'])) := by
  obtain ⟨d, rfl, hd⟩ := h
  exact ⟨.enclosed d, rfl, hd.enclosed⟩

theorem guarded (h : e.Printed l t) (l' : Level) : e.Printed l' (t.guarded l l') := by
  unfold Text.guarded
  split
  · rename_i hle
    exact h.lift hle
  · exact (h.lift (Nat.zero_le _)).enclosed.lift l'.rank_le

theorem signed (o : PrefixOperator) (h : e.Printed .signs t) :
    (NumericExpr.signed o e).Printed .signs (o.operator.toText ++ t) := by
  obtain ⟨d, rfl, hd⟩ := h
  exact ⟨.signed o d, rfl, hd.signed o⟩

theorem binary (o : SpelledOperator) (n : Nat) (h : e.Printed (.chain o.operator.precedence) t)
    (h' : e'.Printed o.operator.precedence.operands u) :
    (NumericExpr.binary o.operator e e').Printed (.chain o.operator.precedence)
      (t ++ (Text.gap n ++ o.spelling ++ Text.gap n) ++ u) := by
  obtain ⟨d, rfl, hd⟩ := h
  obtain ⟨d', rfl, hd'⟩ := h'
  obtain ⟨c, hpieces, hexpr⟩ := d.exists_binary o.operator d'
  refine ⟨c, hexpr, ?_⟩
  rw [hpieces]
  exact hd.binary o n hd'

theorem apply (x : Identifier) {f : Elementary} (hf : Elementary.ofName? x.toText = some f)
    (h : e.Printed (.chain .bitwise) t) :
    (NumericExpr.apply f e).Printed .term (Text.call x.toText [t]) := by
  obtain ⟨d, rfl, hd⟩ := h
  exact ⟨.apply x.toText f d, rfl, hd.apply x.isName hf⟩

end NumericExpr.Printed

theorem Tree.printed_number (n : Nat) (e : Tree .number) :
    (e.expr n).Printed e.level (e.print n) := by
  match e with
  | .numeral l => exact ⟨.literal l.value, rfl, .numeral l⟩
  | .name x => exact ⟨.name x.toText, rfl, .name x.isName⟩
  | .signed o e => exact ((e.printed_number n).guarded _).signed o
  | .binary o a b =>
    exact ((a.printed_number n).guarded _).binary o n ((b.printed_number n).guarded _)
  | .apply x f hf e => exact ((e.printed_number n).lift (Nat.zero_le _)).apply x hf
  | .call x hx _ arguments =>
    exact ⟨.call x.toText (arguments.print n), rfl, .call x.isName hx (arguments.standalone n)⟩

/-- The text spells a derivation of the expression, which is a single term if the level is that of
terms. -/
structure TextExpr.Printed (l : Level) (t : Text) (e : TextExpr) : Prop where
  phrase : ∃ d : TextPhrase, d.expr = e ∧ Spells .text t d.pieces
  term : l = .term → ∃ d : TextTerm, d.expr = e ∧ Spells .text t d.pieces

namespace TextExpr.Printed

variable {l : Level} {t u : Text} {e e' : TextExpr}

theorem of_term {d : TextTerm} (h : Spells .text t d.pieces) : d.expr.Printed l t where
  phrase := ⟨.chain d .stop, rfl, by simpa [TextPhrase.pieces, TextTail.pieces] using h⟩
  term _ := ⟨d, rfl, h⟩

theorem guarded (h : e.Printed l t) (l' : Level) : e.Printed l' (t.guarded l l') := by
  unfold Text.guarded
  split
  · rename_i hle
    refine ⟨h.phrase, ?_⟩
    rintro rfl
    exact h.term (Level.eq_of_rank_eq (Nat.le_antisymm l.rank_le hle))
  · obtain ⟨d, rfl, hd⟩ := h.phrase
    exact of_term (d := .enclosed d) hd.enclosed

theorem append (n : Nat) (h : e.Printed (.chain .additive) t) (h' : e'.Printed .term u) :
    (TextExpr.append e e').Printed (.chain .additive)
      (t ++ (Text.gap n ++ ['+'] ++ Text.gap n) ++ u) := by
  obtain ⟨d, rfl, hd⟩ := h.phrase
  obtain ⟨d', rfl, hd'⟩ := h'.term rfl
  obtain ⟨c, hpieces, hexpr⟩ := d.exists_append d'
  refine ⟨⟨c, hexpr, ?_⟩, nofun⟩
  rw [hpieces]
  exact hd.binary ⟨.plus, ['+'], by simp [Symbol.punctuation, InfixOperator.operator]⟩ n hd'

end TextExpr.Printed

theorem Tree.printed_text (n : Nat) (e : Tree .text) :
    (e.expr n).Printed e.level (e.print n) := by
  match e with
  | .quoted q => exact .of_term (d := .literal q.content) (.quoted q.not_mem_quote)
  | .name x => exact .of_term (d := .name x.toText) (.name x.isName)
  | .append a b => exact ((a.printed_text n).guarded _).append n ((b.printed_text n).guarded _)
  | .call x hx _ arguments =>
    exact .of_term (d := .call x.toText (arguments.print n))
      (.call x.isName hx (arguments.standalone n))

/-- A formula spells derivations of its expressions. -/
theorem Formula.printed_number (n : Nat) (x : Formula .number) :
    ∃ d : Segments (NumericPhrase (.chain .bitwise)),
      d.program NumericPhrase.expr = x.program n ∧
        Spells .number (x.print n) (d.pieces NumericPhrase.pieces) := by
  match x with
  | .last e =>
    have he : (e.expr n).Printed (.chain .bitwise) (e.print n) :=
      (e.printed_number n).lift (Nat.zero_le _)
    obtain ⟨d, hexpr, hd⟩ := he
    exact ⟨.last d, by rw [Segments.program, Formula.program, ← hexpr]; rfl, hd⟩
  | .next e rest =>
    have he : (e.expr n).Printed (.chain .bitwise) (e.print n) :=
      (e.printed_number n).lift (Nat.zero_le _)
    obtain ⟨d, hexpr, hd⟩ := he
    obtain ⟨ds, hprogram, hds⟩ := rest.printed_number n
    refine ⟨.next d ds, ?_, hd.next n hds⟩
    rw [Formula.program, ← hprogram, ← hexpr]
    rfl

@[inherit_doc Formula.printed_number]
theorem Formula.printed_text (n : Nat) (x : Formula .text) :
    ∃ d : Segments TextPhrase, d.program TextPhrase.expr = x.program n ∧
      Spells .text (x.print n) (d.pieces TextPhrase.pieces) := by
  match x with
  | .last e =>
    obtain ⟨d, hexpr, hd⟩ := (e.printed_text n).phrase
    exact ⟨.last d, by rw [Segments.program, Formula.program, ← hexpr]; rfl, hd⟩
  | .next e rest =>
    obtain ⟨d, hexpr, hd⟩ := (e.printed_text n).phrase
    obtain ⟨ds, hprogram, hds⟩ := rest.printed_text n
    refine ⟨.next d ds, ?_, hd.next n hds⟩
    rw [Formula.program, ← hprogram, ← hexpr]
    rfl

namespace Surroundings

variable (s : Surroundings) (n : Nat)

theorem evalNumber_print (x : Formula .number) :
    s.evalNumber (x.print n) = (x.program n).eval (·.eval s.ambient) := by
  obtain ⟨d, hprogram, hd⟩ := x.printed_number n
  rw [s.evalNumber_of_spells (x.standalone n).normalize_eq hd, hprogram]

theorem evalText_print (x : Formula .text) :
    s.evalText (x.print n) = (x.program n).eval (·.eval s.ambient) := by
  obtain ⟨d, hprogram, hd⟩ := x.printed_text n
  rw [s.evalText_of_spells (x.standalone n).normalize_eq hd, hprogram]

/-- A single expression has the value of its tree. -/
theorem evalNumber_printTree (e : Tree .number) :
    s.evalNumber (e.print n) = (e.expr n).eval s.ambient :=
  s.evalNumber_print n (.last e)

variable {s n} in
theorem result_printBinary (o : SpelledOperator) {a b : Tree .number} {v w : Float}
    (ha : (s.evalNumber (a.print n)).result = .ok v)
    (hb : (s.evalNumber (b.print n)).result = .ok w) :
    (s.evalNumber ((Tree.binary o a b).print n)).result =
      .ok (o.operator.apply s.tolerance v w) := by
  rw [evalNumber_printTree] at ha hb
  rw [evalNumber_printTree]
  show ((NumericExpr.binary o.operator (a.expr n) (b.expr n)).eval s.ambient).result = _
  rw [NumericExpr.eval, Run.bind_of_ok ha, Run.bind_of_ok hb]
  rfl

end Surroundings

end FormulaEngine
