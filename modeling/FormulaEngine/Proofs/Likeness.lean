import FormulaEngine.Proofs.Termination

/-! # Formulas that are parsed alike

Parsing looks at the sorts of tokens and at operators. Places, names and the arguments of calls it
passes on as they are. So lexemes that differ in these only become expressions that differ in these
only, after the same steps and with alike errors. A likeness says which differences there may be. -/

namespace FormulaEngine

/-- Two tokens of the same sort, which may differ in the names that they are. -/
inductive Token.Alike (name : Text → Text → Prop) : Token → Token → Prop
  | openParen : Alike name .openParen .openParen
  | closeParen : Alike name .closeParen .closeParen
  | semicolon : Alike name .semicolon .semicolon
  | numeral (n : Numeral) : Alike name (.numeral n) (.numeral n)
  | string (content : Text) : Alike name (.string content) (.string content)
  | name {n n' : Text} (h : name n n') : Alike name (.name n) (.name n')
  | operator (o : Operator) : Alike name (.operator o) (.operator o)

@[inherit_doc Token.Alike]
inductive Symbol.Alike (name : Text → Text → Prop) : Symbol → Symbol → Prop
  | finish : Alike name .finish .finish
  | invalid : Alike name .invalid .invalid
  | token {k k' : Token} (h : k.Alike name k') : Alike name (.token k) (.token k')

/-- What may differ between two formulas: places, names, calls, and what errors tell of them. -/
structure Likeness where
  place : ℕ → ℕ → Prop
  name : Text → Text → Prop
  call : Text → List Text → Text → List Text → Prop
  error : FormulaError → FormulaError → Prop
  badGrammar : ∀ {p p' : ℕ} {k k' : Symbol} (message : Symbol → Text), place p p' →
    k.Alike name k' → error ((FormulaError.badGrammar p).saying (message k))
      ((FormulaError.badGrammar p').saying (message k'))
  functionFailure : ∀ {p p' : ℕ} {n n' : Text} {k k' : Symbol} (message : Symbol → Text),
    place p p' → name n n' → k.Alike name k' →
      error (((FormulaError.functionFailure n).locatedAt p).saying (message k))
        (((FormulaError.functionFailure n').locatedAt p').saying (message k'))

/-- Lexemes of the same sorts, one after the other. -/
inductive Lexemes.Alike (L : Likeness) : Lexemes → Lexemes → Prop
  | finish {p p' : ℕ} (hp : L.place p p') : Alike L (.finish p) (.finish p')
  | invalid {p p' : ℕ} (hp : L.place p p') : Alike L (.invalid p) (.invalid p')
  | openString {e e' : FormulaError} (h : L.error e e') : Alike L (.openString e) (.openString e')
  | openCall {p p' : ℕ} {n n' : Text} {e e' : FormulaError} (hp : L.place p p')
      (hn : L.name n n') (h : L.error e e') : Alike L (.openCall p n e) (.openCall p' n' e')
  | token {p p' : ℕ} {k k' : Token} {s s' : Lexemes} (hp : L.place p p')
      (hk : k.Alike L.name k') (h : Alike L s s') : Alike L (.token p k s) (.token p' k' s')
  | call {p p' : ℕ} {n n' : Text} {xs ys : List Text} {s s' : Lexemes} (hp : L.place p p')
      (hn : L.name n n') (hc : L.call n xs n' ys) (h : Alike L s s') :
      Alike L (.call p n xs s) (.call p' n' ys s')
  | apply {p p' : ℕ} {n n' : Text} (f : Elementary) {s s' : Lexemes} (hp : L.place p p')
      (hn : L.name n n') (h : Alike L s s') : Alike L (.apply p n f s) (.apply p' n' f s')

namespace Lexemes.Alike

variable {L : Likeness} {s s' : Lexemes}

theorem size_eq (h : s.Alike L s') : s.size = s'.size := by
  induction h with
  | finish | invalid | openString | openCall => rfl
  | token _ _ _ ih | call _ _ _ _ ih | apply _ _ _ _ ih => rw [size, size, ih]

theorem complain {found found' : ℕ → Symbol → FormulaError} (h : s.Alike L s')
    (hfound : ∀ {p p' k k'}, L.place p p' → k.Alike L.name k' →
      L.error (found p k) (found' p' k')) :
    L.error (s.complain found) (s'.complain found') := by
  cases h with
  | finish hp => exact hfound hp .finish
  | invalid hp => exact hfound hp .invalid
  | openString he => exact he
  | openCall hp hn | call hp hn | apply _ hp hn => exact hfound hp (.token (.name hn))
  | token hp hk => exact hfound hp (.token hk)

theorem unexpected (h : s.Alike L s') : L.error s.unexpected s'.unexpected :=
  h.complain (L.badGrammar fun found =>
    "unexpected ".toList ++ (if found.isOperator then "operator ".toList else []) ++ found.toText)

theorem missingParen (h : s.Alike L s') {n n' : Text} (hn : L.name n n') :
    L.error (NumericExpr.missingParen n s) (NumericExpr.missingParen n' s') :=
  h.complain fun hp hk =>
    L.functionFailure (fun found => "expected ')', found ".toList ++ found.toText) hp hn hk

end Lexemes.Alike

/-- Programs with related steps, which end in related expressions or in alike errors. -/
structure Program.Alike {ε : Type} (L : Likeness) (R : ε → ε → Prop) (p p' : Program ε) :
    Prop where
  steps : List.Forall₂ R p.steps p'.steps
  ending : (∃ e e', p.ending = .ok e ∧ p'.ending = .ok e' ∧ R e e') ∨
    ∃ e e', p.ending = .error e ∧ p'.ending = .error e' ∧ L.error e e'

namespace Parser

variable {ε : Type} {L : Likeness} {R : ε → ε → Prop} {operand inner : Parser ε}
  {joins? : Token → Option (ε → ε → ε)}

/-- Related expressions with alike lexemes behind them, or alike errors after related steps. -/
inductive Outcome (L : Likeness) (R : ε → ε → Prop) :
    Except (Fault ε) (ε × Lexemes) → Except (Fault ε) (ε × Lexemes) → Prop
  | ok {e e' : ε} {s s' : Lexemes} (he : R e e') (h : s.Alike L s') :
      Outcome L R (.ok (e, s)) (.ok (e', s'))
  | error {es es' : List ε} {e e' : FormulaError} (hes : List.Forall₂ R es es')
      (he : L.error e e') : Outcome L R (.error ⟨es, e⟩) (.error ⟨es', e'⟩)

/-- The parser does alike with alike lexemes. -/
def Respects (L : Likeness) (R : ε → ε → Prop) (parse : Parser ε) : Prop :=
  ∀ ⦃s s' : Lexemes⦄, s.Alike L s' → Outcome L R (parse s) (parse s')

theorem Respects.limit {e : ℕ → Parser ε} (h : ∀ n, Respects L R (e n)) :
    Respects L R (limit e) := by
  intro s s' hs
  show Outcome L R (e s.size s) (e s'.size s')
  rw [← hs.size_eq]
  exact h s.size hs

theorem respects_fail : Respects L R (fail (ε := ε)) :=
  fun _ _ h => .error .nil h.unexpected

/-- What joins operands depends on operators only, and relates what is joined. -/
structure Joins (L : Likeness) (R : ε → ε → Prop) (joins? : Token → Option (ε → ε → ε)) :
    Prop where
  eq_of_alike : ∀ {k k' : Token}, k.Alike L.name k' → joins? k = joins? k'
  related : ∀ {k join a a' b b'}, joins? k = some join → R a a' → R b b' →
    R (join a b) (join a' b')

theorem outcome_chainRest (ho : Respects L R operand) (hj : Joins L R joins?) (fuel : ℕ)
    {left left' : ε} (hleft : R left left') {s s' : Lexemes} (h : s.Alike L s') :
    Outcome L R (chainRest joins? operand fuel left s)
      (chainRest joins? operand fuel left' s') := by
  induction fuel generalizing left left' s s' with
  | zero => exact .ok hleft h
  | succ fuel ih =>
    have hstop : Outcome L R (.ok (left, s)) (.ok (left', s')) := .ok hleft h
    cases h with
    | token hp hk hrest =>
      rw [chainRest, chainRest, ← hj.eq_of_alike hk]
      cases hjoin : joins? _ with
      | none => exact hstop
      | some join =>
        have hright := ho hrest
        dsimp only
        generalize operand _ = r at hright ⊢
        generalize operand _ = r' at hright ⊢
        cases hright with
        | ok he hs => exact ih (hj.related hjoin hleft he) hs
        | error hes he => exact .error (.cons hleft hes) he
    | finish | invalid | openString | openCall | call | apply => exact hstop

theorem respects_chain (ho : Respects L R operand) (hj : Joins L R joins?) (fuel : ℕ) :
    Respects L R (chain joins? operand fuel) := by
  intro s s' h
  have hleft := ho h
  unfold chain
  generalize operand s = r at hleft ⊢
  generalize operand s' = r' at hleft ⊢
  cases hleft with
  | ok he hs => exact outcome_chainRest ho hj fuel he hs
  | error hes he => exact .error hes he

theorem outcome_enclosed (hi : Respects L R inner) {missing missing' : Lexemes → FormulaError}
    (hmissing : ∀ {s s' : Lexemes}, s.Alike L s' → L.error (missing s) (missing' s'))
    {s s' : Lexemes} (h : s.Alike L s') :
    Outcome L R (enclosed inner missing s) (enclosed inner missing' s') := by
  have hinner := hi h
  unfold enclosed
  generalize inner s = r at hinner ⊢
  generalize inner s' = r' at hinner ⊢
  cases hinner with
  | @ok e e' t t' he ht =>
    have hopen : Outcome L R (.error ⟨[e], missing t⟩) (.error ⟨[e'], missing' t'⟩) :=
      .error (.cons he .nil) (hmissing ht)
    cases ht with
    | token hp hk hrest =>
      cases hk with
      | closeParen => exact .ok he hrest
      | openParen | semicolon | numeral | string | name | operator => exact hopen
    | finish | invalid | openString | openCall | call | apply => exact hopen
  | error hes he => exact .error hes he

theorem outcome_name {make : Text → ε} {n n' : Text} (hn : R (make n) (make n'))
    {s s' : Lexemes} (h : s.Alike L s') : Outcome L R (name make n s) (name make n' s') := by
  have hok : Outcome L R (.ok (make n, s)) (.ok (make n', s')) := .ok hn h
  cases h with
  | openString he => exact .error .nil he
  | finish | invalid | openCall | token | call | apply => exact hok

theorem alike_segments (hi : Respects L R inner) (fuel : ℕ) {s s' : Lexemes}
    (h : s.Alike L s') : (segments inner fuel s).Alike L R (segments inner fuel s') := by
  induction fuel generalizing s s' with
  | zero => exact ⟨.nil, .inr ⟨_, _, rfl, rfl, h.unexpected⟩⟩
  | succ fuel ih =>
    have hinner := hi h
    unfold segments
    generalize inner s = r at hinner ⊢
    generalize inner s' = r' at hinner ⊢
    cases hinner with
    | @ok e e' t t' he ht =>
      have hunexpected : Program.Alike L R ⟨[e], .error t.unexpected⟩ ⟨[e'], .error t'.unexpected⟩ :=
        ⟨.cons he .nil, .inr ⟨_, _, rfl, rfl, ht.unexpected⟩⟩
      cases ht with
      | finish => exact ⟨.nil, .inl ⟨_, _, rfl, rfl, he⟩⟩
      | token hp hk hrest =>
        cases hk with
        | semicolon =>
          obtain ⟨hsteps, hending⟩ := ih hrest
          exact ⟨.cons he hsteps, hending⟩
        | openParen | closeParen | numeral | string | name | operator => exact hunexpected
      | invalid | openString | openCall | call | apply => exact hunexpected
    | error hes he => exact ⟨hes, .inr ⟨_, _, rfl, rfl, he⟩⟩

/-- The segments that are left, whatever bounds them. -/
theorem alike_limit_segments (hi : Respects L R inner) {s s' : Lexemes} (h : s.Alike L s') :
    (limit (segments inner) s).Alike L R (limit (segments inner) s') := by
  rw [limit, limit, ← h.size_eq]
  exact alike_segments hi s.size h

end Parser

open FormulaEngine.Parser (Respects Outcome Joins)

/-! ## The two grammars -/

/-- Expressions of the same form, which may differ in names and calls. -/
inductive NumericExpr.Alike (L : Likeness) : NumericExpr → NumericExpr → Prop
  | literal (n : Numeral) : Alike L (.literal n) (.literal n)
  | name {n n' : Text} (h : L.name n n') : Alike L (.name n) (.name n')
  | signed (o : PrefixOperator) {e e' : NumericExpr} (h : Alike L e e') :
      Alike L (.signed o e) (.signed o e')
  | binary (o : InfixOperator) {a a' b b' : NumericExpr} (ha : Alike L a a')
      (hb : Alike L b b') : Alike L (.binary o a b) (.binary o a' b')
  | apply (f : Elementary) {e e' : NumericExpr} (h : Alike L e e') :
      Alike L (.apply f e) (.apply f e')
  | call {n n' : Text} {xs ys : List Text} (h : L.call n xs n' ys) :
      Alike L (.call n xs) (.call n' ys)

@[inherit_doc NumericExpr.Alike]
inductive TextExpr.Alike (L : Likeness) : TextExpr → TextExpr → Prop
  | literal (content : Text) : Alike L (.literal content) (.literal content)
  | name {n n' : Text} (h : L.name n n') : Alike L (.name n) (.name n')
  | append {a a' b b' : TextExpr} (ha : Alike L a a') (hb : Alike L b b') :
      Alike L (.append a b) (.append a' b')
  | call {n n' : Text} {xs ys : List Text} (h : L.call n xs n' ys) :
      Alike L (.call n xs) (.call n' ys)

variable {L : Likeness}

namespace NumericExpr

theorem joins_alike (p : Precedence) : Joins L (Alike L) (joins? p) where
  eq_of_alike h := by cases h <;> rfl
  related h ha hb := by
    obtain ⟨o, -, -, rfl⟩ := joins?_eq_some h
    exact .binary o ha hb

theorem respects_term {inner : Parser NumericExpr} (hi : Respects L (Alike L) inner) :
    Respects L (Alike L) (term inner) := by
  intro s s' h
  have hfail : Outcome L (Alike L) (Parser.fail s) (Parser.fail s') := Parser.respects_fail h
  cases h with
  | token hp hk hrest =>
    cases hk with
    | numeral n => exact .ok (.literal n) hrest
    | openParen => exact Parser.outcome_enclosed hi (·.unexpected) hrest
    | name hn => exact Parser.outcome_name (.name hn) hrest
    | closeParen | semicolon | string | operator => exact hfail
  | call hp hn hc hrest => exact .ok (.call hc) hrest
  | openCall hp hn he => exact .error .nil he
  | apply f hp hn hrest =>
    have henclosed := Parser.outcome_enclosed hi (fun hs => hs.missingParen hn) hrest
    rw [term, term]
    generalize Parser.enclosed inner (missingParen _) _ = r at henclosed ⊢
    generalize Parser.enclosed inner (missingParen _) _ = r' at henclosed ⊢
    cases henclosed with
    | ok he hs => exact .ok (.apply f he) hs
    | error hes he => exact .error hes he
  | finish | invalid | openString => exact hfail

theorem respects_signs {operand : Parser NumericExpr} (ho : Respects L (Alike L) operand) :
    Respects L (Alike L) (signs operand) := by
  intro s s' h
  have hoperand := ho h
  induction h with
  | token hp hk hrest ih =>
    cases hk with
    | operator o =>
      rw [signs, signs]
      cases o.prefix? with
      | none => exact hoperand
      | some i =>
        have hsigns := ih (ho hrest)
        dsimp only
        generalize signs operand _ = r at hsigns ⊢
        generalize signs operand _ = r' at hsigns ⊢
        cases hsigns with
        | ok he hs => exact .ok (.signed i he) hs
        | error hes he => exact .error hes he
    | openParen | closeParen | semicolon | numeral | string | name => exact hoperand
  | finish | invalid | openString | openCall | call | apply => exact hoperand

theorem respects_within (n : ℕ) (l : Level) : Respects L (Alike L) (within n l) := by
  have layer : ∀ n, Respects L (Alike L) (expression n) → ∀ l,
      Respects L (Alike L) (within n l) := by
    intro n hi l
    have chain : ∀ {p : Precedence}, Respects L (Alike L) (within n p.operands) →
        Respects L (Alike L) (within n (.chain p)) := by
      intro p ho
      rw [within_chain]
      exact Parser.respects_chain ho (joins_alike p) n
    have term : Respects L (Alike L) (within n .term) := respects_term hi
    have power := chain (p := .power) term
    have signs : Respects L (Alike L) (within n .signs) := respects_signs power
    have multiplicative := chain (p := .multiplicative) signs
    have additive := chain (p := .additive) multiplicative
    have relational := chain (p := .relational) additive
    match l with
    | .term => exact term
    | .signs => exact signs
    | .chain .power => exact power
    | .chain .multiplicative => exact multiplicative
    | .chain .additive => exact additive
    | .chain .relational => exact relational
    | .chain .bitwise => exact chain (p := .bitwise) relational
  refine layer n ?_ l
  induction n with
  | zero => exact Parser.respects_fail
  | succ n ih => exact layer n ih (.chain .bitwise)

/-- The program of the lexemes that are left at the beginning of a segment. -/
def program : Lexemes → Program NumericExpr :=
  Parser.limit (Parser.segments (descent.level (.chain .bitwise)))

theorem alike_program {s s' : Lexemes} (h : s.Alike L s') :
    (program s).Alike L (Alike L) (program s') :=
  Parser.alike_limit_segments (Respects.limit fun n => respects_within n (.chain .bitwise)) h

end NumericExpr

namespace TextExpr

theorem joins_alike : Joins L (Alike L) joins? where
  eq_of_alike h := by cases h <;> rfl
  related h ha hb := by
    obtain ⟨-, rfl⟩ := joins?_eq_some h
    exact .append ha hb

theorem respects_term {inner : Parser TextExpr} (hi : Respects L (Alike L) inner) :
    Respects L (Alike L) (term inner) := by
  intro s s' h
  have hfail : Outcome L (Alike L) (Parser.fail s) (Parser.fail s') := Parser.respects_fail h
  cases h with
  | token hp hk hrest =>
    cases hk with
    | string content => exact .ok (.literal content) hrest
    | openParen => exact Parser.outcome_enclosed hi (·.unexpected) hrest
    | name hn => exact Parser.outcome_name (.name hn) hrest
    | closeParen | semicolon | numeral | operator => exact hfail
  | call hp hn hc hrest => exact .ok (.call hc) hrest
  | openCall hp hn he => exact .error .nil he
  | finish | invalid | openString | apply => exact hfail

theorem respects_expression (n : ℕ) : Respects L (Alike L) (expression n) := by
  induction n with
  | zero => exact Parser.respects_fail
  | succ n ih => exact Parser.respects_chain (respects_term ih) joins_alike n

@[inherit_doc NumericExpr.program]
def program : Lexemes → Program TextExpr := Parser.limit (Parser.segments descent.expression)

theorem alike_program {s s' : Lexemes} (h : s.Alike L s') :
    (program s).Alike L (Alike L) (program s') :=
  Parser.alike_limit_segments (Respects.limit respects_expression) h

end TextExpr

/-! ## Evaluation -/

section

variable {K : Run.Relation} {c c' : Context Text}

theorem NumericExpr.Alike.holds_eval (hc : c.Alike c')
    (hname : ∀ {n n'}, L.name n n' → K.Holds (lookup c n) (lookup c' n'))
    (hcall : ∀ {n xs n' ys}, L.call n xs n' ys →
      K.Holds (callFunction c n xs) (callFunction c' n' ys))
    {e e' : NumericExpr} (h : e.Alike L e') : K.Holds (e.eval c) (e'.eval c') := by
  induction h with
  | literal n => exact K.pure _
  | name h => exact hname h
  | signed o _ ih | apply f _ ih => exact K.map ih
  | binary o _ _ iha ihb =>
    refine K.bind iha fun v => K.bind ihb fun w => ?_
    rw [hc.tolerance]
    exact K.pure _
  | call h => exact hcall h

theorem TextExpr.Alike.holds_eval
    (hname : ∀ {n n'}, L.name n n' →
      K.Holds (.ask (.text n) (c.host.text n)) (.ask (.text n') (c'.host.text n')))
    (hcall : ∀ {n xs n' ys}, L.call n xs n' ys →
      K.Holds (callFunction c n xs) (callFunction c' n' ys))
    {e e' : TextExpr} (h : e.Alike L e') : K.Holds (e.eval c) (e'.eval c') := by
  induction h with
  | literal content => exact K.pure _
  | name h => exact hname h
  | append _ _ iha ihb => exact K.bind iha fun t => K.map ihb
  | call h => exact hcall h

/-- Programs that are alike have related runs when their expressions and their errors do. -/
theorem Program.Alike.holds_eval {ε α : Type} {R : ε → ε → Prop} {value value' : ε → Run α}
    {p p' : Program ε} (h : p.Alike L R p')
    (he : ∀ {e e'}, L.error e e' → K.Holds (.fail e : Run α) (.fail e'))
    (hv : ∀ {e e'}, R e e' → K.Holds (value e) (value' e')) :
    K.Holds (p.eval value) (p'.eval value') := by
  have ending : K.Holds (eval.go value p []) (eval.go value' p' []) := by
    rw [eval.go, eval.go]
    rcases h.ending with ⟨e, e', hp, hp', hrelated⟩ | ⟨e, e', hp, hp', herror⟩
    · rw [hp, hp']
      exact hv hrelated
    · rw [hp, hp']
      exact he herror
  have steps : ∀ {es es' : List ε}, List.Forall₂ R es es' →
      K.Holds (eval.go value p es) (eval.go value' p' es') := by
    intro es es' hes
    induction hes with
    | nil => exact ending
    | cons hrelated _ ih => exact K.bind (hv hrelated) fun _ => ih
  exact steps h.steps

end

end FormulaEngine
