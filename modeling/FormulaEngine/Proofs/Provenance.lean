import FormulaEngine.Proofs.Parsing

/-! # Where the names and calls of expressions come from

Parsing makes no names and no calls: those of every expression that is ever evaluated are pieces of
the formula, also when the formula ends in an error. So whatever holds of all pieces of a formula
holds of all that its program asks about. Parsing makes no errors of its own either: each complains
about lexemes that are left. -/

namespace FormulaEngine

/-- Something holds of every name and every call in an expression. -/
def NumericExpr.All (Q : Piece → Prop) : NumericExpr → Prop
  | literal _ => True
  | name n => Q (.token (.name n))
  | signed _ e | apply _ e => e.All Q
  | binary _ a b => a.All Q ∧ b.All Q
  | call n arguments => Q (.call n arguments)

@[inherit_doc NumericExpr.All]
def TextExpr.All (Q : Piece → Prop) : TextExpr → Prop
  | literal _ => True
  | name n => Q (.token (.name n))
  | append a b => a.All Q ∧ b.All Q
  | call n arguments => Q (.call n arguments)

/-- Something holds of every expression in a program. -/
structure Program.All {ε : Type} (P : ε → Prop) (p : Program ε) : Prop where
  steps : ∀ e ∈ p.steps, P e
  ending : ∀ e, p.ending = .ok e → P e

namespace Lexemes

/-- `L` holds of the lexemes that are left, wherever reading has come to. Then `Q` holds of every
name and every call among them, and `R` of every error about them. -/
structure Tells (L : Lexemes → Prop) (Q : Piece → Prop) (R : FormulaError → Prop) : Prop where
  token : ∀ {p k rest}, L (.token p k rest) → Q (.token k) ∧ L rest
  call : ∀ {p n arguments rest}, L (.call p n arguments rest) → Q (.call n arguments) ∧ L rest
  apply : ∀ {p n f rest}, L (.apply p n f rest) → L rest
  unexpected : ∀ {s}, L s → R s.unexpected
  missingParen : ∀ {s} (name : Text), L s → R (NumericExpr.missingParen name s)
  openString : ∀ {e}, L (.openString e) → R e
  openCall : ∀ {p n e}, L (.openCall p n e) → R e

/-- Where errors do not matter, the pieces tell enough. -/
theorem tells_all (Q : Piece → Prop) : Tells (All Q) Q fun _ => True where
  token h := h
  call h := h
  apply h := h.2
  unexpected _ := trivial
  missingParen _ _ := trivial
  openString _ := trivial
  openCall _ := trivial

end Lexemes

open Lexemes (Tells)

namespace Parser

variable {ε : Type} {L : Lexemes → Prop} {P : ε → Prop} {Q : Piece → Prop}
  {R : FormulaError → Prop} {inner operand : Parser ε} {joins? : Token → Option (ε → ε → ε)}

/-- `P` holds of every expression that was read, `L` of the lexemes that are left, and `R` of an
error. -/
def Kept (L : Lexemes → Prop) (P : ε → Prop) (R : FormulaError → Prop) :
    Except (Fault ε) (ε × Lexemes) → Prop
  | .ok (e, s) => P e ∧ L s
  | .error f => (∀ e ∈ f.pending, P e) ∧ R f.error

/-- From lexemes of which `L` holds, the parser makes expressions of which `P` holds, or an error of
which `R` holds. -/
def Keeps (L : Lexemes → Prop) (P : ε → Prop) (R : FormulaError → Prop) (parse : Parser ε) : Prop :=
  ∀ ⦃s⦄, L s → Kept L P R (parse s)

theorem Keeps.ok (h : Keeps L P R inner) {s s' : Lexemes} {e : ε} (hs : L s)
    (he : inner s = .ok (e, s')) : P e ∧ L s' := by
  have hk := h hs
  rwa [he] at hk

theorem Keeps.error (h : Keeps L P R inner) {s : Lexemes} {f : Fault ε} (hs : L s)
    (hf : inner s = .error f) : (∀ e ∈ f.pending, P e) ∧ R f.error := by
  have hk := h hs
  rwa [hf] at hk

theorem keeps_fail (ht : Tells L Q R) : Keeps L P R (fail (ε := ε)) :=
  fun _ hs => ⟨fun _ he => (nomatch he), ht.unexpected hs⟩

theorem keeps_chainRest (ht : Tells L Q R) (ho : Keeps L P R operand)
    (hj : ∀ {k join a b}, joins? k = some join → P a → P b → P (join a b)) (fuel : Nat) {left : ε}
    (hl : P left) : Keeps L P R (chainRest joins? operand fuel left) := by
  induction fuel generalizing left with
  | zero => exact fun s hs => ⟨hl, hs⟩
  | succ fuel ih =>
    intro s hs
    unfold chainRest
    split
    · rename_i n p k rest heq
      cases heq
      split
      · exact ⟨hl, hs⟩
      · rename_i join hjoin
        split
        · rename_i right rest' hright
          obtain ⟨hr, hrest⟩ := ho.ok (ht.token hs).2 hright
          exact ih (hj hjoin hl hr) hrest
        · rename_i f hright
          obtain ⟨hpending, herror⟩ := ho.error (ht.token hs).2 hright
          exact ⟨List.forall_mem_cons.mpr ⟨hl, hpending⟩, herror⟩
    · exact ⟨hl, hs⟩

theorem keeps_chain (ht : Tells L Q R) (ho : Keeps L P R operand)
    (hj : ∀ {k join a b}, joins? k = some join → P a → P b → P (join a b)) (fuel : Nat) :
    Keeps L P R (chain joins? operand fuel) := by
  intro s hs
  unfold chain
  split
  · rename_i left rest hl
    obtain ⟨hp, hrest⟩ := ho.ok hs hl
    exact keeps_chainRest ht ho hj fuel hp hrest
  · rename_i f hl
    exact ho.error hs hl

theorem keeps_enclosed (ht : Tells L Q R) (hi : Keeps L P R inner)
    {missing : Lexemes → FormulaError} (hm : ∀ {s}, L s → R (missing s)) :
    Keeps L P R (enclosed inner missing) := by
  intro s hs
  unfold enclosed
  split
  · rename_i e p rest he
    obtain ⟨hp, hrest⟩ := hi.ok hs he
    exact ⟨hp, (ht.token hrest).2⟩
  · rename_i e s' _ he
    obtain ⟨hp, hrest⟩ := hi.ok hs he
    exact ⟨List.forall_mem_singleton.mpr hp, hm hrest⟩
  · rename_i f he
    exact hi.error hs he

theorem keeps_name (ht : Tells L Q R) {make : Text → ε} {n : Text} (hn : P (make n)) :
    Keeps L P R (name make n) := by
  intro s hs
  unfold name
  split
  · exact ⟨fun e he => (nomatch he), ht.openString hs⟩
  · exact ⟨hn, hs⟩

theorem keeps_segments (ht : Tells L Q R) (hi : Keeps L P R inner) (fuel : Nat) {s : Lexemes}
    (hs : L s) :
    (segments inner fuel s).All P ∧ ∀ e, (segments inner fuel s).ending = .error e → R e := by
  induction fuel generalizing s with
  | zero =>
    refine ⟨⟨fun e he => (nomatch he), fun e he => nomatch he⟩, fun e he => ?_⟩
    cases he
    exact ht.unexpected hs
  | succ fuel ih =>
    unfold segments
    split
    · rename_i f hf
      obtain ⟨hpending, herror⟩ := hi.error hs hf
      refine ⟨⟨hpending, fun e he => nomatch he⟩, fun e he => ?_⟩
      cases he
      exact herror
    · rename_i e p he
      refine ⟨⟨fun e he => (nomatch he), fun e' he' => ?_⟩, fun e he => nomatch he⟩
      cases he'
      exact (hi.ok hs he).1
    · rename_i e p rest he
      obtain ⟨hp, hrest⟩ := hi.ok hs he
      obtain ⟨hall, herror⟩ := ih (ht.token hrest).2
      exact ⟨⟨List.forall_mem_cons.mpr ⟨hp, hall.steps⟩, hall.ending⟩, herror⟩
    · rename_i e s' _ _ he
      obtain ⟨hp, hrest⟩ := hi.ok hs he
      refine ⟨⟨List.forall_mem_singleton.mpr hp, fun e he => nomatch he⟩, fun e he => ?_⟩
      cases he
      exact ht.unexpected hrest

end Parser

variable {L : Lexemes → Prop} {Q : Piece → Prop} {R : FormulaError → Prop}

namespace NumericExpr

theorem keeps_term (ht : Tells L Q R) {inner : Parser NumericExpr}
    (hi : Parser.Keeps L (All Q) R inner) : Parser.Keeps L (All Q) R (term inner) := by
  intro s hs
  unfold term
  split
  · exact ⟨trivial, (ht.token hs).2⟩
  · exact Parser.keeps_enclosed ht hi ht.unexpected (ht.token hs).2
  · rename_i n rest
    obtain ⟨hn, hrest⟩ := ht.token hs
    exact Parser.keeps_name ht (show (name n).All Q from hn) hrest
  · exact ht.call hs
  · exact ⟨fun e he => (nomatch he), ht.openCall hs⟩
  · rename_i n f rest
    have he := Parser.keeps_enclosed ht hi (ht.missingParen n) (ht.apply hs)
    split
    · rename_i e rest' h
      rwa [h] at he
    · rename_i f h
      rwa [h] at he
  · exact Parser.keeps_fail ht hs

theorem keeps_signs (ht : Tells L Q R) {operand : Parser NumericExpr}
    (ho : Parser.Keeps L (All Q) R operand) : Parser.Keeps L (All Q) R (signs operand) := by
  intro s hs
  fun_induction signs operand s with
  | case1 p o rest hp => exact ho hs
  | case2 p o rest i hp e s' hr ih =>
    have he := ih (ht.token hs).2
    rwa [hr] at he
  | case3 p o rest i hp f hr ih =>
    have he := ih (ht.token hs).2
    rwa [hr] at he
  | case4 s hn => exact ho hs

theorem keeps_expression (ht : Tells L Q R) (depth : Nat) :
    Parser.Keeps L (All Q) R (expression depth) := by
  have level : ∀ {p operand} (fuel : Nat), Parser.Keeps L (All Q) R operand →
      Parser.Keeps L (All Q) R (Parser.chain (joins? p) operand fuel) := by
    refine fun fuel ho => Parser.keeps_chain ht ho (fun h ha hb => ?_) fuel
    obtain ⟨o, _, _, rfl⟩ := joins?_eq_some h
    exact ⟨ha, hb⟩
  induction depth with
  | zero => exact Parser.keeps_fail ht
  | succ depth ih =>
    exact level _ (level _ (level _ (level _ (keeps_signs ht (level _ (keeps_term ht ih))))))

/-- What is told of the pieces of a formula holds of all names and calls in its program, and what is
told of errors holds of the one that the program ends in. -/
theorem tells_parse (ht : Tells L Q R) {t : Text} (h : L (.ofText .number t)) :
    (parse t).All (All Q) ∧ ∀ e, (parse t).ending = .error e → R e :=
  Parser.keeps_segments ht (keeps_expression ht _) _ h

/-- What holds of the pieces of a formula holds of all names and calls in its program. -/
theorem all_parse {t : Text} (h : (Lexemes.ofText .number t).All Q) : (parse t).All (All Q) :=
  (tells_parse (Lexemes.tells_all Q) h).1

end NumericExpr

namespace TextExpr

theorem keeps_term (ht : Tells L Q R) {inner : Parser TextExpr}
    (hi : Parser.Keeps L (All Q) R inner) : Parser.Keeps L (All Q) R (term inner) := by
  intro s hs
  unfold term
  split
  · exact ⟨trivial, (ht.token hs).2⟩
  · exact Parser.keeps_enclosed ht hi ht.unexpected (ht.token hs).2
  · rename_i n rest
    obtain ⟨hn, hrest⟩ := ht.token hs
    exact Parser.keeps_name ht (show (name n).All Q from hn) hrest
  · exact ht.call hs
  · exact ⟨fun e he => (nomatch he), ht.openCall hs⟩
  · exact Parser.keeps_fail ht hs

theorem keeps_expression (ht : Tells L Q R) (depth : Nat) :
    Parser.Keeps L (All Q) R (expression depth) := by
  induction depth with
  | zero => exact Parser.keeps_fail ht
  | succ depth ih =>
    refine Parser.keeps_chain ht (keeps_term ht ih) (fun h ha hb => ?_) _
    obtain ⟨_, rfl⟩ := joins?_eq_some h
    exact ⟨ha, hb⟩

@[inherit_doc NumericExpr.tells_parse]
theorem tells_parse (ht : Tells L Q R) {t : Text} (h : L (.ofText .text t)) :
    (parse t).All (All Q) ∧ ∀ e, (parse t).ending = .error e → R e :=
  Parser.keeps_segments ht (keeps_expression ht _) _ h

@[inherit_doc NumericExpr.all_parse]
theorem all_parse {t : Text} (h : (Lexemes.ofText .text t).All Q) : (parse t).All (All Q) :=
  (tells_parse (Lexemes.tells_all Q) h).1

end TextExpr

end FormulaEngine
