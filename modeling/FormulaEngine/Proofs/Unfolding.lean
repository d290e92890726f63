import FormulaEngine.Evaluation
import FormulaEngine.Proofs.Provenance
import FormulaEngine.Proofs.Relations

/-! # Arguments are formulas

The depth that bounds how arguments nest does not show. Evaluating a formula is evaluating its
program in a context where an argument is evaluated as a formula of its own, however deep it
stands. -/

namespace FormulaEngine

open Intrinsic (Parameters Read delegated)

/-! ## Related contexts -/

namespace Intrinsic

/-- How the functions that compute values of a kind read their arguments. -/
def parameters : ValueKind → List (Text × Parameters)
  | .number => numericParameters
  | .text => textParameters

end Intrinsic

/-- Asking the host for the value of a name. -/
def Callback.name : ValueKind → Text → Callback
  | .number => .value
  | .text => .text

/-- Asking the host for the value of a call. -/
def Callback.call : ValueKind → Text → List Text → Callback
  | .number => .numericCall
  | .text => .textCall

/-- An argument of a call that the call may read, as a value of this kind. A function of the
language reads nothing when it is given a wrong number of arguments, or is not one that computes
values of the kind of the call. -/
inductive ReadArgument (kind : ValueKind) (name : Text) (arguments : List Text) :
    ValueKind → Text → Prop
  | own {p : Parameters} {k : ValueKind} {x : Text} :
      (Intrinsic.parameters kind).lookup (Text.foldCase name) = some p →
      Intrinsic.Accepts kind name arguments.length → p.Reads arguments k x →
      ReadArgument kind name arguments k x
  | single {x : Text} : kind = .text → Intrinsic.isIntrinsic name = false → arguments = [x] →
      ReadArgument kind name arguments .text x

theorem ReadArgument.mem {kind k : ValueKind} {name x : Text} {arguments : List Text}
    (h : ReadArgument kind name arguments k x) : x ∈ arguments := by
  cases h with
  | own _ _ hp => exact hp.mem
  | single _ _ hx =>
    rw [hx]
    exact List.mem_singleton_self x

/-- The call trims its argument, and asks nobody. -/
def Trims (kind : ValueKind) (name : Text) (arguments : List Text) : Prop :=
  kind = .text ∧ arguments.length = 1 ∧ Intrinsic.trims.lookup (Text.foldCase name) ≠ none

section

variable {K : Run.Relation} {c c' : Context Text}

/-- What makes the evaluations of a call related: the arguments that it may read are, and what it
may ask about is permitted. -/
structure CallRelated (K : Run.Relation) (c c' : Context Text) (kind : ValueKind) (name : Text)
    (arguments : List Text) : Prop where
  reads : ∀ k x, ReadArgument kind name arguments k x → Read K c c' k x x
  range : ∀ k, (Intrinsic.parameters kind).lookup (Text.foldCase name) = some (.values k) →
    ∀ keyword e, delegated arguments = .ok (some (keyword, e)) →
      K.Permits c.host (.range keyword k e)
  host : Intrinsic.isIntrinsic name = false → ¬ Trims kind name arguments →
    K.Permits c.host (.call kind name arguments)

/-- What makes the evaluations of a piece related. -/
def PieceRelated (K : Run.Relation) (c c' : Context Text) (kind : ValueKind) : Piece → Prop
  | .token (.name n) => (kind = .number → c.constant? n = none) → K.Permits c.host (.name kind n)
  | .call name arguments => CallRelated K c c' kind name arguments
  | _ => True

theorem CallRelated.related {kind : ValueKind} {name : Text} {arguments : List Text}
    (h : CallRelated K c c' kind name arguments) (hc : c.Alike c') (hs : c.source = id)
    (hs' : c'.source = id) (p : Parameters)
    (hp : (Intrinsic.parameters kind).lookup (Text.foldCase name) = some p)
    (ha : Intrinsic.Accepts kind name arguments.length) : p.Related K c c' arguments arguments := by
  refine p.related_of_reads hc hs hs' (fun k x hx => h.reads k x (.own hp ha hx)) ?_
  rintro k rfl
  exact h.range k hp

theorem Context.Alike.constant? {A B : Type} {c : Context A} {c' : Context B} (hc : c.Alike c')
    (name : Text) : c.constant? name = c'.constant? name := by
  simp only [Context.constant?, Context.today, hc.now]

namespace NumericExpr

theorem holds_lookup (hc : c.Alike c') {n : Text}
    (h : PieceRelated K c c' .number (.token (.name n))) :
    K.Holds (lookup c n) (lookup c' n) := by
  unfold lookup
  rw [← hc.constant?, ← hc.host]
  split
  · exact K.pure _
  · rename_i hn
    exact K.ask _ (h fun _ => hn)

theorem holds_callFunction (hc : c.Alike c') (hs : c.source = id) (hs' : c'.source = id)
    {n : Text} {arguments : List Text} (h : CallRelated K c c' .number n arguments) :
    K.Holds (callFunction c n arguments) (callFunction c' n arguments) := by
  unfold callFunction
  split
  · exact Intrinsic.holds_callNumeric hc rfl (h.related hc hs hs')
  · rename_i hn
    rw [← hc.host]
    exact K.ask _ (h.host (by simpa using hn) fun htrims => nomatch htrims.1)

theorem holds_eval (hc : c.Alike c') (hs : c.source = id) (hs' : c'.source = id) {e : NumericExpr}
    (h : e.All (PieceRelated K c c' .number)) : K.Holds (e.eval c) (e.eval c') := by
  induction e with
  | literal n => exact K.pure _
  | name n => exact holds_lookup hc h
  | signed o e ih | apply f e ih => exact K.map (ih h)
  | binary o a b iha ihb =>
    refine K.bind (iha h.1) fun v => K.bind (ihb h.2) fun w => ?_
    rw [hc.tolerance]
    exact K.pure _
  | call n arguments => exact holds_callFunction hc hs hs' h

end NumericExpr

namespace TextExpr

theorem holds_callFunction (hc : c.Alike c') (hs : c.source = id) (hs' : c'.source = id)
    {n : Text} {arguments : List Text} (h : CallRelated K c c' .text n arguments) :
    K.Holds (callFunction c n arguments) (callFunction c' n arguments) := by
  unfold callFunction
  rw [← hc.host]
  dsimp only
  split
  · exact Intrinsic.holds_callText hc rfl (h.related hc hs hs')
  · rename_i hn
    have hn : Intrinsic.isIntrinsic n = false := by simpa using hn
    split
    · rename_i x
      refine K.bind (h.reads .text x (.single rfl hn rfl)) fun t => ?_
      split
      · exact K.pure _
      · rename_i htrims
        exact K.ask _ (h.host hn fun ht => ht.2.2 htrims)
    · rename_i hsingle
      refine K.ask _ (h.host hn fun ht => ?_)
      obtain ⟨x, hx⟩ := List.length_eq_one_iff.mp ht.2.1
      exact hsingle x hx

theorem holds_eval (hc : c.Alike c') (hs : c.source = id) (hs' : c'.source = id) {e : TextExpr}
    (h : e.All (PieceRelated K c c' .text)) : K.Holds (e.eval c) (e.eval c') := by
  induction e with
  | literal content => exact K.pure _
  | name n =>
    rw [eval, eval, ← hc.host]
    exact K.ask _ (h fun hk => nomatch hk)
  | append a b iha ihb => exact K.bind (iha h.1) fun s => K.map (ihb h.2)
  | call n arguments => exact holds_callFunction hc hs hs' h

end TextExpr

theorem Program.holds_eval {ε α : Type} {P : ε → Prop} {value value' : ε → Run α} {p : Program ε}
    (h : p.All P) (he : ∀ e, p.ending = .error e → K.Fails e)
    (hv : ∀ e, P e → K.Holds (value e) (value' e)) :
    K.Holds (p.eval value) (p.eval value') := by
  have ending : K.Holds (eval.go value p []) (eval.go value' p []) := by
    unfold eval.go
    split
    · rename_i e hending
      exact hv e (h.ending e hending)
    · rename_i e hending
      exact he e hending
  have steps : ∀ es : List ε, (∀ e ∈ es, P e) →
      K.Holds (eval.go value p es) (eval.go value' p es) := by
    intro es hes
    induction es with
    | nil => exact ending
    | cons e es ih =>
      obtain ⟨he, hes⟩ := List.forall_mem_cons.mp hes
      exact K.bind (hv e he) fun _ => ih hes
  exact steps p.steps h.steps

end

/-! ## The context of a formula -/

/-- What a call cuts out of a text is shorter, and is a formula of its own. -/
theorem Piece.CutFrom.argument {t : Text} {name : Text} {arguments : List Text}
    (h : (Piece.call name arguments).CutFrom t) {x : Text} (hx : x ∈ arguments) :
    x.length < t.length ∧ Text.trim x = x ∧ x ⊆ t := by
  obtain ⟨inside, taken, hsuffix, hlen, ha⟩ := h
  have hlt := Arguments.length_lt_of_read ha hx
  obtain ⟨ps, rest, _, _, rfl, rfl, _⟩ := Arguments.read_eq_ok_iff.mp ha
  obtain ⟨p, hp, rfl⟩ := Arguments.exists_of_mem_passed hx
  refine ⟨by omega, Text.trim_trim p, fun c hc => hsuffix.subset ?_⟩
  exact List.mem_append_left _ ((Arguments.sublist_join hp).subset (Text.trim_subset p hc))

namespace Surroundings

/-- The first moment of the calendar, in an application that settles nothing. -/
def initial (host : Host) : Surroundings := ⟨⟨⟨.ofDays 0, .midnight⟩, .standard, .monday⟩, host⟩

variable (s : Surroundings)

/-- The context in which an argument is evaluated as a formula of its own. -/
def ambient : Context Text :=
  { s with source := id, number := s.evalNumber, text := s.evalText }

theorem alike_context (m n : Nat) : (s.context m).Alike (s.context n) := by
  cases m <;> cases n <;> exact ⟨rfl, rfl, rfl, rfl⟩

theorem alike_ambient (n : Nat) : (s.context n).Alike s.ambient := by
  cases n <;> exact ⟨rfl, rfl, rfl, rfl⟩

theorem source_context (n : Nat) : (s.context n).source = id := by
  cases n <;> rfl

variable {s}

/-- Contexts that agree on the arguments in a formula agree on its pieces. -/
theorem piecesRelated {c c' : Context Text} {kind : ValueKind} {t : Text}
    (h : ∀ x : Text, x.length < t.length → Text.trim x = x → x ⊆ t →
      ∀ k, Read .equality c c' k x x) :
    (Lexemes.ofText kind t).All (PieceRelated .equality c c' kind) := by
  refine (Lexemes.read_cutFrom kind 0 t).mono fun p hp => ?_
  match p with
  | .token (.name n) => exact fun _ => trivial
  | .token .openParen | .token .closeParen | .token .semicolon | .token (.numeral _)
  | .token (.string _) | .token (.operator _) | .apply _ _ => trivial
  | .call name arguments =>
    refine ⟨fun k x hx => ?_, fun _ _ _ _ _ => trivial, fun _ _ => trivial⟩
    obtain ⟨hlen, htrim, hsub⟩ := hp.argument hx.mem
    exact h x hlen htrim hsub k

theorem evalProgram_congr {c c' : Context Text} {t : Text} (hc : c.Alike c')
    (hs : c.source = id) (hs' : c'.source = id)
    (h : ∀ x : Text, x.length < t.length → Text.trim x = x → x ⊆ t →
      ∀ k, Read .equality c c' k x x) :
    (NumericExpr.parse t).eval (·.eval c) = (NumericExpr.parse t).eval (·.eval c') ∧
      (TextExpr.parse t).eval (·.eval c) = (TextExpr.parse t).eval (·.eval c') :=
  ⟨Program.holds_eval (K := .equality) (NumericExpr.all_parse (piecesRelated h))
      (fun _ _ => rfl) fun _ he => NumericExpr.holds_eval hc hs hs' he,
    Program.holds_eval (K := .equality) (TextExpr.all_parse (piecesRelated h))
      (fun _ _ => rfl) fun _ he => TextExpr.holds_eval hc hs hs' he⟩

/-- What holds of the pieces of a text as soon as it holds of what their arguments are read as,
holds of the text. -/
theorem holds_context {K : ValueKind → Text → Run.Relation}
    (hfails : ∀ kind t e, (K kind t).Fails e)
    (h : ∀ n kind t, (∀ k x, Read (K k x) (s.context n) (s.context n) k x x) →
      (Lexemes.ofText kind t).All (PieceRelated (K kind t) (s.context n) (s.context n) kind))
    (n : Nat) (kind : ValueKind) (t : Text) :
    Read (K kind t) (s.context n) (s.context n) kind t t := by
  induction n generalizing kind t with
  | zero => cases kind <;> exact hfails _ t _
  | succ n ih =>
    have hpieces := h n kind t ih
    have hs := s.source_context n
    cases kind with
    | number =>
      exact Program.holds_eval (NumericExpr.all_parse hpieces) (fun _ _ => hfails _ t _)
        fun e he =>
        NumericExpr.holds_eval (s.alike_context n n) hs hs he
    | text =>
      exact Program.holds_eval (TextExpr.all_parse hpieces) (fun _ _ => hfails _ t _)
        fun e he =>
        TextExpr.holds_eval (s.alike_context n n) hs hs he

/-- What holds of every text that is evaluated inside a formula holds of the formula. -/
theorem holds_eval {K : ValueKind → Text → Run.Relation}
    (hfails : ∀ kind t e, (K kind t).Fails e)
    (h : ∀ n kind t, (∀ k x, Read (K k x) (s.context n) (s.context n) k x x) →
      (Lexemes.ofText kind t).All (PieceRelated (K kind t) (s.context n) (s.context n) kind))
    (kind : ValueKind) (formula : Text) :
    (K kind (normalize formula)).Holds (s.eval kind formula) (s.eval kind formula) := by
  have hread := holds_context hfails h ((normalize formula).length + 1) kind (normalize formula)
  cases kind with
  | number => exact Run.Relation.map _ (g := Value.number) hread
  | text => exact Run.Relation.map _ (g := Value.text) hread

/-- Any depth above the length of a formula gives the same evaluation. -/
theorem read_context {t : Text} {m n : Nat} (hm : t.length < m) (hn : t.length < n)
    (k : ValueKind) : Read .equality (s.context m) (s.context n) k t t := by
  induction hl : t.length using Nat.strong_induction_on generalizing t m n k with
  | _ l ih =>
    obtain ⟨m, rfl⟩ : ∃ m', m = m' + 1 := ⟨m - 1, by omega⟩
    obtain ⟨n, rfl⟩ : ∃ n', n = n' + 1 := ⟨n - 1, by omega⟩
    have harguments : ∀ x : Text, x.length < t.length → Text.trim x = x → x ⊆ t →
        ∀ k, Read .equality (s.context m) (s.context n) k x x :=
      fun x hx _ _ k => ih x.length (by omega) (by omega) (by omega) k rfl
    have hcongr := evalProgram_congr (s.alike_context m n) (s.source_context m) (s.source_context n)
      harguments
    cases k with
    | number => exact hcongr.1
    | text => exact hcongr.2

variable (s)

/-- In the context of a formula its arguments are evaluated as formulas of their own. -/
theorem read_ambient {t x : Text} {n : Nat} (hn : x.length < n) (htrim : Text.trim x = x)
    (hx : x ⊆ normalize t) (k : ValueKind) : Read .equality (s.context n) s.ambient k x x := by
  have hx : normalize x = x :=
    normalize_eq_self htrim fun c hc => unbroken_normalize t c (hx hc)
  cases k with
  | number =>
    show (s.context n).number x = s.evalNumber x
    rw [evalNumber, hx]
    exact read_context hn (Nat.lt_succ_self _) .number
  | text =>
    show (s.context n).text x = s.evalText x
    rw [evalText, hx]
    exact read_context hn (Nat.lt_succ_self _) .text

/-- The value of a numeric formula is that of its program, where arguments are formulas. -/
theorem evalNumber_eq (formula : Text) :
    s.evalNumber formula =
      (NumericExpr.parse (normalize formula)).eval (·.eval s.ambient) :=
  (evalProgram_congr (s.alike_ambient _) (s.source_context _) rfl
    fun _ hx htrim hsub k => s.read_ambient hx htrim hsub k).1

/-- The value of a text formula is that of its program, where arguments are formulas. -/
theorem evalText_eq (formula : Text) :
    s.evalText formula = (TextExpr.parse (normalize formula)).eval (·.eval s.ambient) :=
  (evalProgram_congr (s.alike_ambient _) (s.source_context _) rfl
    fun _ hx htrim hsub k => s.read_ambient hx htrim hsub k).2

end Surroundings

end FormulaEngine
