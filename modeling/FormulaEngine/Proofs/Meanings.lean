import FormulaEngine.Proofs.Trees

/-! # The meaning of expression trees

The value of a tree is put together from the values of its parts, and nothing is said about texts,
except that a function of the host is given its arguments as they are written. Evaluating what a
tree is written as gives its meaning: the same value or error, after the same questions. -/

namespace FormulaEngine

open Intrinsic (Parameters Read ReadEach)

/-- The values of a kind. -/
abbrev ValueKind.Carrier : ValueKind → Type
  | .number => Float
  | .text => Text

/-- What an argument means: its value, which is of one kind. -/
abbrev Reading := Σ k : ValueKind, Run k.Carrier

namespace Reading

/-- The value of a numeric argument. An argument of the other kind has none. -/
def number : Reading → Run Float
  | ⟨.number, r⟩ => r
  | ⟨.text, _⟩ => .fail (Lexemes.finish 0).unexpected

@[inherit_doc number]
def text : Reading → Run Text
  | ⟨.number, _⟩ => .fail (Lexemes.finish 0).unexpected
  | ⟨.text, r⟩ => r

end Reading

namespace Surroundings

variable (s : Surroundings)

/-- The context in which arguments are values already. Not being written, none of them is a
range. -/
def valued : Context Reading :=
  { s with source := fun _ => [], number := Reading.number, text := Reading.text }

/-- The value of a numeric call with these arguments, which are written as `ts`. -/
def numericCall (name : Text) (ts : List Text) (rs : List Reading) : Run Float :=
  if Intrinsic.isIntrinsic name then Intrinsic.callNumeric s.valued name rs
  else .ask (.numericCall name ts) (s.host.numericCall name ts)

/-- The value of a text call. Where the name is not the language's own, a single argument is
evaluated before the name is looked at any further. -/
def textCall (name : Text) (ts : List Text) (rs : List Reading) : Run Text :=
  let asked : Run Text := .ask (.textCall name ts) (s.host.textCall name ts)
  if Intrinsic.isIntrinsic name then Intrinsic.callText s.valued name rs
  else
    match rs with
    | [r] => do
      let t ← r.text
      match Intrinsic.trims.lookup (Text.foldCase name) with
      | some trim => return trim t
      | none => asked
    | _ => asked

end Surroundings

mutual

/-- The meaning of an expression that is written with so many spaces. -/
def Tree.meaning (s : Surroundings) (n : Nat) : {k : ValueKind} → Tree k → Run k.Carrier
  | _, .numeral l => (return l.value.toFloat : Run Float)
  | _, .quoted q => (return q.content : Run Text)
  | .number, .name x => NumericExpr.lookup s.valued x.toText
  | .text, .name x => .ask (.text x.toText) (s.host.text x.toText)
  | _, .signed o e => (do return o.apply (← e.meaning s n) : Run Float)
  | _, .binary o a b => (do
    let v ← a.meaning s n
    let w ← b.meaning s n
    return o.operator.apply s.tolerance v w : Run Float)
  | _, .append a b => (do
    let t ← a.meaning s n
    let u ← b.meaning s n
    return t ++ u : Run Text)
  | _, .apply _ f _ e => (do return f.apply (← e.meaning s n) : Run Float)
  | .number, .call x _ _ arguments =>
    s.numericCall x.toText (arguments.print n) (arguments.meanings s n)
  | .text, .call x _ _ arguments =>
    s.textCall x.toText (arguments.print n) (arguments.meanings s n)

/-- The last expression gives the value, after the others have been evaluated in order. -/
def Formula.meaning (s : Surroundings) (n : Nat) : {k : ValueKind} → Formula k → Run k.Carrier
  | _, .last e => e.meaning s n
  | _, .next e rest => do
    let _ ← e.meaning s n
    rest.meaning s n

def Formulas.meanings (s : Surroundings) (n : Nat) :
    {ks : List ValueKind} → Formulas ks → List Reading
  | _, .nil => []
  | _, .cons x rest => ⟨_, x.meaning s n⟩ :: rest.meanings s n

end

/-- No range is meant: if these are the arguments of a function that takes ranges, a single one has
no range keyword in front of its first parenthesis. -/
def NoRange (kind : ValueKind) (name : Text) (ts : List Text) : Prop :=
  ∀ k, (Intrinsic.parameters kind).lookup (Text.foldCase name) = some (.values k) →
    ∀ t, ts = [t] → '(' ∈ t → RangeKeyword.locate? (t.takeWhile (· != '(')) = none

mutual

/-- No call in the expression means a range. -/
def Tree.NoRanges (n : Nat) : {k : ValueKind} → Tree k → Prop
  | _, .numeral _ | _, .quoted _ | _, .name _ => True
  | _, .signed _ e | _, .apply _ _ _ e => e.NoRanges n
  | _, .binary _ a b | _, .append a b => a.NoRanges n ∧ b.NoRanges n
  | k, .call x _ _ arguments => NoRange k x.toText (arguments.print n) ∧ arguments.NoRanges n

def Formula.NoRanges (n : Nat) : {k : ValueKind} → Formula k → Prop
  | _, .last e => e.NoRanges n
  | _, .next e rest => e.NoRanges n ∧ rest.NoRanges n

def Formulas.NoRanges (n : Nat) : {ks : List ValueKind} → Formulas ks → Prop
  | _, .nil => True
  | _, .cons x rest => x.NoRanges n ∧ rest.NoRanges n

end

/-! ## Calls -/

theorem Intrinsic.delegated_eq_none {ts : List Text}
    (h : ∀ t, ts = [t] → '(' ∈ t → RangeKeyword.locate? (t.takeWhile (· != '(')) = none) :
    delegated ts = .ok none := by
  match ts with
  | [] | _ :: _ :: _ => rfl
  | [t] =>
    unfold delegated
    dsimp only
    split
    · rfl
    · rename_i hlength
      have hparen : '(' ∈ t := by
        by_contra hnot
        have hall : t.takeWhile (· != '(') = t :=
          List.takeWhile_eq_self_iff.mpr fun c hc => by simpa using fun h : c = '(' => hnot (h ▸ hc)
        exact hlength (congrArg List.length hall)
      rw [h t rfl hparen]

namespace Surroundings

variable (s : Surroundings)

/-- The value of a formula of a kind. -/
def value : (k : ValueKind) → Text → Run k.Carrier
  | .number, t => s.evalNumber t
  | .text, t => s.evalText t

/-- The texts mean what the readings are. -/
def Means : List Text → List Reading → Prop := List.Forall₂ fun t r => s.value r.1 t = r.2

variable {s} {ts : List Text} {rs : List Reading}

theorem read_valued {k : ValueKind} {t : Text} {r : Reading} (h : s.value r.1 t = r.2)
    (hk : r.1 = k) : Read .equality s.ambient s.valued k t r := by
  obtain ⟨k', r⟩ := r
  subst hk
  cases k' with
  | number | text => exact h

theorem Means.readEach (h : s.Means ts rs) {kinds : List ValueKind}
    (hk : ∀ p ∈ kinds.zip (rs.map Sigma.fst), p.1 = p.2) :
    ReadEach .equality s.ambient s.valued kinds ts rs := by
  induction h generalizing kinds with
  | nil => cases kinds <;> trivial
  | cons ht _ ih =>
    cases kinds with
    | nil => trivial
    | cons k kinds =>
      rw [List.map_cons, List.zip_cons_cons, List.forall_mem_cons] at hk
      exact ⟨read_valued ht hk.1.symm, ih hk.2⟩

theorem Means.readAll (h : s.Means ts rs) {k : ValueKind} (hk : ∀ k' ∈ rs.map Sigma.fst, k' = k) :
    List.Forall₂ (Read .equality s.ambient s.valued k) ts rs := by
  induction h with
  | nil => exact .nil
  | cons ht _ ih =>
    rw [List.map_cons, List.forall_mem_cons] at hk
    exact .cons (read_valued ht hk.1) (ih hk.2)

theorem alike_valued : s.ambient.Alike s.valued := ⟨rfl, rfl, rfl, rfl⟩

/-- Arguments that mean the readings are read alike, as formulas and as values. -/
theorem Means.related (h : s.Means ts rs) {p : Parameters} (hp : p.Accepts (rs.map Sigma.fst))
    (hd : ∀ k, p = .values k → Intrinsic.delegated ts = .ok none) :
    p.Related .equality s.ambient s.valued ts rs := by
  have hvalued : Intrinsic.delegated (rs.map s.valued.source) = .ok none := by
    match rs with
    | [] | [_] | _ :: _ :: _ => rfl
  have hambient : ts.map s.ambient.source = ts := List.map_id ts
  match p with
  | .each kinds => exact h.readEach hp
  | .all k => exact h.readAll hp
  | .values .number =>
    exact Intrinsic.holds_numbers alike_valued (by rw [hvalued, hambient, hd _ rfl])
      (fun _ _ _ => trivial) fun _ => h.readAll hp
  | .values .text =>
    exact Intrinsic.holds_texts alike_valued (by rw [hvalued, hambient, hd _ rfl])
      (fun _ _ _ => trivial) fun _ => h.readAll hp

theorem Means.callNumber (h : s.Means ts rs) {name : Text}
    (htakes : Takes .number name (rs.map Sigma.fst)) (hrange : NoRange .number name ts) :
    NumericExpr.callFunction s.ambient name ts = s.numericCall name ts rs := by
  unfold NumericExpr.callFunction numericCall
  split
  · refine Intrinsic.holds_callNumeric (K := .equality) alike_valued h.length_eq fun p hp _ => ?_
    refine h.related (htakes.own p hp) ?_
    rintro k rfl
    exact Intrinsic.delegated_eq_none (hrange k hp)
  · rfl

theorem Means.callText (h : s.Means ts rs) {name : Text}
    (htakes : Takes .text name (rs.map Sigma.fst)) (hrange : NoRange .text name ts) :
    TextExpr.callFunction s.ambient name ts = s.textCall name ts rs := by
  unfold TextExpr.callFunction textCall
  dsimp only
  split
  · refine Intrinsic.holds_callText (K := .equality) alike_valued h.length_eq fun p hp _ => ?_
    refine h.related (htakes.own p hp) ?_
    rintro k rfl
    exact Intrinsic.delegated_eq_none (hrange k hp)
  · rename_i hname
    match h with
    | .nil | .cons _ (.cons _ _) => rfl
    | .cons (b := r) ht .nil =>
      have hkind : r.1 = .text :=
        List.singleton_inj.mp (htakes.single rfl (by simpa using hname) rfl)
      have hread : s.ambient.text _ = r.text := read_valued ht hkind
      dsimp only
      rw [hread]
      rfl

end Surroundings

/-! ## Trees -/

theorem Program.eval_after {ε α : Type} (value : ε → Run α) (p : Program ε) (e : ε) :
    (p.after e).eval value = value e >>= fun _ => p.eval value := by
  have steps : ∀ es : List ε, eval.go value (p.after e) es = eval.go value p es := by
    intro es
    induction es with
    | nil => rfl
    | cons e' es ih => rw [eval.go, eval.go, ih]
  show (value e >>= fun _ => eval.go value (p.after e) p.steps) = _
  rw [steps]
  rfl

/-- The value of an expression of a kind. -/
def ValueKind.eval (c : Context Text) : (k : ValueKind) → k.Expr → Run k.Carrier
  | .number => NumericExpr.eval c
  | .text => TextExpr.eval c

theorem Surroundings.value_print (s : Surroundings) (n : Nat) {k : ValueKind} (x : Formula k) :
    s.value k (x.print n) = (x.program n).eval (k.eval s.ambient) := by
  cases k with
  | number => exact s.evalNumber_print n x
  | text => exact s.evalText_print n x

theorem Formulas.map_meanings (s : Surroundings) (n : Nat) {ks : List ValueKind}
    (xs : Formulas ks) : (xs.meanings s n).map Sigma.fst = ks := by
  cases xs with
  | nil => rfl
  | cons x rest => rw [Formulas.meanings, List.map_cons, rest.map_meanings]

mutual

/-- Where an argument is a formula of its own, the expression of a tree has the meaning of the
tree. -/
theorem Tree.eval_expr (s : Surroundings) {n : Nat} {k : ValueKind} (e : Tree k)
    (h : e.NoRanges n) : k.eval s.ambient (e.expr n) = e.meaning s n := by
  match k, e with
  | _, .numeral l => rfl
  | _, .quoted q => rfl
  | .number, .name x => rfl
  | .text, .name x => rfl
  | _, .signed o e => exact Run.Relation.equality.map (e.eval_expr s h)
  | _, .binary o a b =>
    exact Run.Relation.equality.bind (a.eval_expr s h.1) fun v =>
      Run.Relation.equality.map (b.eval_expr s h.2)
  | _, .append a b =>
    exact Run.Relation.equality.bind (a.eval_expr s h.1) fun t =>
      Run.Relation.equality.map (b.eval_expr s h.2)
  | _, .apply _ f _ e => exact Run.Relation.equality.map (e.eval_expr s h)
  | .number, .call x _ hks arguments =>
    -- the arguments are evaluated from their texts here, and from their trees in the meaning
    refine (arguments.means s h.2).callNumber ?_ h.1
    rwa [arguments.map_meanings]
  | .text, .call x _ hks arguments =>
    refine (arguments.means s h.2).callText ?_ h.1
    rwa [arguments.map_meanings]

theorem Formula.eval_program (s : Surroundings) {n : Nat} {k : ValueKind} (x : Formula k)
    (h : x.NoRanges n) : (x.program n).eval (k.eval s.ambient) = x.meaning s n := by
  match k, x with
  | _, .last e => exact e.eval_expr s h
  | _, .next e rest =>
    rw [Formula.program, Program.eval_after, e.eval_expr s h.1, rest.eval_program s h.2]
    rfl

theorem Formulas.means (s : Surroundings) {n : Nat} {ks : List ValueKind} (xs : Formulas ks)
    (h : xs.NoRanges n) : s.Means (xs.print n) (xs.meanings s n) := by
  match ks, xs with
  | _, .nil => exact .nil
  | _, .cons x rest =>
    refine .cons ?_ (rest.means s h.2)
    rw [Surroundings.value_print]
    exact x.eval_program s h.1

end

namespace Surroundings

/-- What a tree is written as has the meaning of the tree, for numbers and for texts. -/
theorem eval_print (s : Surroundings) (n : Nat) :
    (∀ x : Formula .number, x.NoRanges n → s.evalNumber (x.print n) = x.meaning s n) ∧
      ∀ x : Formula .text, x.NoRanges n → s.evalText (x.print n) = x.meaning s n := by
  refine ⟨fun x hx => ?_, fun x hx => ?_⟩
  · rw [evalNumber_print]
    exact x.eval_program s hx
  · rw [evalText_print]
    exact x.eval_program s hx

theorem eval_print_sum :
    (initial { value := fun _ => some 2 }).evalNumber "-a ** (a - 1)".toList =
        ⟨[.value "a".toList, .value "a".toList], .ok (-Float.pow 2 (2 - Float.ofNat 1))⟩ ∧
      (initial { text := fun _ => some "b".toList, textCall := fun _ _ => some "d".toList }).evalText
          "'c' + ('c' + a); sum(f(a))".toList =
        ⟨[.text "a".toList, .text "a".toList, .textCall "f".toList ["a".toList]],
          .ok "d".toList⟩ := by
  let one : NumberLiteral := ⟨['1'], none, by decide, by decide, nofun, by decide⟩
  let a : Identifier := ⟨"a".toList, ⟨'a', by decide⟩, by decide⟩
  let f : Identifier := ⟨"f".toList, ⟨'f', by decide⟩, by decide⟩
  let sum : Identifier := ⟨"sum".toList, ⟨'s', by decide⟩, by decide⟩
  let c : Tree .text := .quoted ⟨['c'], by decide, by decide⟩
  let power : SpelledOperator :=
    ⟨.power, "**".toList, by simp [Symbol.punctuation, InfixOperator.operator]⟩
  let minus : SpelledOperator :=
    ⟨.minus, "-".toList, by simp [Symbol.punctuation, InfixOperator.operator]⟩
  let x : Formula .number := .last (.signed .minus (.binary power (.name a)
    (.binary minus (.name a) (.numeral one))))
  let argument : Formulas [.text] := .cons (.last (.name a)) .nil
  let argument' : Formulas [.text] := .cons (.last (.call f rfl (by decide) argument)) .nil
  let y : Formula .text := .next (.append c (.append c (.name a)))
    (.last (.call sum rfl (by decide) argument'))
  have hx : x.NoRanges 1 := ⟨trivial, trivial, trivial⟩
  have hy : y.NoRanges 1 := by
    refine ⟨⟨trivial, trivial, trivial⟩, fun _ _ t ht _ => ?_, ⟨fun k hk => ?_, trivial, trivial⟩,
      trivial⟩
    · cases ht
      decide
    · cases hk
  exact ⟨((initial _).eval_print 1).1 x hx, ((initial _).eval_print 1).2 y hy⟩

end Surroundings

end FormulaEngine
