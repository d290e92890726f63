import FormulaEngine.Proofs.Ranges

/-! # What is left to the host

The host is asked about nothing that the language knows itself. Three sets of names decide that: the
tables of functions, the elementary functions of numeric formulas and the trimming functions of
texts. Each is looked at in its own place, so every way in which a text raises a question is
followed back to the names that it has passed. -/

namespace FormulaEngine

/-- The names of numbers, in lower case, that the language knows itself. -/
def constantNames : List Text :=
  ["_now_".toList, "_today_".toList, "true".toList, "false".toList, "pi".toList]

/-- The functions, in lower case, that are a part of the grammar of numeric formulas. -/
def elementaryNames : List Text :=
  ["trunc".toList, "int".toList, "sin".toList, "cos".toList, "tan".toList, "frac".toList]

/-- The functions of texts, in lower case, that are the language's own with one argument. -/
def trimmingNames : List Text := ["trim".toList, "ltrim".toList, "rtrim".toList]

/-- The functions of many values, in lower case. -/
def manyValuedNames : List Text :=
  ["sum".toList, "max".toList, "min".toList, "avg".toList, "count".toList]

/-- A name stands in neither table of functions. -/
def NotTabled (name : Text) : Prop :=
  Text.foldCase name ∉ Intrinsic.numericNames ∧ Text.foldCase name ∉ Intrinsic.textNames

/-- A question about what a formula `t` leaves to the host. -/
def LeftToHost (kind : ValueKind) (t : Text) : Callback → Prop
  | .value n => Text.foldCase n ∉ constantNames
  | .text _ => True
  | .numericCall n _ => NotTabled n ∧ Text.foldCase n ∉ elementaryNames
  | .textCall n arguments =>
    NotTabled n ∧ (Text.foldCase n ∈ trimmingNames → arguments.length ≠ 1)
  | .range keyword k e => ∃ u n x, Reached kind t k u ∧
      .call n [x] ∈ (Lexemes.ofText k u).pieces ∧ Text.foldCase n ∈ manyValuedNames ∧
      Intrinsic.delegated [x] = .ok (some (keyword, e))

/-! ## Names that are looked up -/

theorem lookup_ne_none {α : Type} {entries : List (Text × α)} {name : Text}
    (h : name ∈ entries.map (·.1)) : entries.lookup name ≠ none := by
  intro hnone
  obtain ⟨e, he, rfl⟩ := List.mem_map.mp h
  simpa using List.lookup_eq_none_iff.mp hnone e he

theorem not_mem_constantNames {A : Type} {c : Context A} {name : Text}
    (h : c.constant? name = none) : Text.foldCase name ∉ constantNames := by
  intro hmem
  simp only [constantNames, List.mem_cons, List.not_mem_nil, or_false] at hmem
  rcases hmem with hname | hname | hname | hname | hname <;>
    simp [Context.constant?, hname] at h

theorem notTabled_of_isIntrinsic {name : Text} (h : Intrinsic.isIntrinsic name = false) :
    NotTabled name := by
  simpa [Intrinsic.isIntrinsic, NotTabled] using h

theorem not_mem_elementaryNames {name : Text} (h : Elementary.ofName? name = none) :
    Text.foldCase name ∉ elementaryNames := by
  intro hmem
  have hperm : elementaryNames ⊆ Elementary.names.map (·.1) := by decide
  exact lookup_ne_none (hperm hmem) h

theorem length_ne_one_of_not_trims {name : Text} {arguments : List Text}
    (h : ¬ Trims .text name arguments) (hname : Text.foldCase name ∈ trimmingNames) :
    arguments.length ≠ 1 :=
  fun hlength => h ⟨rfl, hlength, lookup_ne_none hname⟩

theorem mem_manyValuedNames {kind k : ValueKind} {name : Text}
    (h : (Intrinsic.parameters kind).lookup name = some (.values k)) : name ∈ manyValuedNames := by
  have hnames : ∀ kind, ∀ e ∈ Intrinsic.parameters kind,
      e.2 = .values .number ∨ e.2 = .values .text → e.1 ∈ manyValuedNames := by
    intro kind
    cases kind <;> decide
  exact hnames kind _ (mem_of_lookup_eq_some h) (by cases k <;> simp)

/-- Not a call of an elementary function. -/
def Piece.NotElementary (kind : ValueKind) : Piece → Prop
  | call name _ => Lexemes.elementary? kind name = none
  | _ => True

theorem Lexemes.read_notElementary (kind : ValueKind) (p : Nat) (t : Text) :
    (read kind p t).All (Piece.NotElementary kind) := by
  fun_induction read kind p t with
  | case1 | case2 | case3 | case5 => trivial
  | case6 =>
    rename_i hf _ _ _ ih
    exact ⟨hf, ih⟩
  | case4 | case7 | case8 =>
    rename_i ih
    exact ⟨trivial, ih⟩

/-- The elementary functions are applied, not called. -/
theorem Lexemes.elementary?_of_mem_pieces {kind : ValueKind} {t name : Text}
    {arguments : List Text} (h : .call name arguments ∈ (ofText kind t).pieces) :
    elementary? kind name = none :=
  all_iff.mp (read_notElementary kind 0 t) _ h

/-! ## Questions -/

/-- What a text raises that the formula reaches is left to the host. -/
theorem Raises.leftToHost {s : Surroundings} {kind k : ValueKind} {t u : Text} {q : Callback}
    (hu : Reached kind t k u) (h : Raises s.IsConstant k u q) : LeftToHost kind t q := by
  cases h with
  | name hpiece hconstant =>
    cases k with
    | number => exact not_mem_constantNames (not_not.mp (hconstant rfl))
    | text => trivial
  | call hpiece hintrinsic htrims =>
    cases k with
    | number =>
      exact ⟨notTabled_of_isIntrinsic hintrinsic,
        not_mem_elementaryNames (Lexemes.elementary?_of_mem_pieces hpiece)⟩
    | text =>
      exact ⟨notTabled_of_isIntrinsic hintrinsic, length_ne_one_of_not_trims htrims⟩
  | @range n e arguments k' keyword hpiece hvalues hdelegated =>
    obtain rfl := Intrinsic.eq_of_parameters_values hvalues
    have hcut := Lexemes.all_iff.mp (Lexemes.read_cutFrom k' 0 u) _ hpiece
    obtain ⟨x, _, _, rfl, _⟩ :=
      exists_of_delegated (fun x hx => (hcut.argument hx).2.1) hdelegated
    exact ⟨u, n, x, hu, hpiece, mem_manyValuedNames hvalues, hdelegated⟩

/-! ## Calls that are rejected -/

/-- Nothing is read and nothing is asked where a function is not of the kind of the call, or is
given a wrong number of arguments. -/
theorem Intrinsic.call_of_not_accepts {A α : Type} {table : List (Text × Body A α)} {name : Text}
    {xs : List A} (h : ∀ b, table.lookup (Text.foldCase name) = some b →
      b.arity.accepts xs.length = false) (sort : Text) (c : Context A) :
    ∃ e, call table sort c name xs = .fail e ∧
      (e.kind = .unknownFunction ∨ e.kind = .parameterCount) := by
  unfold call
  split
  · exact ⟨_, rfl, .inl rfl⟩
  · rename_i b hb
    have hsome := b.isSome_run? c xs
    rw [h b hb, Option.isSome_eq_false_iff, Option.isNone_iff_eq_none] at hsome
    rw [hsome]
    exact ⟨_, rfl, .inr rfl⟩

theorem Intrinsic.accepts_eq_false {α : Type} {table : List (Text × Body Text α)} {name : Text}
    {count : Nat} {arities : List (Text × Arity)}
    (htable : table.map (fun e => (e.1, e.2.arity)) = arities)
    (h : ¬ ∃ a, arities.lookup (Text.foldCase name) = some a ∧ a.accepts count = true)
    (b : Body Text α) (hb : table.lookup (Text.foldCase name) = some b) :
    b.arity.accepts count = false := by
  by_contra haccepts
  exact h ⟨b.arity, htable ▸ lookup_arity hb, by simpa using haccepts⟩

namespace Surroundings

variable (s : Surroundings)

/-- The host is asked only for what the language does not own, only from texts that are reached
through calls which read their argument; and a call of a function of the language that is rejected
ends in its error with no question at all, in whatever context it stands. -/
theorem asks_only_leftToHost (kind : ValueKind) (formula : Text) :
    (∀ q ∈ (s.eval kind formula).trace, LeftToHost kind (normalize formula) q ∧
      ∃ k u, Reached kind (normalize formula) k u ∧ Raises s.IsConstant k u q) ∧
    ∀ (c : Context Text) (name : Text) (arguments : List Text),
      Intrinsic.isIntrinsic name = true →
      (¬ Intrinsic.Accepts .number name arguments.length →
        ∃ e, (NumericExpr.call name arguments).eval c = ⟨[], .error e⟩ ∧
          (e.kind = .unknownFunction ∨ e.kind = .parameterCount)) ∧
      (¬ Intrinsic.Accepts .text name arguments.length →
        ∃ e, (TextExpr.call name arguments).eval c = ⟨[], .error e⟩ ∧
          (e.kind = .unknownFunction ∨ e.kind = .parameterCount)) := by
  refine ⟨fun q hq => ?_, fun c name arguments hname => ⟨fun haccepts => ?_, fun haccepts => ?_⟩⟩
  · obtain ⟨k, u, hu, hraises⟩ := s.mayAsk_of_mem_trace hq
    exact ⟨hraises.leftToHost hu, k, u, hu, hraises⟩
  · rw [NumericExpr.eval, NumericExpr.callFunction, if_pos hname]
    exact Intrinsic.call_of_not_accepts (Intrinsic.accepts_eq_false rfl haccepts) _ c
  · rw [TextExpr.eval]
    unfold TextExpr.callFunction
    rw [if_pos hname]
    exact Intrinsic.call_of_not_accepts (Intrinsic.accepts_eq_false rfl haccepts) _ c

theorem asks_only_leftToHost_trim :
    LeftToHost .text "trim(a, b)".toList (.textCall "trim".toList ["a".toList, "b".toList]) ∧
      (∃ e, (NumericExpr.call "LEN".toList ["f(x)".toList, "a".toList]).eval (initial {}).ambient =
        ⟨[], .error e⟩ ∧ (e.kind = .unknownFunction ∨ e.kind = .parameterCount)) ∧
      ∃ e, (TextExpr.call "avg".toList ["f(x)".toList]).eval (initial {}).ambient =
        ⟨[], .error e⟩ ∧ (e.kind = .unknownFunction ∨ e.kind = .parameterCount) := by
  have hasked : .textCall "trim".toList ["a".toList, "b".toList] ∈
      ((initial {}).evalText "trim(a, b)".toList).trace := by decide +kernel
  have h := (initial {}).asks_only_leftToHost .text "trim(a, b)".toList
  have hlen := h.2 (initial {}).ambient "LEN".toList ["f(x)".toList, "a".toList] (by decide)
  have havg := h.2 (initial {}).ambient "avg".toList ["f(x)".toList] (by decide)
  refine ⟨(h.1 _ (Run.mem_trace_bind hasked _)).1, hlen.1 ?_, havg.2 ?_⟩
  · rintro ⟨a, ha, haccepts⟩
    obtain rfl : Arity.exactly 1 = a := Option.some.inj ha
    cases haccepts
  · rintro ⟨a, ha, _⟩
    cases ha

end Surroundings

end FormulaEngine
