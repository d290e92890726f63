import FormulaEngine.Proofs.BalancedFormulas
import FormulaEngine.Proofs.Binary64.Identity
import FormulaEngine.Proofs.Ranges
import FormulaEngine.Proofs.WrittenCalls

/-! # Aggregates of one argument

An expression that has a value is one argument of a call, as long as it has no double quotes and its
commas are nested. A sum, an extreme or an average of it is then the expression itself, with the same
questions to the host, unless a range keyword stands in front of its first parenthesis. Whether the
keyword belongs to the name of a call is not looked at: the expression is not evaluated, and the
call fails or asks the host for a range. -/

namespace FormulaEngine

open Text (Balanced IsArgument CommasNested)

/-! ## Formulas as arguments -/

namespace Text

theorem balanced_oneLine_iff {t : Text} : Balanced t.oneLine ↔ Balanced t := by
  rw [Balanced, Nesting.after, foldlM_oneLine Nesting.step_of_isPlain]
  rfl

end Text

variable {kind : ValueKind} {s : Surroundings} {name e : Text} {v : Value}

/-- An expression that has a value is one argument. -/
theorem Surroundings.isArgument_of_value (h : (s.eval kind e).result = .ok v) (hquote : '"' ∉ e)
    (hcommas : CommasNested e) : IsArgument e := by
  obtain ⟨a, b, ha, hb, he⟩ := Text.padded_trim e
  have htrimmed : Balanced (Text.trim e) :=
    Text.balanced_oneLine_iff.mp (balanced_of_value h hquote)
  refine Text.isArgument_iff.mpr ⟨?_, hcommas⟩
  rw [he]
  exact (ha.isArgument.balanced.append htrimmed).append hb.isArgument.balanced

namespace Surroundings

theorem evalNumber_call_one (s : Surroundings) (hname : IsName name)
    (hf : Elementary.ofName? name = none) (he : IsArgument e) (hne : normalize e ≠ []) :
    s.evalNumber (Text.call name [e]) =
      NumericExpr.callFunction s.ambient name [normalize e] := by
  rw [Text.call_eq_compactCall]
  exact s.evalNumber_compactCall hname hf (by simp) (by simpa using he) (by simpa using hne)

theorem evalText_call_one (s : Surroundings) (hname : IsName name) (he : IsArgument e)
    (hne : normalize e ≠ []) :
    s.evalText (Text.call name [e]) = TextExpr.callFunction s.ambient name [normalize e] := by
  rw [Text.call_eq_compactCall]
  exact s.evalText_compactCall hname (by simp) (by simpa using he) (by simpa using hne)

end Surroundings

/-! ## Which arguments are delegated -/

/-- A range keyword stands somewhere in front of the first parenthesis. -/
def Text.KeywordAhead (t : Text) : Prop :=
  ∃ head rest, t = head ++ '(' :: rest ∧ '(' ∉ head ∧ RangeKeyword.locate? head ≠ none

/-- No name directly in front of a parenthesis has a range keyword in it. -/
def Text.CallsNoRange (t : Text) : Prop :=
  ∀ ks : List Token, tokenize t = .ok (ks.map .token ++ [.finish]) →
    ∀ before n after, ks = before ++ .name n :: .openParen :: after →
      RangeKeyword.locate? n = none

namespace Intrinsic

theorem delegated_eq_none_iff {x : Text} : delegated [x] = .ok none ↔ ¬ x.KeywordAhead := by
  by_cases hparen : (x.takeWhile (· != '(')).length = x.length
  · have hnone : ¬ x.KeywordAhead := by
      rintro ⟨head, rest, rfl, -, -⟩
      have hself := List.IsPrefix.eq_of_length (List.takeWhile_prefix _) hparen
      have hmem := not_mem_head (head ++ '(' :: rest)
      rw [hself] at hmem
      simp at hmem
    simp [delegated, hparen, hnone]
  · obtain ⟨rest, hx⟩ := exists_paren hparen
    have hahead : x.KeywordAhead ↔ RangeKeyword.locate? (x.takeWhile (· != '(')) ≠ none := by
      constructor
      · rintro ⟨head, rest', hx', hhead, hkeyword⟩
        obtain ⟨rfl, -⟩ := append_paren_inj hhead (not_mem_head x) (hx'.symm.trans hx)
        exact hkeyword
      · intro hkeyword
        exact ⟨_, rest, hx, not_mem_head x, hkeyword⟩
    rw [hahead, not_not, delegated, if_neg hparen]
    cases RangeKeyword.locate? (x.takeWhile (· != '(')) with
    | none => simp
    | some r =>
      obtain ⟨keyword, stop⟩ := r
      dsimp only
      cases Arguments.parenthesized (x.drop stop) <;> simp [Except.map]

end Intrinsic

/-- The run fails before it asks anything, or asks for a range first. -/
def Run.LeftToRange {α : Type} (r : Run α) : Prop :=
  (∃ e, r = .fail e) ∨
    ∃ keyword kind expression, r.trace.head? = some (.range keyword kind expression)

theorem Run.LeftToRange.bind {α β : Type} {r : Run α} (h : r.LeftToRange) (f : α → Run β) :
    (r >>= f).LeftToRange := by
  rcases h with ⟨e, rfl⟩ | ⟨keyword, kind, expression, hfirst⟩
  · exact .inl ⟨e, rfl⟩
  · refine .inr ⟨keyword, kind, expression, ?_⟩
    cases hr : r.result with
    | error e => rwa [bind_of_error hr]
    | ok a =>
      rw [bind_of_ok hr]
      simp [List.head?_append, hfirst]

theorem Run.LeftToRange.blamedOn {α : Type} {r : Run α} (h : r.LeftToRange) (name : Text) :
    (r.blamedOn name).LeftToRange := by
  rcases h with ⟨e, rfl⟩ | hfirst
  · exact .inl ⟨_, rfl⟩
  · exact .inr hfirst

/-! ## What aggregates evaluate -/

namespace Intrinsic

variable {α β : Type} {c : Context Text} {x : Text}

/-- The values that an aggregate is computed from, each read by `read` where they are arguments. -/
def gather (c : Context Text) (kind : ValueKind) (convert : List Value → Run (List α))
    (read : Text → Run α) (xs : List Text) : Run (List α) := do
  match ← Run.ofExcept (delegated (xs.map c.source)) with
  | some (keyword, expression) => convert (← askRange c keyword kind expression)
  | none => Run.each read xs

theorem numbers_eq_gather (c : Context Text) (xs : List Text) :
    numbers c xs = gather c .number (Run.each fun v => .ofExcept (numberOf v)) c.number xs := rfl

theorem texts_eq_gather (c : Context Text) (xs : List Text) :
    texts c xs = gather c .text (fun vs => return vs.map textOf) c.text xs := rfl

variable {convert : List Value → Run (List α)} {read : Text → Run α}

/-- The value of the only argument is aggregated, unless the argument is delegated. -/
theorem aggregate_gather (hx : ¬ (c.source x).KeywordAhead) {a : α}
    (ha : (read x).result = .ok a) (f : List α → β) (name : Text) :
    Run.blamedOn (do return f (← gather c kind convert read [x])) name =
      ⟨(read x).trace, .ok (f [a])⟩ := by
  have hone : gather c kind convert read [x] = ⟨(read x).trace, .ok [a]⟩ := by
    unfold gather
    rw [List.map_singleton, delegated_eq_none_iff.mpr hx]
    show Run.each read [x] = _
    simp [Run.each, Run.bind_of_ok ha, Run.bind_of_ok]
  rw [hone]
  simp [Run.bind_of_ok, Run.blamedOn, Except.mapError]

theorem leftToRange_gather (hx : (c.source x).KeywordAhead) (f : List α → β) (name : Text) :
    (Run.blamedOn (do return f (← gather c kind convert read [x])) name).LeftToRange := by
  have hdelegated := mt delegated_eq_none_iff.mp (not_not.mpr hx)
  have hgather : (gather c kind convert read [x]).LeftToRange := by
    unfold gather
    rw [List.map_singleton]
    rcases hresult : delegated [c.source x] with error | _ | ⟨keyword, expression⟩
    · exact .inl ⟨error, rfl⟩
    · exact absurd hresult hdelegated
    · have hasked : (askRange c keyword kind expression).LeftToRange := .inr ⟨_, _, _, rfl⟩
      exact hasked.bind _
  exact (hgather.bind _).blamedOn name

/-- A numeric function that is computed from the numbers of its arguments. -/
def overNumbers (f : List Float → Float) : Body Text Float :=
  .atLeast 1 fun c xs => do return f (← numbers c xs)

/-- A text function that is computed from the texts of its arguments. -/
def overTexts (f : List Text → Text) : Body Text Text :=
  .atLeast 1 fun c xs => do return f (← texts c xs)

theorem calls_count : Calls "count".toList (overNumbers fun vs => Float.ofNat vs.length) :=
  ⟨by decide, by decide, by rfl⟩

/-- What these functions give for one number is the number, also for a zero with a sign. -/
theorem exists_calls : ∀ name ∈ ["sum".toList, "max".toList, "min".toList, "avg".toList],
    ∃ f, Calls name (overNumbers f) ∧ ∀ v, f [v] = v := by
  have total_one : ∀ v, total [v] = v := Binary64.negZero_add
  have average_one : ∀ v, total [v] / Float.ofNat 1 = v := by
    intro v
    rw [total_one, Binary64.div_ofNat_one]
  simp only [List.forall_mem_cons, List.not_mem_nil, false_imp_iff, implies_true, and_true]
  refine ⟨⟨total, ?_, total_one⟩, ⟨select (fun v kept => v > kept) 0, ?_, fun v => rfl⟩,
    ⟨select (fun v kept => v < kept) 0, ?_, fun v => rfl⟩,
    ⟨fun vs => if vs.isEmpty then 0 else total vs / Float.ofNat vs.length, ?_, average_one⟩⟩
  · exact ⟨by decide, by decide, by rfl⟩
  · exact ⟨by decide, by decide, by rfl⟩
  · exact ⟨by decide, by decide, by rfl⟩
  · exact ⟨by decide, by decide, by rfl⟩

theorem exists_callsText : ∀ name ∈ ["sum".toList, "max".toList, "min".toList],
    ∃ f, CallsText name (overTexts f) ∧ ∀ t, f [t] = t := by
  simp only [List.forall_mem_cons, List.not_mem_nil, false_imp_iff, implies_true, and_true]
  refine ⟨⟨List.flatten, ?_, fun t => by simp⟩,
    ⟨select (fun t kept => Text.compare t kept == .gt) [], ?_, fun t => rfl⟩,
    ⟨select (fun t kept => Text.compare t kept == .lt) [], ?_, fun t => rfl⟩⟩
  · exact ⟨by decide, by rfl⟩
  · exact ⟨by decide, by rfl⟩
  · exact ⟨by decide, by rfl⟩

end Intrinsic

open Intrinsic (Calls CallsText overNumbers overTexts)

namespace Surroundings

section

variable {f : List Float → Float} (hf : Calls name (overNumbers f)) (he : IsArgument e)
  (hne : normalize e ≠ [])

include hf he hne

theorem evalNumber_overNumbers :
    s.evalNumber (Text.call name [e]) =
      Run.blamedOn (do return f (← Intrinsic.numbers s.ambient [normalize e])) name := by
  rw [s.evalNumber_call_one hf.isName hf.not_elementary he hne, hf.callFunction_eq rfl]

theorem evalNumber_aggregate (hahead : ¬ (normalize e).KeywordAhead) {w : Float}
    (hw : (s.evalNumber e).result = .ok w) :
    s.evalNumber (Text.call name [e]) = ⟨(s.evalNumber e).trace, .ok (f [w])⟩ := by
  rw [← s.evalNumber_normalize e] at hw ⊢
  rw [evalNumber_overNumbers hf he hne, Intrinsic.numbers_eq_gather]
  exact Intrinsic.aggregate_gather hahead hw f name

theorem evalNumber_leftToRange (hahead : (normalize e).KeywordAhead) :
    (s.evalNumber (Text.call name [e])).LeftToRange := by
  rw [evalNumber_overNumbers hf he hne, Intrinsic.numbers_eq_gather]
  exact Intrinsic.leftToRange_gather hahead f name

end

section

variable {f : List Text → Text} (hf : CallsText name (overTexts f)) (he : IsArgument e)
  (hne : normalize e ≠ [])

include hf he hne

theorem evalText_overTexts :
    s.evalText (Text.call name [e]) =
      Run.blamedOn (do return f (← Intrinsic.texts s.ambient [normalize e])) name := by
  rw [s.evalText_call_one hf.isName he hne, hf.callFunction_eq rfl]

theorem evalText_aggregate (hahead : ¬ (normalize e).KeywordAhead) {w : Text}
    (hw : (s.evalText e).result = .ok w) :
    s.evalText (Text.call name [e]) = ⟨(s.evalText e).trace, .ok (f [w])⟩ := by
  rw [← s.evalText_normalize e] at hw ⊢
  rw [evalText_overTexts hf he hne, Intrinsic.texts_eq_gather]
  exact Intrinsic.aggregate_gather hahead hw f name

theorem evalText_leftToRange (hahead : (normalize e).KeywordAhead) :
    (s.evalText (Text.call name [e])).LeftToRange := by
  rw [evalText_overTexts hf he hne, Intrinsic.texts_eq_gather]
  exact Intrinsic.leftToRange_gather hahead f name

end

variable (s) in
/-- An expression without double quotes and without commas outside its quotes and parentheses is the
same as its sum, its extremes and its average, with the same questions to the host, and counts as
one; that is if no range keyword stands in front of its first parenthesis. With a keyword there the
expression is not evaluated: the call fails at once or asks for a range first. -/
theorem aggregate_of_one {e : Text} (hquote : '"' ∉ e) (hcommas : CommasNested e) :
    (∀ v, (s.evalNumber e).result = .ok v →
      (¬ (normalize e).KeywordAhead →
        (∀ name ∈ ["sum".toList, "max".toList, "min".toList, "avg".toList],
          s.evalNumber (Text.call name [e]) = s.evalNumber e) ∧
        s.evalNumber (Text.call "count".toList [e]) = ⟨(s.evalNumber e).trace, .ok 1⟩) ∧
      ((normalize e).KeywordAhead →
        ∀ name ∈ ["sum".toList, "max".toList, "min".toList, "avg".toList, "count".toList],
          (s.evalNumber (Text.call name [e])).LeftToRange)) ∧
    ∀ v, (s.evalText e).result = .ok v →
      (¬ (normalize e).KeywordAhead →
        ∀ name ∈ ["sum".toList, "max".toList, "min".toList],
          s.evalText (Text.call name [e]) = s.evalText e) ∧
      ((normalize e).KeywordAhead →
        ∀ name ∈ ["sum".toList, "max".toList, "min".toList],
          (s.evalText (Text.call name [e])).LeftToRange) := by
  constructor
  · intro v hv
    have hvalue : (s.eval .number e).result = .ok (.number v) := result_eval_number hv
    have he := isArgument_of_value hvalue hquote hcommas
    have hne := normalize_ne_nil_of_value hvalue
    constructor
    · intro hahead
      refine ⟨fun name hname => ?_, evalNumber_aggregate Intrinsic.calls_count he hne hahead hv⟩
      obtain ⟨f, hf, hone⟩ := Intrinsic.exists_calls name hname
      rw [evalNumber_aggregate hf he hne hahead hv, hone, ← hv]
    · intro hahead name hname
      by_cases hcount : name = "count".toList
      · subst hcount
        exact evalNumber_leftToRange Intrinsic.calls_count he hne hahead
      · have hother : name ∈ ["sum".toList, "max".toList, "min".toList, "avg".toList] := by
          simpa only [List.mem_cons, List.not_mem_nil, hcount, or_false] using hname
        obtain ⟨f, hf, -⟩ := Intrinsic.exists_calls name hother
        exact evalNumber_leftToRange hf he hne hahead
  · intro v hv
    have hvalue : (s.eval .text e).result = .ok (.text v) := result_eval_text hv
    have he := isArgument_of_value hvalue hquote hcommas
    have hne := normalize_ne_nil_of_value hvalue
    constructor
    · intro hahead name hname
      obtain ⟨f, hf, hone⟩ := Intrinsic.exists_callsText name hname
      rw [evalText_aggregate hf he hne hahead hv, hone, ← hv]
    · intro hahead name hname
      obtain ⟨f, hf, -⟩ := Intrinsic.exists_callsText name hname
      exact evalText_leftToRange hf he hne hahead

theorem aggregate_of_one_nested :
    (initial {}).evalNumber "avg(max(2, 3) - 1)".toList =
        (initial {}).evalNumber "max(2, 3) - 1".toList ∧
      (initial {}).evalText "sum('parent' + 'a,b')".toList =
        (initial {}).evalText "'parent' + 'a,b'".toList := by
  have hnumber : ((initial {}).evalNumber "max(2, 3) - 1".toList).result = .ok 2 := by
    decide +kernel
  have htext : ((initial {}).evalText "'parent' + 'a,b'".toList).result =
      .ok "parenta,b".toList := by decide +kernel
  have hcommas := (Text.isArgument_iff.mp (by decide : IsArgument "max(2, 3) - 1".toList)).2
  have hcommas' := (Text.isArgument_iff.mp (by decide : IsArgument "'parent' + 'a,b'".toList)).2
  have hahead : ¬ (normalize "max(2, 3) - 1".toList).KeywordAhead :=
    Intrinsic.delegated_eq_none_iff.mp (by decide)
  have hahead' : ¬ (normalize "'parent' + 'a,b'".toList).KeywordAhead :=
    Intrinsic.delegated_eq_none_iff.mp (by decide)
  have h := (aggregate_of_one (initial {}) (by decide) hcommas).1 _ hnumber
  have h' := (aggregate_of_one (initial {}) (by decide) hcommas').2 _ htext
  exact ⟨(h.1 hahead).1 "avg".toList (by simp), h'.1 hahead' "sum".toList (by simp)⟩

/-- A keyword that is a name of its own is in front of no parenthesis, but ahead of one. -/
theorem callsNoRange_parent : (normalize "parent + ( 1 )".toList).CallsNoRange := by
  have hname : IsName "parent".toList := by decide
  have hplus : (['+'], .operator .plus) ∈ Symbol.punctuation := by simp [Symbol.punctuation]
  have hopen : (['('], .openParen) ∈ Symbol.punctuation := by simp [Symbol.punctuation]
  have hclose : ([')'], .closeParen) ∈ Symbol.punctuation := by simp [Symbol.punctuation]
  have hwords : Text.Separated ["parent".toList, ['+'], ['('], ['1'], [')']]
      (normalize "parent + ( 1 )".toList) :=
    .more one_ne_zero (.more one_ne_zero (.more one_ne_zero (.more one_ne_zero (.one _))))
  have htokens : tokenize (normalize "parent + ( 1 )".toList) = .ok (([.name "parent".toList,
      .operator .plus, .openParen, .numeral (.whole 1), .closeParen] : List Token).map .token ++
        [.finish]) :=
    Lexer.tokenize_of_separated hwords <|
      .cons (.name hname) <| .cons (.punctuation hplus) <| .cons (.punctuation hopen) <|
        .cons (.whole (by simp) (by simp) (by decide)) <| .cons (.punctuation hclose) .nil
  intro ks hks before n after heq
  have hsame := List.append_cancel_right (Except.ok.inj (hks.symm.trans htokens))
  obtain rfl := List.map_injective_iff.mpr (fun _ _ => Symbol.token.inj) hsame
  rcases before with _ | ⟨_, _ | ⟨_, _ | ⟨_, _ | ⟨_, _ | ⟨_, _⟩⟩⟩⟩⟩ <;> simp at heq

/-- A name with a keyword in it that is added to something in parentheses is taken for a range. -/
theorem exists_sum_of_one_ne : ¬ ∀ (s : Surroundings) (e : Text), '"' ∉ e → CommasNested e →
    (normalize e).CallsNoRange → ∀ v, (s.evalNumber e).result = .ok v →
      s.evalNumber (Text.call "sum".toList [e]) = s.evalNumber e := by
  intro h
  let s := initial { value := fun _ => some 7 }
  let e := "parent + ( 1 )".toList
  have hvalue : (s.evalNumber e).result = .ok 8 := by decide +kernel
  have hother : (s.evalNumber (Text.call "sum".toList [e])).result ≠ .ok 8 := by decide +kernel
  have hcommas := (Text.isArgument_iff.mp (by decide : IsArgument e)).2
  have hsum := h s e (by decide) hcommas callsNoRange_parent 8 hvalue
  exact hother (hsum ▸ hvalue)

end Surroundings

end FormulaEngine
