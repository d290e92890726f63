import FormulaEngine.Proofs.Aggregates
import FormulaEngine.Proofs.Meanings
import FormulaEngine.Proofs.TextOrder

/-! # The greatest and the least value

An extreme is found from the left: a value is kept until a later one lies further out. What is left
is one of the values, and none of them lies further out. So extremes of texts do not depend on the
order, nor do those of numbers, up to the sign of a zero, unless one of them is not a number:
nothing replaces that, and it replaces nothing, so it is the result when it comes first, and is
passed over elsewhere. -/

namespace FormulaEngine

open Binary64
open Text (IsArgument compactCall)

/-! ## Keeping what nothing replaces -/

namespace Intrinsic

section

variable {α : Type} {replaces : α → α → Bool} {default : α} {u v : α} {vs : List α}

/-- The first two values make way for the one of them that is kept. -/
theorem select_cons_cons : select replaces default (v :: u :: vs) =
    select replaces default ((if replaces u v then u else v) :: vs) := rfl

/-- What is left has every property that the first value has, and every value that replaces
another one. -/
theorem select_induction {P : α → Prop} (hv : P v)
    (hstep : ∀ u ∈ vs, ∀ kept, P kept → replaces u kept = true → P u) :
    P (select replaces default (v :: vs)) := by
  induction vs generalizing v with
  | nil => exact hv
  | cons u us ih =>
    obtain ⟨hu, hus⟩ := List.forall_mem_cons.mp hstep
    rw [select_cons_cons]
    split
    · rename_i hreplaces
      exact ih (hu v hv hreplaces) hus
    · exact ih hv hus

theorem select_mem (hne : vs ≠ []) : select replaces default vs ∈ vs := by
  obtain ⟨v, vs, rfl⟩ := List.exists_cons_of_ne_nil hne
  exact select_induction (P := (· ∈ v :: vs)) List.mem_cons_self
    fun u hu _ _ _ => List.mem_cons_of_mem _ hu

/-- A value that nothing replaces stays. -/
theorem select_of_irreplaceable (h : ∀ u ∈ vs, replaces u v = false) :
    select replaces default (v :: vs) = v := by
  refine select_induction (P := (· = v)) rfl ?_
  rintro u hu _ rfl hreplaces
  exact absurd hreplaces (by simp [h u hu])

/-- Further out is an order, but there may be values that it does not compare. -/
structure IsStrict (replaces : α → α → Bool) : Prop where
  irrefl : ∀ v, replaces v v = false
  trans : ∀ {u v w}, replaces u v = true → replaces v w = true → replaces u w = true

theorem IsStrict.select_eq_or_replaces (h : IsStrict replaces) :
    select replaces default (v :: vs) = v ∨
      replaces (select replaces default (v :: vs)) v = true := by
  refine select_induction (P := fun u => u = v ∨ replaces u v = true) (.inl rfl) ?_
  rintro u - kept (rfl | hkept) hreplaces
  · exact .inr hreplaces
  · exact .inr (h.trans hreplaces hkept)

/-- None of the values replaces what is left. -/
theorem IsStrict.not_replaces_select (h : IsStrict replaces) :
    ∀ u ∈ vs, replaces u (select replaces default vs) = false := by
  cases vs with
  | nil => exact fun u hu => nomatch hu
  | cons v vs =>
    induction vs generalizing v with
    | nil => simpa [select] using h.irrefl v
    | cons u us ih =>
      rw [select_cons_cons]
      by_cases hreplaces : replaces u v = true
      · rw [if_pos hreplaces]
        refine List.forall_mem_cons.mpr ⟨?_, ih u⟩
        -- what would replace the result in its place would be replaced by the second value
        by_contra hfirst
        have hsecond := ih u u List.mem_cons_self
        rw [h.trans hreplaces (by simpa using hfirst)] at hsecond
        cases hsecond
      · rw [if_neg hreplaces]
        obtain ⟨hv, hus⟩ := List.forall_mem_cons.mp (ih v)
        refine List.forall_mem_cons.mpr ⟨hv, List.forall_mem_cons.mpr ⟨?_, hus⟩⟩
        by_contra hsecond
        have hsecond : replaces u (select replaces default (v :: us)) = true := by
          simpa using hsecond
        have hkept : select replaces default (v :: us) = v ∨
            replaces (select replaces default (v :: us)) v = true := h.select_eq_or_replaces
        rcases hkept with heq | hkept
        · exact hreplaces (heq ▸ hsecond)
        · exact hreplaces (h.trans hsecond hkept)

end

end Intrinsic

/-! ## Numbers and texts -/

inductive Extreme where
  | greatest
  | least
  deriving DecidableEq, Repr

namespace Extreme

/-- The function that finds it. -/
def name : Extreme → Text
  | greatest => "max".toList
  | least => "min".toList

variable {α : Type}

/-- One value lies further out than another. -/
def Beyond [LT α] : Extreme → α → α → Prop
  | greatest, v, w => v > w
  | least, v, w => v < w

instance [LT α] [DecidableLT α] (e : Extreme) (v w : α) : Decidable (e.Beyond v w) :=
  match e with
  | greatest => inferInstanceAs (Decidable (v > w))
  | least => inferInstanceAs (Decidable (v < w))

/-- A value is as far out as another one, or further. -/
def Bounds [LE α] : Extreme → α → α → Prop
  | greatest, v, w => w ≤ v
  | least, v, w => v ≤ w

theorem isStrict_beyond [LT α] [DecidableLT α] (hirrefl : ∀ v : α, ¬ v < v)
    (htrans : ∀ {u v w : α}, u < v → v < w → u < w) (e : Extreme) :
    Intrinsic.IsStrict fun v kept : α => decide (e.Beyond v kept) := by
  cases e with
  | greatest =>
    exact ⟨fun v => decide_eq_false (hirrefl v), fun h h' =>
      decide_eq_true (htrans (of_decide_eq_true h') (of_decide_eq_true h))⟩
  | least =>
    exact ⟨fun v => decide_eq_false (hirrefl v), fun h h' =>
      decide_eq_true (htrans (of_decide_eq_true h) (of_decide_eq_true h'))⟩

/-- Where every two values compare, what is not further out is bounded. -/
theorem bounds_iff_not_beyond [LinearOrder α] (e : Extreme) {v w : α} :
    e.Bounds v w ↔ ¬ e.Beyond w v := by
  cases e with
  | greatest => exact not_lt.symm
  | least => exact not_lt.symm

theorem eq_of_bounds [PartialOrder α] (e : Extreme) {v w : α} (h : e.Bounds v w)
    (h' : e.Bounds w v) : v = w := by
  cases e with
  | greatest => exact le_antisymm h' h
  | least => exact le_antisymm h h'

variable {e : Extreme} {v w : Float}

theorem ne_nan_of_beyond (h : e.Beyond v w) : parts v ≠ .nan ∧ parts w ≠ .nan := by
  cases e with
  | greatest => exact (ne_nan_of_compare (lt_iff_compare.mp h)).symm
  | least => exact ne_nan_of_compare (lt_iff_compare.mp h)

theorem bounds_of_not_beyond (hv : parts v ≠ .nan) (hw : parts w ≠ .nan) (h : ¬ e.Beyond w v) :
    e.Bounds v w := by
  cases e with
  | greatest => exact le_of_not_greater hw hv h
  | least => exact le_of_not_greater hv hw h

theorem beq_of_not_beyond (hv : parts v ≠ .nan) (hw : parts w ≠ .nan) (h : ¬ e.Beyond v w)
    (h' : ¬ e.Beyond w v) : (v == w) = true := by
  cases e with
  | greatest => exact beq_iff_not_lt.mpr ⟨⟨hv, hw⟩, h', h⟩
  | least => exact beq_iff_not_lt.mpr ⟨⟨hv, hw⟩, h, h'⟩

end Extreme

/-! ## What is left of a list -/

/-- The numbers are numerically the same, or neither is a number. -/
def SameNumber (x y : Float) : Prop := (x == y) = true ∨ parts x = .nan ∧ parts y = .nan

/-- The first of the values is not a number. -/
def LedByNaN (vs : List Float) : Prop := ∃ v ∈ vs.head?, parts v = .nan

instance (vs : List Float) : Decidable (LedByNaN vs) :=
  inferInstanceAs (Decidable (∃ v ∈ vs.head?, parts v = .nan))

namespace Intrinsic

/-- What the functions make of numbers. -/
def outermost (e : Extreme) : List Float → Float :=
  select (fun v kept => decide (e.Beyond v kept)) 0

/-- What the functions make of texts. -/
def outermostText (e : Extreme) : List Text → Text :=
  select (fun t kept => decide (e.Beyond t kept)) []

theorem calls_outermost (e : Extreme) : Calls e.name (overNumbers (outermost e)) := by
  cases e
  · exact ⟨by decide, by decide, by rfl⟩
  · exact ⟨by decide, by decide, by rfl⟩

theorem callsText_outermostText (e : Extreme) :
    CallsText e.name (overTexts (outermostText e)) := by
  unfold outermostText
  cases e with
  | greatest =>
    have hreplaces : (fun t kept : Text => decide (Extreme.greatest.Beyond t kept)) =
        fun t kept => Text.compare t kept == .gt := by
      funext t kept
      rw [Bool.eq_iff_iff, decide_eq_true_iff, beq_iff_eq, Text.compare_eq_gt_iff]
      rfl
    rw [hreplaces]
    exact ⟨by decide, by rfl⟩
  | least =>
    have hreplaces : (fun t kept : Text => decide (Extreme.least.Beyond t kept)) =
        fun t kept => Text.compare t kept == .lt := by
      funext t kept
      rw [Bool.eq_iff_iff, decide_eq_true_iff, beq_iff_eq, Text.compare_eq_lt_iff]
      rfl
    rw [hreplaces]
    exact ⟨by decide, by rfl⟩

variable {e : Extreme} {vs ws : List Float} {as bs : List Text}

theorem not_beyond_outermost (e : Extreme) (vs : List Float) :
    ∀ v ∈ vs, ¬ e.Beyond v (outermost e vs) := fun v hv => of_decide_eq_false <|
  (Extreme.isStrict_beyond not_lt_self lt_of_lt_of_lt e).not_replaces_select v hv

/-- Only the first value decides whether there is a number. -/
theorem outermost_eq_nan_iff (hne : vs ≠ []) : parts (outermost e vs) = .nan ↔ LedByNaN vs := by
  obtain ⟨v, vs, rfl⟩ := List.exists_cons_of_ne_nil hne
  have hled : LedByNaN (v :: vs) ↔ parts v = .nan := by simp [LedByNaN]
  rw [hled]
  constructor
  · intro hresult
    by_contra hv
    refine select_induction (P := fun u => parts u ≠ .nan) hv ?_ hresult
    exact fun u _ kept _ hreplaces => (Extreme.ne_nan_of_beyond (of_decide_eq_true hreplaces)).1
  · intro hv
    have hkept : outermost e (v :: vs) = v := select_of_irreplaceable fun u _ =>
      decide_eq_false fun hbeyond => (Extreme.ne_nan_of_beyond hbeyond).2 hv
    rw [hkept, hv]

theorem outermost_bounds (h : ∀ v ∈ vs, parts v ≠ .nan) (hne : vs ≠ []) :
    ∀ v ∈ vs, e.Bounds (outermost e vs) v := fun v hv =>
  Extreme.bounds_of_not_beyond (h _ (select_mem hne)) (h v hv) (not_beyond_outermost e vs v hv)

/-- Each of the two results is one of the numbers that the other one is computed from. -/
theorem sameNumber_outermost_iff (h : vs.Perm ws) (hne : vs ≠ []) :
    SameNumber (outermost e vs) (outermost e ws) ↔ (LedByNaN vs ↔ LedByNaN ws) := by
  have hne' : ws ≠ [] := fun hnil => hne (hnil ▸ h).eq_nil
  rw [← outermost_eq_nan_iff (e := e) hne, ← outermost_eq_nan_iff (e := e) hne']
  constructor
  · rintro (hsame | ⟨hx, hy⟩)
    · obtain ⟨⟨hx, hy⟩, -⟩ := beq_iff_not_lt.mp hsame
      exact iff_of_false hx hy
    · exact iff_of_true hx hy
  · intro hnan
    by_cases hx : parts (outermost e vs) = .nan
    · exact .inr ⟨hx, hnan.mp hx⟩
    · refine .inl (Extreme.beq_of_not_beyond (e := e) hx (mt hnan.mpr hx) ?_ ?_)
      · exact not_beyond_outermost e ws _ (h.mem_iff.mp (select_mem hne))
      · exact not_beyond_outermost e vs _ (h.mem_iff.mpr (select_mem hne'))

theorem outermostText_bounds : ∀ t ∈ as, e.Bounds (outermostText e as) t := fun t ht =>
  (Extreme.bounds_iff_not_beyond e).mpr <| of_decide_eq_false <|
    (Extreme.isStrict_beyond (α := Text) (fun _ => lt_irrefl _) lt_trans e).not_replaces_select t ht

theorem outermostText_perm (h : as.Perm bs) (hne : as ≠ []) :
    outermostText e as = outermostText e bs := by
  have hne' : bs ≠ [] := fun hnil => hne (hnil ▸ h).eq_nil
  have has : outermostText e as ∈ bs := h.mem_iff.mp (select_mem hne)
  have hbs : outermostText e bs ∈ as := h.mem_iff.mpr (select_mem hne')
  exact Extreme.eq_of_bounds e (outermostText_bounds _ hbs) (outermostText_bounds _ has)

end Intrinsic

open Intrinsic (outermost outermostText)

/-! ## Calls -/

/-- An answer of the host as a value of one kind. -/
def Value.as : (k : ValueKind) → Value → Except FormulaError k.Carrier
  | .number, v => Intrinsic.numberOf v
  | .text, v => .ok (Intrinsic.textOf v)

namespace Surroundings

/-- These are the values of the arguments, or of the records that the only argument means. -/
inductive Supplies (s : Surroundings) (k : ValueKind) (ts : List Text) (vs : List k.Carrier) :
    Prop where
  | arguments (hd : Intrinsic.delegated (ts.map normalize) = .ok none)
      (h : List.Forall₂ (fun t v => (s.value k t).result = .ok v) ts vs)
  | range {keyword : RangeKeyword} {expression : Text} {answers : List Value}
      (hd : Intrinsic.delegated (ts.map normalize) = .ok (some (keyword, expression)))
      (ha : s.host.range keyword k expression = some answers)
      (h : List.Forall₂ (fun a v => a.as k = .ok v) answers vs)

variable {s s' : Surroundings} {k : ValueKind} {e : Extreme} {ts us : List Text}

theorem normalize_ne_nil_of_result {t : Text} {v : k.Carrier}
    (h : (s.value k t).result = .ok v) : normalize t ≠ [] := by
  cases k with
  | number => exact normalize_ne_nil_of_value (result_eval_number h)
  | text => exact normalize_ne_nil_of_value (result_eval_text h)

/-- Values do not come from nothing. -/
theorem Supplies.ne_nil {vs : List k.Carrier} (h : s.Supplies k ts vs) (hne : vs ≠ []) :
    ts ≠ [] ∧ ts.map normalize ≠ [[]] := by
  cases h with
  | arguments hd h =>
    constructor
    · rintro rfl
      exact hne (List.forall₂_nil_left_iff.mp h)
    · intro hblank
      obtain ⟨t, rfl, ht⟩ := List.map_eq_singleton_iff.mp hblank
      obtain ⟨v, _, hv, _, _⟩ := List.forall₂_cons_left_iff.mp h
      exact normalize_ne_nil_of_result hv ht
  | range hd ha h =>
    constructor
    · rintro rfl
      cases hd
    · intro hblank
      rw [hblank] at hd
      cases hd

theorem Supplies.result_gather {vs : List k.Carrier} (h : s.Supplies k ts vs)
    {convert : List Value → Run (List k.Carrier)} {read : Text → Run k.Carrier}
    (hconvert : ∀ answers, List.Forall₂ (fun a v => a.as k = .ok v) answers vs →
      (convert answers).result = .ok vs)
    (hread : ∀ t, read (normalize t) = s.value k t) :
    (Intrinsic.gather s.ambient k convert read (ts.map normalize)).result = .ok vs := by
  have hsource : (ts.map normalize).map s.ambient.source = ts.map normalize := List.map_id _
  unfold Intrinsic.gather
  rw [hsource]
  cases h with
  | arguments hd h =>
    rw [hd]
    refine Run.each_of_forall₂ (List.forall₂_map_left_iff.mpr (h.imp fun t v hv => ?_))
    rw [hread, hv]
  | @range keyword expression answers hd ha h =>
    rw [hd]
    have hasked : (Intrinsic.askRange s.ambient keyword k expression).result = .ok answers :=
      congrArg (fun answer => (Run.ask _ answer).result) ha
    exact (Run.result_bind_of_ok hasked convert).trans (hconvert answers h)

theorem Supplies.result_numbers {vs : List Float} (h : s.Supplies .number ts vs) :
    (Intrinsic.numbers s.ambient (ts.map normalize)).result = .ok vs := by
  rw [Intrinsic.numbers_eq_gather]
  refine h.result_gather (fun answers hanswers => ?_) s.evalNumber_normalize
  exact Run.each_of_forall₂ hanswers

theorem Supplies.result_texts {as : List Text} (h : s.Supplies .text ts as) :
    (Intrinsic.texts s.ambient (ts.map normalize)).result = .ok as := by
  rw [Intrinsic.texts_eq_gather]
  refine h.result_gather (fun answers hanswers => ?_) s.evalText_normalize
  have hsame : List.Forall₂ Eq (answers.map Intrinsic.textOf) as :=
    List.forall₂_map_left_iff.mpr (hanswers.imp fun _ _ => Except.ok.inj)
  exact congrArg Except.ok (List.forall₂_eq_eq_eq ▸ hsame)

theorem Supplies.result_evalNumber {vs : List Float} (h : s.Supplies .number ts vs)
    (hne : vs ≠ []) (hts : ∀ t ∈ ts, IsArgument t) :
    (s.evalNumber (compactCall e.name ts)).result = .ok (outermost e vs) := by
  obtain ⟨hcons, hblank⟩ := h.ne_nil hne
  have hcall := Intrinsic.calls_outermost e
  have hcount : 1 ≤ (ts.map normalize).length :=
    List.length_pos_of_ne_nil (by simpa using hcons)
  rw [s.evalNumber_compactCall hcall.isName hcall.not_elementary hcons hts hblank,
    hcall.callFunction_eq (if_pos hcount), Run.result_blamedOn_eq_ok,
    Run.result_bind_of_ok h.result_numbers]
  rfl

theorem Supplies.result_evalText {as : List Text} (h : s.Supplies .text ts as)
    (hne : as ≠ []) (hts : ∀ t ∈ ts, IsArgument t) :
    (s.evalText (compactCall e.name ts)).result = .ok (outermostText e as) := by
  obtain ⟨hcons, hblank⟩ := h.ne_nil hne
  have hcall := Intrinsic.callsText_outermostText e
  have hcount : 1 ≤ (ts.map normalize).length :=
    List.length_pos_of_ne_nil (by simpa using hcons)
  rw [s.evalText_compactCall hcall.isName hcons hts hblank,
    hcall.callFunction_eq (if_pos hcount), Run.result_blamedOn_eq_ok,
    Run.result_bind_of_ok h.result_texts]
  rfl

/-- The order of the values has no part in the extremes of texts, and none in those of numbers as
long as the first value is a number in both orders, or in neither. The extreme is one of the values,
and unless there is something among them that is not a number, it bounds all of them. -/
theorem extremes_of_perm (e : Extreme) (hts : ∀ t ∈ ts, IsArgument t)
    (hus : ∀ t ∈ us, IsArgument t) :
    (∀ vs ws, s.Supplies .number ts vs → s'.Supplies .number us ws → vs.Perm ws → vs ≠ [] →
      ∃ x y, (s.evalNumber (compactCall e.name ts)).result = .ok x ∧
        (s'.evalNumber (compactCall e.name us)).result = .ok y ∧
        (SameNumber x y ↔ (LedByNaN vs ↔ LedByNaN ws)) ∧
        x ∈ vs ∧ ((∀ v ∈ vs, parts v ≠ .nan) → ∀ v ∈ vs, e.Bounds x v)) ∧
    ∀ as bs, s.Supplies .text ts as → s'.Supplies .text us bs → as.Perm bs → as ≠ [] →
      ∃ a, (s.evalText (compactCall e.name ts)).result = .ok a ∧
        (s'.evalText (compactCall e.name us)).result = .ok a ∧
        a ∈ as ∧ ∀ b ∈ as, e.Bounds a b := by
  constructor
  · intro vs ws hvs hws hperm hne
    have hne' : ws ≠ [] := fun hnil => hne (hnil ▸ hperm).eq_nil
    refine ⟨_, _, hvs.result_evalNumber hne hts, hws.result_evalNumber hne' hus,
      Intrinsic.sameNumber_outermost_iff hperm hne, Intrinsic.select_mem hne, fun hnumbers => ?_⟩
    exact Intrinsic.outermost_bounds hnumbers hne
  · intro as bs has hbs hperm hne
    have hne' : bs ≠ [] := fun hnil => hne (hnil ▸ hperm).eq_nil
    refine ⟨_, has.result_evalText hne hts, ?_, Intrinsic.select_mem hne,
      Intrinsic.outermostText_bounds⟩
    rw [Intrinsic.outermostText_perm hperm hne]
    exact hbs.result_evalText hne' hus

/-- The same values as arguments and, in another order, as the answers of a host. -/
theorem extremes_of_perm_children :
    let s := initial {
      range := fun _ kind _ =>
        match kind with
        | .number => some [.number 2, .text "-3".toList]
        | .text => some [.text "z".toList, .number 10] }
    (∃ x y, (s.evalNumber "max(-3,2)".toList).result = .ok x ∧
        (s.evalNumber "max(childs(a))".toList).result = .ok y ∧ SameNumber x y) ∧
      ∃ a, (s.evalText "min('10','z')".toList).result = .ok a ∧
        (s.evalText "min(childs(a))".toList).result = .ok a := by
  intro s
  have hd : Intrinsic.delegated (["childs(a)".toList].map normalize) =
      .ok (some (.childs, "a".toList)) := by decide
  have hnumbers : s.Supplies .number ["-3".toList, "2".toList] [-3, 2] :=
    .arguments (by decide) <| .cons (by decide +kernel) <| .cons (by decide +kernel) .nil
  have hrange : s.Supplies .number ["childs(a)".toList] [2, -3] :=
    .range hd rfl <| .cons rfl <| .cons (by decide +kernel) .nil
  have htexts : s.Supplies .text ["'10'".toList, "'z'".toList] ["10".toList, "z".toList] :=
    .arguments (by decide) <| .cons (by decide +kernel) <| .cons (by decide +kernel) .nil
  have hrange' : s.Supplies .text ["childs(a)".toList] ["z".toList, "10".toList] :=
    .range hd rfl <| .cons rfl <| .cons (by decide +kernel) .nil
  constructor
  · obtain ⟨x, y, hx, hy, hsame, -⟩ := (extremes_of_perm .greatest (by decide) (by decide)).1 _ _
      hnumbers hrange (.swap _ _ _) (by simp)
    exact ⟨x, y, hx, hy, hsame.mpr (by decide)⟩
  · obtain ⟨a, ha, ha', -⟩ := (extremes_of_perm .least (by decide) (by decide)).2 _ _
      htexts hrange' (.swap _ _ _) (by simp)
    exact ⟨a, ha, ha'⟩

/-- Zero divided by zero is the greatest value where it comes first. -/
theorem exists_order_matters : ¬ ∀ (e : Extreme) (s : Surroundings) (ts us : List Text)
    (vs ws : List Float), (∀ t ∈ ts, IsArgument t) → (∀ t ∈ us, IsArgument t) →
      s.Supplies .number ts vs → s.Supplies .number us ws → vs.Perm ws → vs ≠ [] →
        ∀ x y, (s.evalNumber (compactCall e.name ts)).result = .ok x →
          (s.evalNumber (compactCall e.name us)).result = .ok y → SameNumber x y := by
  intro h
  let s := initial {}
  have hfirst : s.Supplies .number ["0/0".toList, "1".toList] [0 / 0, 1] :=
    .arguments (by decide) <| .cons (by decide +kernel) <| .cons (by decide +kernel) .nil
  have hlast : s.Supplies .number ["1".toList, "0/0".toList] [1, 0 / 0] :=
    .arguments (by decide) <| .cons (by decide +kernel) <| .cons (by decide +kernel) .nil
  have hsame := h .greatest s _ _ _ _ (by decide) (by decide) hfirst hlast (.swap _ _ _) (by simp)
    (0 / 0) 1 (by decide +kernel) (by decide +kernel)
  rcases hsame with hsame | ⟨-, hone⟩
  · exact absurd hsame (by decide +kernel)
  · exact absurd hone (by decide +kernel)

end Surroundings

end FormulaEngine
