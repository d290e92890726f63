import FormulaEngine.Proofs.Bands
import FormulaEngine.Proofs.Unfolding

/-! # Comparisons in formulas

All six comparisons are made from the test whether two numbers are nearly equal, and from a strict
one. Up to 300 decimals the band of that test is a number that is not negative, so it takes in equal
values, and no difference that is infinite. The comparisons are consistent for all numbers, but an
infinity has no difference to itself, and counts as unequal to itself without being less or
greater. -/

namespace FormulaEngine

open Binary64

namespace Tolerance

/-! ## Nearly equal numbers -/

section

variable {t : Tolerance} {x y : Float} {v w β : ℚ}

/-- An infinity is not nearly equal to any number, itself included. -/
theorem equal_of_infinite (hβ : value? t.band = some β) (hx : parts x ≠ .nan) (hy : parts y ≠ .nan)
    (h : value? x = none ∨ value? y = none) : t.equal x y = false := by
  refine decide_eq_false_iff_not.mpr ?_
  rcases parts_sub_of_infinite hx hy h with hnan | ⟨n, hinfinite⟩
  · exact not_le_of_nan (parts_abs_of_nan hnan)
  · exact not_le_of_infinite (parts_abs_of_infinite hinfinite) hβ

theorem equal_comm (ht : t.decimals.toNat ≤ 300) (hx : parts x ≠ .nan) (hy : parts y ≠ .nan) :
    t.equal x y = t.equal y x := by
  obtain ⟨β, hβ, -⟩ := exists_band ht
  cases hv : value? x with
  | none => rw [equal_of_infinite hβ hx hy (.inl hv), equal_of_infinite hβ hy hx (.inr hv)]
  | some v =>
    cases hw : value? y with
    | none => rw [equal_of_infinite hβ hx hy (.inr hw), equal_of_infinite hβ hy hx (.inl hw)]
    | some w =>
      rw [Bool.eq_iff_iff, equal_iff hβ hv hw, equal_iff hβ hw hv, ← neg_sub v w, nearest_neg,
        abs_neg]

/-- Numbers are nearly equal, or less, or greater, and only one of these, unless they are the same
infinity. -/
theorem equal_or_less_or_greater (ht : t.decimals.toNat ≤ 300) (hx : parts x ≠ .nan)
    (hy : parts y ≠ .nan) (h : ¬ SameInfinity x y) :
    t.equal x y = true ∨ (x < y ∧ ¬ y < x) ∨ (¬ x < y ∧ y < x) := by
  obtain ⟨β, hβ, hnonneg⟩ := exists_band ht
  obtain ⟨o, ho, hswap, heq⟩ := exists_compare hx hy
  rw [lt_iff_compare, lt_iff_compare, ho, hswap]
  cases o with
  | lt => exact .inr (.inl ⟨rfl, nofun⟩)
  | gt => exact .inr (.inr ⟨nofun, rfl⟩)
  | eq =>
    obtain ⟨v, hv, hw⟩ := (heq rfl).resolve_left h
    refine .inl ((equal_iff hβ hv hw).mpr ?_)
    rwa [sub_self, nearest_zero, abs_zero]

end

end Tolerance

/-! ## The operators -/

theorem truthValue_eq_one {b : Bool} : truthValue b = 1 ↔ b = true := by
  cases b <;> decide

theorem truthValue_eq_zero {b : Bool} : truthValue b = 0 ↔ b = false := by
  cases b <;> decide

namespace NumericExpr

variable {c : Context Text} {a b : NumericExpr} {v w : Float}

theorem result_binary (o : InfixOperator) (ha : (a.eval c).result = .ok v)
    (hb : (b.eval c).result = .ok w) :
    ((binary o a b).eval c).result = .ok (o.apply c.tolerance v w) := by
  rw [eval, Run.bind_of_ok ha, Run.bind_of_ok hb]
  rfl

/-- The two expressions compare this way. -/
def Holds (c : Context Text) (o : InfixOperator) (a b : NumericExpr) : Prop :=
  ((binary o a b).eval c).result = .ok 1

/-- The operators of comparison are one order with a tolerance: of less, equal and greater exactly
one holds unless both numbers are the same infinity, and the other operators and the exchange of the
operands agree with that for all numbers. -/
theorem comparisons_consistent (hp : c.tolerance.decimals.toNat ≤ 300)
    (ha : (a.eval c).result = .ok v) (hb : (b.eval c).result = .ok w) (hv : parts v ≠ .nan)
    (hw : parts w ≠ .nan) :
    (¬ SameInfinity v w →
      (Holds c .less a b ∧ ¬ Holds c .equal a b ∧ ¬ Holds c .greater a b) ∨
      (¬ Holds c .less a b ∧ Holds c .equal a b ∧ ¬ Holds c .greater a b) ∨
      (¬ Holds c .less a b ∧ ¬ Holds c .equal a b ∧ Holds c .greater a b)) ∧
    (Holds c .lessOrEqual a b ↔ Holds c .less a b ∨ Holds c .equal a b) ∧
    (Holds c .greaterOrEqual a b ↔ Holds c .greater a b ∨ Holds c .equal a b) ∧
    (Holds c .notEqual a b ↔ ((binary .equal a b).eval c).result = .ok 0) ∧
    (Holds c .less b a ↔ Holds c .greater a b) ∧
    (Holds c .greater b a ↔ Holds c .less a b) ∧
    (Holds c .lessOrEqual b a ↔ Holds c .greaterOrEqual a b) ∧
    (Holds c .greaterOrEqual b a ↔ Holds c .lessOrEqual a b) ∧
    (Holds c .equal b a ↔ Holds c .equal a b) ∧
    (Holds c .notEqual b a ↔ Holds c .notEqual a b) := by
  have hcomm := Tolerance.equal_comm hp hv hw
  unfold Holds
  simp only [result_binary _ ha hb, result_binary _ hb ha, Except.ok.injEq, InfixOperator.apply,
    truthValue_eq_one, truthValue_eq_zero, Tolerance.less, Tolerance.greater, Tolerance.lessOrEqual,
    Tolerance.greaterOrEqual, ← hcomm, gt_iff_lt]
  refine ⟨fun hsame => ?_, ?_⟩
  · have horder := Tolerance.equal_or_less_or_greater hp hv hw hsame
    generalize c.tolerance.equal v w = e at horder
    cases e
    · simpa using horder
    · simp
  · cases c.tolerance.equal v w <;> simp

/-- One and two, up to a thousandth. -/
theorem comparisons_consistent_one_two :
    let c := { (Surroundings.initial {}).ambient with tolerance := ⟨3⟩ }
    let one := literal (.whole 1)
    let two := literal (.whole 2)
    Holds c .less one two ∧ ¬ Holds c .equal one two ∧ ¬ Holds c .greater one two := by
  intro c one two
  have hnan : parts (Numeral.whole 1).toFloat ≠ .nan ∧ parts (Numeral.whole 2).toFloat ≠ .nan := by
    decide +kernel
  have hsame : ¬ SameInfinity (Numeral.whole 1).toFloat (Numeral.whole 2).toFloat := by
    rintro ⟨n, hn, -⟩
    revert hn
    cases n <;> decide +kernel
  have hless : Holds c .less one two := by
    have hvalue : truthValue (Tolerance.less ⟨3⟩ (Numeral.whole 1).toFloat
        (Numeral.whole 2).toFloat) = 1 := by
      decide +kernel
    exact congrArg Except.ok hvalue
  have hconsistent := comparisons_consistent (c := c) (a := one) (b := two) (by decide) rfl rfl
    hnan.1 hnan.2
  rcases hconsistent.1 hsame with h | h | h
  · exact h
  · exact absurd hless h.1
  · exact absurd hless h.1

/-- An infinity compares with itself in no way. -/
theorem exists_incomparable : ¬ ∀ (c : Context Text) (a b : NumericExpr) (v w : Float),
    c.tolerance.decimals.toNat ≤ 300 → (a.eval c).result = .ok v → (b.eval c).result = .ok w →
    parts v ≠ .nan → parts w ≠ .nan →
    Holds c .less a b ∨ Holds c .equal a b ∨ Holds c .greater a b := by
  intro h
  let e : NumericExpr := .binary .divide (literal (.whole 1)) (literal (.whole 0))
  have hdivide : (e.eval (Surroundings.initial {}).ambient).result = .ok (1 / 0) := rfl
  have hnan : parts ((1 : Float) / 0) ≠ .nan := by decide +kernel
  have hholds := h _ e e _ _ (by decide) hdivide hdivide hnan hnan
  unfold Holds at hholds
  simp only [result_binary _ hdivide hdivide, Except.ok.injEq, InfixOperator.apply,
    truthValue_eq_one] at hholds
  revert hholds
  decide +kernel

end NumericExpr

end FormulaEngine
