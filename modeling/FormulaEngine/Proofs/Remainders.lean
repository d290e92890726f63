import FormulaEngine.Proofs.Comparisons
import FormulaEngine.Proofs.Binary64.Whole

/-! # Remainders in formulas

The remainder belongs to the whole parts of two numbers and to their quotient, both cut off toward
zero, and is rounded once, from an integer to a number. It is not a number when the divisor has no
whole part. It is not a number for the least signed 64-bit integer divided by minus one, either,
although nothing remains there: the quotient is no such integer. -/

namespace FormulaEngine

namespace Binary64

/-! ## Whole parts -/

theorem wholePart_neg (v : ℚ) : wholePart (-v) = -wholePart v := by
  unfold wholePart
  rcases lt_trichotomy v 0 with h | rfl | h
  · rw [if_pos h, if_neg (by linarith), neg_neg]
  · simp
  · rw [if_neg h.not_gt, if_pos (by linarith), neg_neg]

theorem wholePart_div_natCast (m n : ℕ) : wholePart (m / n) = (m : ℤ).tdiv n := by
  have hnonneg : (0 : ℚ) ≤ m / n := by positivity
  rw [wholePart, if_neg hnonneg.not_gt, floor_div_natCast]
  rfl

/-- Dividing integers cuts off the rational quotient. -/
theorem wholePart_div (m n : ℤ) : wholePart (m / n) = m.tdiv n := by
  obtain ⟨k, rfl | rfl⟩ := Int.eq_nat_or_neg m <;> obtain ⟨l, rfl | rfl⟩ := Int.eq_nat_or_neg n <;>
    simp only [Int.cast_neg, Int.cast_natCast, neg_div, div_neg, wholePart_neg, Int.neg_tdiv,
      Int.tdiv_neg, wholePart_div_natCast]

/-- The integer is what a number has before the point, or the end of the signed 64-bit range that
the number lies beyond, or zero for what is no number. -/
inductive HasWholePart : Float → ℤ → Prop
  | nan {x : Float} (h : parts x = .nan) : HasWholePart x 0
  | infinite {x : Float} {negative : Bool} (h : parts x = .infinite negative) :
    HasWholePart x (if negative then -2 ^ 63 else 2 ^ 63 - 1)
  | finite {x : Float} {v : ℚ} (h : value? x = some v) :
    HasWholePart x (max (-2 ^ 63) (min (wholePart v) (2 ^ 63 - 1)))

variable {x : Float} {n : ℤ}

theorem hasWholePart_toInt64 (x : Float) : HasWholePart x (toInt64 x) := by
  rcases parts_cases x with h | ⟨negative, h⟩ | ⟨v, h⟩
  · have hzero : toInt64 x = 0 := by rw [toInt64, h]
    exact hzero ▸ .nan h
  · have hend : toInt64 x = if negative then -2 ^ 63 else 2 ^ 63 - 1 := by
      rw [toInt64, h]
      rfl
    exact hend ▸ .infinite h
  · exact toInt64_eq h ▸ .finite h

/-- A number has one whole part. -/
theorem HasWholePart.eq_toInt64 (h : HasWholePart x n) : n = toInt64 x := by
  cases h with
  | nan h => rw [toInt64, h]
  | infinite h =>
    rw [toInt64, h]
    rfl
  | finite h => rw [toInt64_eq h]; rfl

/-! ## Remainders -/

theorem parts_ofInt_ne_nan (n : ℤ) : parts (Float.ofInt n) ≠ .nan := by
  intro h
  have hrounded := isRounded_ofInt n
  unfold IsRounded at hrounded
  split at hrounded
  · rw [value?, h] at hrounded
    cases hrounded
  · rw [h] at hrounded
    cases hrounded

theorem parts_nan : parts nan = .nan := by decide +kernel

/-- A remainder is a number unless the divisor has the whole part zero, or the quotient of the whole
parts is too large for a signed 64-bit integer. Then it is what the dividend exceeds the multiple of
the divisor by that the quotient cut off toward zero makes. -/
theorem remainder_cases {y : Float} {m : ℤ} (hm : HasWholePart x m) (hn : HasWholePart y n) :
    (parts (remainder x y) = .nan ↔ n = 0 ∨ (m = -2 ^ 63 ∧ n = -1)) ∧
    (parts (remainder x y) ≠ .nan → remainder x y = Float.ofInt (m - n * wholePart (m / n))) := by
  have hremainder : remainder x y =
      if n = 0 ∨ (m = -2 ^ 63 ∧ n = -1) then nan else Float.ofInt (m.tmod n) := by
    rw [hm.eq_toInt64, hn.eq_toInt64]
    rfl
  rw [hremainder, wholePart_div, ← Int.tmod_def]
  split
  · rename_i hundefined
    exact ⟨iff_of_true parts_nan hundefined, fun h => absurd parts_nan h⟩
  · rename_i hdefined
    exact ⟨iff_of_false (parts_ofInt_ne_nan _) hdefined, fun _ => rfl⟩

end Binary64

open Binary64

namespace NumericExpr

variable {c : Context Text} {a b : NumericExpr} {v w : Float} {m n : ℤ}

/-- A remainder in a formula is no number just when the divisor has the whole part zero, or when the
dividend has the least whole part and the divisor minus one. Otherwise it is what is left of the
whole parts, rounded once. -/
theorem result_remainder (ha : (a.eval c).result = .ok v) (hb : (b.eval c).result = .ok w)
    (hm : HasWholePart v m) (hn : HasWholePart w n) :
    ∃ r, ((binary .remainder a b).eval c).result = .ok r ∧
      (parts r = .nan ↔ n = 0 ∨ (m = -2 ^ 63 ∧ n = -1)) ∧
      (parts r ≠ .nan → r = Float.ofInt (m - n * wholePart (m / n)) ∧
        IsRounded r (m - n * wholePart (m / n) : ℤ)) := by
  obtain ⟨hnan, hvalue⟩ := remainder_cases hm hn
  refine ⟨remainder v w, result_binary .remainder ha hb, hnan, fun h => ⟨hvalue h, ?_⟩⟩
  rw [hvalue h]
  exact isRounded_ofInt _

/-- Infinity has the largest whole part, and that leaves seven to ten. -/
theorem result_remainder_infinity_ten :
    let infinity := binary .divide (literal (.whole 1)) (literal (.whole 0))
    ((binary .remainder infinity (literal (.whole 10))).eval
      (Surroundings.initial {}).ambient).result = .ok (Float.ofInt 7) := by
  intro infinity
  have hinfinite : parts (1 / 0 : Float) = .infinite false := by decide +kernel
  have hdividend : HasWholePart (1 / 0 : Float) (2 ^ 63 - 1) := .infinite hinfinite
  have hdivisor : HasWholePart (Numeral.whole 10).toFloat 10 := by
    have h := hasWholePart_toInt64 (Numeral.whole 10).toFloat
    rwa [show toInt64 (Numeral.whole 10).toFloat = 10 by decide +kernel] at h
  obtain ⟨r, hr, hnan, hvalue⟩ := result_remainder (c := (Surroundings.initial {}).ambient)
    (a := infinity) (b := literal (.whole 10)) rfl rfl hdividend hdivisor
  have hleft : (2 ^ 63 - 1 : ℤ) - 10 * wholePart ((2 ^ 63 - 1 : ℤ) / (10 : ℤ)) = 7 := by
    rw [wholePart_div]
    decide
  have hdefined : parts r ≠ .nan := fun h => absurd (hnan.mp h) (by decide)
  rw [hr, (hvalue hdefined).1, hleft]

/-- The least whole part and minus one leave nothing, but their remainder is not a number. -/
theorem exists_undefined_remainder :
    ¬ ∀ (c : Context Text) (a b : NumericExpr) (v w : Float) (m n : ℤ),
      (a.eval c).result = .ok v → (b.eval c).result = .ok w → HasWholePart v m →
      HasWholePart w n → n ≠ 0 →
      ∃ r, ((binary .remainder a b).eval c).result = .ok r ∧ parts r ≠ .nan := by
  intro h
  let a := signed .minus (literal (.whole 9223372036854775807))
  let b := signed .minus (literal (.whole 1))
  have ha : (a.eval (Surroundings.initial {}).ambient).result =
    .ok (-(Numeral.whole 9223372036854775807).toFloat) := rfl
  have hb : (b.eval (Surroundings.initial {}).ambient).result = .ok (-(Numeral.whole 1).toFloat) :=
    rfl
  obtain ⟨r, hr, hdefined⟩ := h _ a b _ _ _ _ ha hb (hasWholePart_toInt64 _)
    (hasWholePart_toInt64 _) (by decide +kernel)
  rw [result_binary .remainder ha hb] at hr
  refine hdefined (Except.ok.inj hr ▸ ?_)
  decide +kernel

end NumericExpr

end FormulaEngine
