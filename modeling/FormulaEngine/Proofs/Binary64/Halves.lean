import FormulaEngine.Proofs.Binary64.Nearest

/-! # Rounding by adding one half

The whole number nearest to a number of the format is looked for by adding one half and cutting off.
The sum is rounded before it is cut off, and this makes a difference at one number only, the largest
one below one half. -/

namespace FormulaEngine.Binary64

/-- What is found by adding one half and cutting off, the same on both sides of zero. -/
def roundByHalf (p : ℚ) : ℤ := if p < 0 then -⌊nearest (-p + 1 / 2)⌋ else ⌊nearest (p + 1 / 2)⌋

/-- The largest number of the format below one half. -/
def almostHalf : ℚ := 1 / 2 - 1 / 2 ^ 54

/-- By how much the rounding of the sum may lead too far. -/
def carry (p : ℚ) : ℚ := if |p| = almostHalf then 1 / 2 ^ 54 else 0

variable {p : ℚ}

theorem carry_nonneg (p : ℚ) : 0 ≤ carry p := by
  unfold carry
  split <;> norm_num

theorem carry_le (p : ℚ) : carry p ≤ 1 / 2 ^ 54 := by
  unfold carry
  split <;> norm_num

theorem carry_neg (p : ℚ) : carry (-p) = carry p := by rw [carry, carry, abs_neg]

theorem roundByHalf_of_nonneg (h : 0 ≤ p) : roundByHalf p = ⌊nearest (p + 1 / 2)⌋ :=
  if_neg (not_lt.mpr h)

theorem roundByHalf_zero : roundByHalf 0 = 0 := by
  have hhalf : nearest (1 / 2) = 1 / 2 := by
    have h := nearest_of_representable (representable_two_zpow (k := -1) (by norm_num))
    norm_num at h ⊢
    exact h
  rw [roundByHalf_of_nonneg le_rfl, zero_add, hhalf]
  norm_num

theorem roundByHalf_neg (p : ℚ) : roundByHalf (-p) = -roundByHalf p := by
  rcases lt_trichotomy p 0 with h | rfl | h
  · rw [roundByHalf_of_nonneg (by linarith), roundByHalf, if_pos h, neg_neg]
  · rw [neg_zero, roundByHalf_zero, neg_zero]
  · rw [roundByHalf_of_nonneg h.le, roundByHalf, if_pos (by linarith), neg_neg]

/-! ## The sum with one half -/

/-- A number of the format is a multiple of its last digit. -/
theorem Representable.exists_multiple (hp : Representable p) :
    ∃ k : ℤ, p = k * 2 ^ lastExponent p :=
  ⟨_, (nearest_of_representable hp).symm⟩

/-- The numbers below one half end two digits before it, but for the largest one. -/
theorem Representable.le_of_lt_half (hp : Representable p) (hhalf : p < 1 / 2)
    (hne : p ≠ almostHalf) : p ≤ 1 / 2 - 1 / 2 ^ 53 := by
  by_contra hlarge
  have habs : |p| = p := abs_of_pos (by norm_num at hlarge ⊢; linarith)
  have hlast : lastExponent p = -54 := by
    refine lastExponent_eq (by norm_num) ?_ (.inl ?_) <;> rw [habs] <;> norm_num at hlarge ⊢ <;>
      linarith
  obtain ⟨k, hk⟩ := hp.exists_multiple
  have hscaled : (k : ℚ) = p * 2 ^ 54 := by
    rw [hk, hlast, mul_assoc, ← zpow_natCast, ← zpow_add₀ (by norm_num)]
    norm_num
  have hlow : (2 ^ 53 - 2 : ℤ) < k := by
    have : ((2 ^ 53 - 2 : ℤ) : ℚ) < k := by
      rw [hscaled]
      norm_num at hlarge ⊢
      linarith
    exact_mod_cast this
  have hhigh : k < (2 ^ 53 : ℤ) := by
    have : (k : ℚ) < (2 ^ 53 : ℤ) := by
      rw [hscaled]
      norm_num at hhalf ⊢
      linarith
    exact_mod_cast this
  obtain rfl : k = 2 ^ 53 - 1 := by omega
  refine hne ?_
  rw [hk, hlast, almostHalf]
  norm_num

/-- A power of two stands between numbers whose last digits differ. -/
theorem two_zpow_between {v w : ℚ} (hv : 0 ≤ v) (hw : 0 ≤ w)
    (h : lastExponent v < lastExponent w) :
    v < 2 ^ (lastExponent w + 52) ∧ 2 ^ (lastExponent w + 52) ≤ w := by
  have hbelow := abs_lt_of_lastExponent v
  have habove := le_abs_of_lastExponent (v := w) (by have := le_lastExponent v; omega)
  rw [abs_of_nonneg hv] at hbelow
  rw [abs_of_nonneg hw] at habove
  exact ⟨hbelow.trans_le (zpow_le_zpow_right₀ (by norm_num) (by omega)), habove⟩

/-- The sum of a number with one half keeps a digit's distance from a whole number above it. -/
theorem Representable.lastDigit_le_sub (hp : Representable p) (hlast : lastExponent p ≤ -1) {n : ℤ}
    (hn : p + 1 / 2 < n) : (2 : ℚ) ^ lastExponent p ≤ n - (p + 1 / 2) := by
  obtain ⟨k, hk⟩ := hp.exists_multiple
  obtain ⟨j, hj⟩ := Int.eq_ofNat_of_zero_le (show 0 ≤ -1 - lastExponent p by omega)
  have hhalf : (1 / 2 : ℚ) = (2 ^ j : ℤ) * 2 ^ lastExponent p := by
    rw [← two_zpow_add_natCast, show lastExponent p + (j : ℤ) = -1 by omega]
    norm_num
  have hmultiple : n - (p + 1 / 2) =
      (((2 * n - 1) * 2 ^ j - k : ℤ) : ℚ) * 2 ^ lastExponent p := by
    have hn : (n : ℚ) = 2 * n * (1 / 2) := by ring
    rw [hn, hhalf]
    nth_rewrite 2 [hk]
    push_cast
    ring
  have hpos := two_zpow_pos (lastExponent p)
  have hcount : 0 < (2 * n - 1) * 2 ^ j - k := by
    have hdistance : 0 < n - (p + 1 / 2) := by linarith
    rw [hmultiple, mul_pos_iff_of_pos_right hpos] at hdistance
    exact_mod_cast hdistance
  have hone : (1 : ℚ) ≤ (((2 * n - 1) * 2 ^ j - k : ℤ) : ℚ) := by exact_mod_cast hcount
  rw [hmultiple]
  exact le_mul_of_one_le_left hpos.le hone

/-- Rounding does not lift the sum with one half to a whole number: it would have to lose a digit to
a power of two, and the next whole number above that power is too far away. -/
theorem nearest_add_half_lt (hp : Representable p) (hhalf : 1 / 2 ≤ p) (hlt : p < 2 ^ 48) {n : ℤ}
    (hn : p + 1 / 2 < n) : nearest (p + 1 / 2) < n := by
  by_contra hle
  have hp0 : 0 ≤ p := by linarith
  have hsum0 : 0 ≤ p + 1 / 2 := by linarith
  have herror := (le_abs_self _).trans (abs_nearest_sub_le (p + 1 / 2))
  have hsmall : lastExponent (p + 1 / 2) ≤ -4 := by
    refine lastExponent_le (by norm_num) ?_
    rw [abs_of_nonneg hsum0]
    norm_num at hlt ⊢
    linarith
  have hmono : lastExponent p ≤ lastExponent (p + 1 / 2) :=
    lastExponent_mono (by rw [abs_of_nonneg hp0, abs_of_nonneg hsum0]; linarith)
  have hdistance := hp.lastDigit_le_sub (by omega) hn
  have hexponent : lastExponent p < lastExponent (p + 1 / 2) := by
    have hpos := two_zpow_pos (lastExponent (p + 1 / 2))
    exact (zpow_lt_zpow_iff_right₀ (by norm_num : (1 : ℚ) < 2)).mp (by linarith)
  obtain ⟨hbelow, habove⟩ := two_zpow_between hp0 hsum0 hexponent
  obtain ⟨i, hi⟩ : ∃ i : ℕ, lastExponent (p + 1 / 2) + 52 = i := by
    have hhigh := abs_lt_of_lastExponent (p + 1 / 2)
    rw [abs_of_nonneg hsum0] at hhigh
    have hone : (2 : ℚ) ^ (0 : ℤ) < 2 ^ (lastExponent (p + 1 / 2) + 53) := by
      rw [zpow_zero]
      linarith
    have := (zpow_lt_zpow_iff_right₀ (by norm_num : (1 : ℚ) < 2)).mp hone
    exact Int.eq_ofNat_of_zero_le (by omega)
  rw [hi, zpow_natCast] at hbelow habove
  have hnext : ((2 ^ i + 1 : ℤ) : ℚ) ≤ n := by
    have hpower : ((2 ^ i : ℤ) : ℚ) < n := by
      push_cast
      linarith
    exact_mod_cast hpower
  have hdigit : (2 : ℚ) ^ lastExponent (p + 1 / 2) ≤ 2 ^ (-4 : ℤ) :=
    zpow_le_zpow_right₀ (by norm_num) hsmall
  push_cast at hnext
  norm_num at hdigit
  linarith

theorem nearest_add_half_le_one (h : p ≤ 1 / 2) : nearest (p + 1 / 2) ≤ 1 :=
  representable_one.nearest_le (by linarith)

/-- Below one half the sum stays below one, but for the largest number there. -/
theorem nearest_add_half_lt_one (hp : Representable p) (hhalf : p < 1 / 2) (hne : p ≠ almostHalf) :
    nearest (p + 1 / 2) < 1 := by
  have hle : p + 1 / 2 ≤ ((2 ^ 53 - 1 : ℤ) : ℚ) * 2 ^ (-53 : ℤ) := by
    have := hp.le_of_lt_half hhalf hne
    norm_num at this ⊢
    linarith
  have hlast : Representable (((2 ^ 53 - 1 : ℤ) : ℚ) * 2 ^ (-53 : ℤ)) :=
    ⟨_, _, by norm_num, by norm_num, rfl⟩
  exact (hlast.nearest_le hle).trans_lt (by norm_num)

/-! ## What is found -/

/-- From two on, the numbers that are found are those that are nearest. -/
theorem le_roundByHalf_iff (hp : Representable p) (hlt : p < 2 ^ 48) {n : ℤ}
    (hn : 2 ≤ n ∧ n ≤ 2 ^ 53) : n ≤ roundByHalf p ↔ (n : ℚ) - 1 / 2 ≤ p := by
  have htwo : (2 : ℚ) ≤ n := by exact_mod_cast hn.1
  constructor
  · intro h
    by_contra hbelow
    rcases lt_or_ge p 0 with hneg | hnonneg
    · have hzero : 0 ≤ ⌊nearest (-p + 1 / 2)⌋ := Int.floor_nonneg.mpr (nearest_nonneg (by linarith))
      rw [roundByHalf, if_pos hneg] at h
      omega
    · rw [roundByHalf_of_nonneg hnonneg, Int.le_floor] at h
      rcases lt_or_ge p (1 / 2) with hhalf | hhalf
      · linarith [nearest_add_half_le_one hhalf.le]
      · exact absurd h (not_le.mpr (nearest_add_half_lt hp hhalf hlt (by linarith)))
  · intro h
    rw [roundByHalf_of_nonneg (by linarith), Int.le_floor]
    exact (representable_intCast (abs_le.mpr (by omega))).le_nearest (by linarith)

/-- What is found is no further away than one half, but for the carry. -/
theorem abs_roundByHalf_sub_le_of_nonneg (hp : Representable p) (h0 : 0 ≤ p) (hlt : p < 2 ^ 48) :
    |(roundByHalf p : ℚ) - p| ≤ 1 / 2 + carry p := by
  have hcarry := carry_nonneg p
  have hbelow : (⌊nearest (p + 1 / 2)⌋ : ℚ) ≤ nearest (p + 1 / 2) := Int.floor_le _
  have hlow : p - 1 / 2 ≤ ⌊nearest (p + 1 / 2)⌋ := by
    have hfloor := Int.floor_le (p + 1 / 2)
    have hfloor' := Int.lt_floor_add_one (p + 1 / 2)
    have hnonneg : 0 ≤ ⌊p + 1 / 2⌋ := Int.floor_nonneg.mpr (by linarith)
    have hsmall : ⌊p + 1 / 2⌋ ≤ 2 ^ 49 := by
      refine Int.floor_le_iff.mpr ?_
      push_cast
      linarith
    have hwhole : Representable (⌊p + 1 / 2⌋ : ℤ) :=
      representable_intCast (by rw [abs_of_nonneg hnonneg]; omega)
    have hle : (⌊p + 1 / 2⌋ : ℚ) ≤ ⌊nearest (p + 1 / 2)⌋ := by
      exact_mod_cast Int.le_floor.mpr (hwhole.le_nearest hfloor)
    linarith
  have hhigh : (⌊nearest (p + 1 / 2)⌋ : ℚ) ≤ p + 1 / 2 + carry p := by
    rcases lt_or_ge p (1 / 2) with hhalf | hhalf
    · by_cases hne : p = almostHalf
      · have hone := nearest_add_half_le_one hhalf.le
        have hp1 : p + 1 / 2 + carry p = 1 := by
          rw [carry, abs_of_nonneg h0, if_pos hne, hne, almostHalf]
          norm_num
        linarith
      · have hzero : ⌊nearest (p + 1 / 2)⌋ < 1 := by
          refine Int.floor_lt.mpr ?_
          push_cast
          exact nearest_add_half_lt_one hp hhalf hne
        have hzero : (⌊nearest (p + 1 / 2)⌋ : ℚ) ≤ 0 := by
          exact_mod_cast Int.lt_add_one_iff.mp hzero
        linarith
    · by_contra habove
      have hlift := nearest_add_half_lt hp hhalf hlt (n := ⌊nearest (p + 1 / 2)⌋) (by linarith)
      linarith
  rw [roundByHalf_of_nonneg h0, abs_le]
  constructor <;> linarith

@[inherit_doc abs_roundByHalf_sub_le_of_nonneg]
theorem abs_roundByHalf_sub_le (hp : Representable p) (hlt : |p| < 2 ^ 48) :
    |(roundByHalf p : ℚ) - p| ≤ 1 / 2 + carry p := by
  rcases le_total 0 p with h | h
  · exact abs_roundByHalf_sub_le_of_nonneg hp h (lt_of_abs_lt hlt)
  · have hlow := neg_lt_of_abs_lt hlt
    have hneg := abs_roundByHalf_sub_le_of_nonneg hp.neg (by linarith) (by linarith)
    rw [roundByHalf_neg, carry_neg, Int.cast_neg, neg_sub_neg, abs_sub_comm] at hneg
    exact hneg

end FormulaEngine.Binary64
