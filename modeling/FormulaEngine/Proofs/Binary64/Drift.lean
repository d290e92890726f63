import FormulaEngine.Proofs.Binary64.Power

/-! # Drift of rounded sums

A number that is computed from nonnegative ones by sums and multiples drifts from the exact one by a
factor for every rounding, and by a fixed amount besides, since the smallest numbers have fewer
digits than the others. -/

namespace FormulaEngine.Binary64

/-- The factor that one rounding may change a number by. -/
def growth : ℚ := 1 + 1 / 2 ^ 53

/-- Half the smallest positive number. -/
def speck : ℚ := 2 ^ (-1075 : ℤ)

theorem speck_pos : 0 < speck := two_zpow_pos _

/-- Rounding changes any number by half its last digit of 53, or by a speck. -/
theorem abs_nearest_sub_le_add (v : ℚ) : |nearest v - v| ≤ |v| / 2 ^ 53 + speck := by
  have hspeck := speck_pos
  rcases le_total ((2 : ℚ) ^ (-1022 : ℤ)) |v| with hlarge | hsmall
  · linarith [abs_nearest_sub_le_mul hlarge]
  · have hlt : |v| < 2 ^ (-1074 + 53 : ℤ) :=
      hsmall.trans_lt (zpow_lt_zpow_right₀ (by norm_num) (by norm_num))
    have herror := abs_nearest_sub_le_of_lt (-1074) le_rfl hlt
    have hhalf : (2 : ℚ) ^ (-1074 : ℤ) / 2 = speck := by
      rw [speck, show (-1074 : ℤ) = -1075 + 1 by norm_num, zpow_add₀ (by norm_num), zpow_one]
      ring
    rw [hhalf] at herror
    have habs : 0 ≤ |v| / 2 ^ 53 := by positivity
    linarith

/-- The number is off from the exact one by `k` roundings, and by some amount besides. -/
def Drifts (k : ℕ) (b v x : ℚ) : Prop := |v - x| ≤ (growth ^ k - 1) * x + b

namespace Drifts

variable {k l : ℕ} {a b c v w x y : ℚ}

theorem refl (x : ℚ) : Drifts 0 0 x x := by simp [Drifts]

theorem mono (h : Drifts k b v x) (hk : k ≤ l) (hb : b ≤ c) (hx : 0 ≤ x) : Drifts l c v x := by
  have hpow : growth ^ k ≤ growth ^ l := pow_le_pow_right₀ (by norm_num [growth]) hk
  have hfactor : (growth ^ k - 1) * x ≤ (growth ^ l - 1) * x :=
    mul_le_mul_of_nonneg_right (by linarith) hx
  exact h.trans (by linarith)

theorem add (h : Drifts k b v x) (h' : Drifts k c w y) : Drifts k (b + c) (v + w) (x + y) := by
  have habs := abs_add_le (v - x) (w - y)
  unfold Drifts at *
  calc |v + w - (x + y)| = |v - x + (w - y)| := by ring_nf
    _ ≤ (growth ^ k - 1) * (x + y) + (b + c) := by linarith

theorem mul_left (h : Drifts k b v x) (ha : 0 ≤ a) : Drifts k (a * b) (a * v) (a * x) := by
  unfold Drifts at *
  calc |a * v - a * x| = a * |v - x| := by rw [← mul_sub, abs_mul, abs_of_nonneg ha]
    _ ≤ a * ((growth ^ k - 1) * x + b) := mul_le_mul_of_nonneg_left h ha
    _ = (growth ^ k - 1) * (a * x) + a * b := by ring

/-- Rounding is one rounding more. -/
theorem nearest (h : Drifts k b v x) (hx : 0 ≤ x) :
    Drifts (k + 1) (growth * b + speck) (nearest v) x := by
  have hround := abs_nearest_sub_le_add v
  have hv : |v| ≤ x + |v - x| := by
    have := abs_add_le x (v - x)
    rwa [add_sub_cancel, abs_of_nonneg hx] at this
  unfold Drifts at *
  calc |Binary64.nearest v - x| ≤ |Binary64.nearest v - v| + |v - x| := abs_sub_le _ _ _
    _ ≤ (x + |v - x|) / 2 ^ 53 + speck + |v - x| := by
      have := div_le_div_of_nonneg_right hv (by norm_num : (0 : ℚ) ≤ 2 ^ 53)
      linarith
    _ = x / 2 ^ 53 + speck + growth * |v - x| := by
      unfold growth
      ring
    _ ≤ x / 2 ^ 53 + speck + growth * ((growth ^ k - 1) * x + b) := by
      have := mul_le_mul_of_nonneg_left h (by norm_num [growth] : 0 ≤ growth)
      linarith
    _ = (growth ^ (k + 1) - 1) * x + (growth * b + speck) := by
      have hlast : x / 2 ^ 53 = (growth - 1) * x := by
        unfold growth
        ring
      rw [hlast]
      ring

/-- A natural number is so large, unless it is zero, that rounding is relative. -/
theorem nearest_natCast (n : ℕ) : Drifts 1 0 (Binary64.nearest n) n := by
  unfold Drifts
  rcases Nat.eq_zero_or_pos n with rfl | hn
  · simp [nearest_zero]
  · have hone : (1 : ℚ) ≤ n := by exact_mod_cast hn
    have hlarge : (2 : ℚ) ^ (-1022 : ℤ) ≤ |(n : ℚ)| := by
      rw [Nat.abs_cast]
      exact (zpow_le_one_of_nonpos₀ (by norm_num) (by norm_num)).trans hone
    have herror := abs_nearest_sub_le_mul hlarge
    rw [Nat.abs_cast] at herror
    unfold growth
    linarith

end Drifts

end FormulaEngine.Binary64
