import FormulaEngine.Decimal.Numeral
import FormulaEngine.Proofs.Binary64.Infinite

/-! # Decimals are rounded

Reading a decimal gives the nearest number of the format, or infinity where that is too large. The
decimals that are settled by their size alone are so small that zero is the nearest number, or too
large for the format, and all others are near enough to its range to be computed. -/

namespace FormulaEngine.Decimal

open Binary64

/-- The number that a decimal stands for. -/
def Scaled.value (d : Scaled) : ℚ := d.digits * 10 ^ d.exponent

/-! ## Powers of ten -/

/-- Small powers of ten are compared by `2 ^ 93 < 10 ^ 28`. -/
theorem ten_zpow_lt_of_nonpos {k q : ℤ} (hk : k ≤ 0) (h : 93 * k < 28 * q) :
    (10 : ℚ) ^ k < 2 ^ q := by
  obtain ⟨n, rfl⟩ : ∃ n : ℕ, k = -n := ⟨(-k).toNat, by omega⟩
  have hbase : ((2 : ℚ) ^ 93) ^ n ≤ (10 ^ 28) ^ n := pow_le_pow_left₀ (by positivity) (by norm_num) n
  refine lt_of_pow_lt_pow_left₀ 28 (two_zpow_pos q).le ?_
  calc ((10 : ℚ) ^ (-n : ℤ)) ^ 28 = ((10 ^ 28) ^ n)⁻¹ := by
        rw [zpow_neg, zpow_natCast, inv_pow, ← pow_mul, ← pow_mul, mul_comm]
    _ ≤ ((2 ^ 93) ^ n)⁻¹ := inv_anti₀ (by positivity) hbase
    _ = 2 ^ (93 * (-n : ℤ)) := by
        rw [mul_neg, zpow_neg, zpow_mul, zpow_natCast]
        rfl
    _ < 2 ^ (28 * q) := zpow_lt_zpow_right₀ (by norm_num) h
    _ = (2 ^ q) ^ 28 := by rw [mul_comm, zpow_mul]; rfl

/-- Large powers of ten are compared by `10 ^ 3 < 2 ^ 10`. -/
theorem ten_zpow_lt_of_nonneg {k q : ℤ} (hk : 0 ≤ k) (h : 10 * k < 3 * q) :
    (10 : ℚ) ^ k < 2 ^ q := by
  obtain ⟨n, rfl⟩ := Int.eq_ofNat_of_zero_le hk
  refine lt_of_pow_lt_pow_left₀ 3 (two_zpow_pos q).le ?_
  calc ((10 : ℚ) ^ (n : ℤ)) ^ 3 = (10 ^ 3) ^ n := by
        rw [zpow_natCast, ← pow_mul, ← pow_mul, mul_comm]
    _ ≤ (2 ^ 10) ^ n := pow_le_pow_left₀ (by positivity) (by norm_num) n
    _ = 2 ^ (10 * (n : ℤ)) := by rw [zpow_mul, zpow_natCast]; rfl
    _ < 2 ^ (3 * q) := zpow_lt_zpow_right₀ (by norm_num) h
    _ = (2 ^ q) ^ 3 := by rw [mul_comm, zpow_mul]; rfl

/-! ## Sizes -/

theorem lt_ten_pow_length (n : ℕ) : n < 10 ^ (Nat.toDigits 10 n).length :=
  (Nat.length_toDigits_le_iff (by decide) Nat.length_toDigits_pos).mp le_rfl

theorem ten_pow_length_le {n : ℕ} (hn : 0 < n) : 10 ^ ((Nat.toDigits 10 n).length - 1) ≤ n := by
  rcases Nat.eq_zero_or_pos ((Nat.toDigits 10 n).length - 1) with hone | hmore
  · rw [hone]
    exact hn
  · by_contra hlt
    have := (Nat.length_toDigits_le_iff (by decide) hmore).mpr (not_le.mp hlt)
    omega

/-- A number has no more decimal digits than binary ones. -/
theorem length_toDigits_le {n : ℕ} (hn : 0 < n) : (Nat.toDigits 10 n).length ≤ n.log2 + 1 := by
  have hpow := (Nat.pow_le_pow_left (by decide : 2 ≤ 10) _).trans (ten_pow_length_le hn)
  have := (Nat.le_log2 hn.ne').mpr hpow
  omega

/-- The decimal exponent behind the leading digit. -/
def Scaled.size (d : Scaled) : ℤ := (Nat.toDigits 10 d.digits).length + d.exponent

theorem ten_zpow_add (n : ℕ) (k : ℤ) : (10 : ℚ) ^ (n + k : ℤ) = (10 ^ n : ℕ) * 10 ^ k := by
  rw [zpow_add₀ (by norm_num), zpow_natCast]
  push_cast
  rfl

theorem Scaled.value_lt (d : Scaled) : d.value < 10 ^ d.size := by
  have hlt : (d.digits : ℚ) < (10 ^ (Nat.toDigits 10 d.digits).length : ℕ) := by
    exact_mod_cast lt_ten_pow_length d.digits
  rw [size, ten_zpow_add]
  exact mul_lt_mul_of_pos_right hlt (by positivity)

theorem Scaled.le_value {d : Scaled} (hd : d.digits ≠ 0) : 10 ^ (d.size - 1) ≤ d.value := by
  have hlength : 0 < (Nat.toDigits 10 d.digits).length := Nat.length_toDigits_pos
  have hle : ((10 ^ ((Nat.toDigits 10 d.digits).length - 1) : ℕ) : ℚ) ≤ d.digits := by
    exact_mod_cast ten_pow_length_le (Nat.pos_of_ne_zero hd)
  have hsize : d.size - 1 = ((Nat.toDigits 10 d.digits).length - 1 : ℕ) + d.exponent := by
    rw [size]
    omega
  rw [hsize, ten_zpow_add]
  exact mul_le_mul_of_nonneg_right hle (by positivity)

/-! ## Rounding -/

/-- Every decimal is rounded, whatever its size. -/
theorem isRounded_nearest (d : Scaled) : IsRounded d.nearest d.value := by
  have hvalue := d.value_lt
  unfold Scaled.nearest
  rw [show ((Nat.toDigits 10 d.digits).length : ℤ) + d.exponent = d.size from rfl]
  dsimp only
  split
  · rename_i hsmall
    have hzero : value? (0 : Float) = some ((0 : ℕ) : ℚ) := value?_ofNat (n := 0) (by norm_num)
    rw [Nat.cast_zero] at hzero
    have hnonneg : 0 ≤ d.value := by
      unfold Scaled.value
      positivity
    rcases hsmall with hdigits | hsize
    · rw [Scaled.value, hdigits, Nat.cast_zero, zero_mul]
      exact isRounded_of_value? hzero
    · have hmono : (10 : ℚ) ^ d.size ≤ 10 ^ (-401 : ℤ) :=
        zpow_le_zpow_right₀ (by norm_num) (by omega)
      have htiny : (10 : ℚ) ^ (-401 : ℤ) < 2 ^ (-1075 : ℤ) :=
        ten_zpow_lt_of_nonpos (by norm_num) (by norm_num)
      have hnearest := nearest_eq_zero hnonneg (hvalue.trans_le (hmono.trans htiny.le))
      unfold IsRounded
      rw [hnearest, abs_zero, if_pos (by positivity)]
      exact hzero
  · rename_i hsmall
    obtain ⟨hdigits, hsize⟩ := not_or.mp hsmall
    have hpos := Nat.pos_of_ne_zero hdigits
    have hlength := length_toDigits_le hpos
    have hsum : d.size = (Nat.toDigits 10 d.digits).length + d.exponent := rfl
    split
    · rename_i hlarge
      refine isRounded_infinity ?_
      have hmono : (10 : ℚ) ^ (400 : ℤ) ≤ 10 ^ (d.size - 1) :=
        zpow_le_zpow_right₀ (by norm_num) (by omega)
      have hhuge : (2 : ℚ) ^ (1024 : ℕ) ≤ 10 ^ (400 : ℤ) := by
        have htiny : (10 : ℚ) ^ (-400 : ℤ) < 2 ^ (-(1024 : ℕ) : ℤ) :=
          ten_zpow_lt_of_nonpos (by norm_num) (by norm_num)
        rw [zpow_neg, zpow_neg, inv_lt_inv₀ (by positivity) (by positivity), zpow_natCast] at htiny
        exact htiny.le
      exact hhuge.trans (hmono.trans (Scaled.le_value hdigits))
    · split
      · rename_i hexponent
        obtain ⟨k, hk⟩ := Int.eq_ofNat_of_zero_le hexponent
        rw [Scaled.value, hk, Int.toNat_natCast]
        exact isRounded_ofScientific false (by rw [if_neg Bool.false_ne_true]; omega)
      · rename_i hexponent
        obtain ⟨k, hk⟩ := Int.eq_ofNat_of_zero_le (by omega : 0 ≤ -d.exponent)
        have hneg : d.exponent = -k := by omega
        rw [Scaled.value, hneg, neg_neg, Int.toNat_natCast]
        exact isRounded_ofScientific true (by rw [if_pos rfl]; omega)

end FormulaEngine.Decimal
