import FormulaEngine.Binary64.Rounding
import FormulaEngine.Proofs.Binary64.Arithmetic

/-! # Whole numbers out of numbers

Cutting off and rounding to even are computed on the significand. They give what they give on the
rational value, kept inside the signed 64-bit range. -/

namespace FormulaEngine.Binary64

/-- The whole part of a rational number, cut off toward zero. -/
def wholePart (v : ℚ) : ℤ := if v < 0 then -⌊-v⌋ else ⌊v⌋

theorem wholePart_intCast (n : ℤ) : wholePart n = n := by
  unfold wholePart
  split
  · rw [← Int.cast_neg, Int.floor_intCast, neg_neg]
  · exact Int.floor_intCast n

theorem abs_wholePart_le {v : ℚ} {n : ℤ} (h : |v| ≤ n) : |wholePart v| ≤ n := by
  obtain ⟨hlow, hhigh⟩ := abs_le.mp h
  unfold wholePart
  split
  · rename_i hneg
    have hfloor : ⌊-v⌋ ≤ n := Int.floor_le_iff.mpr (by linarith)
    have hnonneg : 0 ≤ ⌊-v⌋ := Int.floor_nonneg.mpr (by linarith)
    rw [abs_neg, abs_of_nonneg hnonneg]
    exact hfloor
  · rename_i hnonneg
    have hfloor : ⌊v⌋ ≤ n := Int.floor_le_iff.mpr (by linarith)
    rw [abs_of_nonneg (Int.floor_nonneg.mpr (not_lt.mp hnonneg))]
    exact hfloor

/-! ## Magnitudes -/

theorem two_zpow_negSucc (m k : ℕ) : (m * 2 ^ Int.negSucc k : ℚ) = m / (2 ^ (k + 1) : ℕ) := by
  rw [zpow_negSucc, div_eq_mul_inv]
  push_cast
  rfl

theorem floor_div_natCast (m d : ℕ) : ⌊(m / d : ℚ)⌋ = (m / d : ℕ) := by
  rw [← Int.cast_natCast m, Rat.floor_intCast_div_natCast]
  rfl

theorem fract_div_natCast (m : ℕ) {d : ℕ} (hd : 0 < d) :
    Int.fract (m / d : ℚ) = (m % d : ℕ) / d := by
  have hdq : (d : ℚ) ≠ 0 := by exact_mod_cast hd.ne'
  have hdivide : (m : ℚ) = d * (m / d : ℕ) + (m % d : ℕ) := by
    exact_mod_cast (Nat.div_add_mod m d).symm
  rw [← Int.self_sub_floor, floor_div_natCast, Int.cast_natCast]
  nth_rewrite 1 [hdivide]
  field_simp
  ring

theorem two_zpow_ofNat (m k : ℕ) : (m * 2 ^ Int.ofNat k : ℚ) = ((m * Nat.pow 2 k : ℕ) : ℤ) := by
  rw [Int.ofNat_eq_natCast, zpow_natCast, Int.cast_natCast, Nat.cast_mul]
  congr 1
  exact_mod_cast rfl

theorem magnitude_towardZero_eq (negative : Bool) (m : ℕ) (q : ℤ) :
    (Rounding.towardZero.magnitude negative m q : ℤ) = ⌊(m * 2 ^ q : ℚ)⌋ := by
  cases q with
  | ofNat k =>
    rw [two_zpow_ofNat, Int.floor_intCast]
    rfl
  | negSucc k =>
    rw [Rounding.magnitude_towardZero, two_zpow_negSucc, floor_div_natCast]
    rfl

/-- A remainder above a half, or a half of an odd quotient, goes up. -/
theorem roundEven_div_natCast (negative : Bool) (m : ℕ) {d : ℕ} (hd : 0 < d) :
    ((m / d + if Rounding.halfToEven.goesUp negative (m / d) (m % d) d then 1 else 0 : ℕ) : ℤ) =
      roundEven (m / d) := by
  have hdq : (0 : ℚ) < d := by exact_mod_cast hd
  have hbelow : ((m % d : ℕ) / d : ℚ) < 1 / 2 ↔ 2 * (m % d) < d := by
    rw [div_lt_div_iff₀ hdq (by norm_num), one_mul, mul_comm]
    exact_mod_cast Iff.rfl
  have habove : 1 / 2 < ((m % d : ℕ) / d : ℚ) ↔ d < 2 * (m % d) := by
    rw [div_lt_div_iff₀ (by norm_num) hdq, one_mul, mul_comm]
    exact_mod_cast Iff.rfl
  simp only [roundEven, floor_div_natCast, fract_div_natCast m hd, hbelow, habove, Rounding.goesUp,
    Bool.or_eq_true, decide_eq_true_iff, Bool.and_eq_true, beq_iff_eq]
  rcases lt_trichotomy (2 * (m % d)) d with h | h | h
  · rw [if_neg (by omega), if_pos h]
    rfl
  · rcases Nat.mod_two_eq_zero_or_one (m / d) with hmod | hmod
    · rw [if_neg (by omega), if_neg (by omega), if_neg (by omega)]
      omega
    · rw [if_pos (by omega), if_neg (by omega), if_neg (by omega)]
      omega
  · rw [if_pos (.inl h), if_neg (by omega), if_pos h]
    rfl

theorem magnitude_halfToEven_eq (negative : Bool) (m : ℕ) (q : ℤ) :
    (Rounding.halfToEven.magnitude negative m q : ℤ) = roundEven (m * 2 ^ q) := by
  cases q with
  | ofNat k =>
    rw [two_zpow_ofNat, roundEven_intCast]
    rfl
  | negSucc k =>
    rw [two_zpow_negSucc]
    exact roundEven_div_natCast negative m (Nat.two_pow_pos _)

theorem magnitude_halfToEven_le (negative : Bool) {m : ℕ} {q : ℤ} (hm : m < 2 ^ 53) (hq : q ≤ 0) :
    Rounding.halfToEven.magnitude negative m q ≤ 2 ^ 53 := by
  have hmq : (m : ℚ) ≤ (2 ^ 53 : ℤ) := by exact_mod_cast hm.le
  have hone : (2 : ℚ) ^ q ≤ 1 := zpow_le_one_of_nonpos₀ (by norm_num) hq
  have hle : (m * 2 ^ q : ℚ) ≤ (2 ^ 53 : ℤ) :=
    (mul_le_of_le_one_right (Nat.cast_nonneg m) hone).trans hmq
  have hround := roundEven_mono hle
  rw [← magnitude_halfToEven_eq negative, roundEven_intCast] at hround
  exact_mod_cast hround

/-! ## Conversions -/

variable {x : Float} {v : ℚ}

/-- The parts of a number with a value. -/
theorem exists_parts (hx : value? x = some v) :
    ∃ negative m q, parts x = .finite negative m q ∧
      v = if negative then -(m * 2 ^ q : ℚ) else m * 2 ^ q := by
  rw [value?] at hx
  generalize parts x = p at hx
  cases p with
  | finite negative m q => exact ⟨negative, m, q, rfl, (Option.some.inj hx).symm⟩
  | nan | infinite => cases hx

/-- The whole part is that of the value. -/
theorem toInt64_eq (hx : value? x = some v) : toInt64 x = clampInt64 (wholePart v) := by
  obtain ⟨negative, m, q, hparts, rfl⟩ := exists_parts hx
  have hpos := two_zpow_pos q
  have hnonneg : (0 : ℚ) ≤ m * 2 ^ q := by positivity
  unfold toInt64 wholePart
  rw [hparts]
  simp only [magnitude_towardZero_eq]
  congr 1
  cases negative with
  | false =>
    simp only [Bool.false_eq_true, if_false]
    rw [if_neg (not_lt.mpr hnonneg)]
  | true =>
    simp only [if_true, neg_neg]
    split
    · rfl
    · rename_i hzero
      have : (m * 2 ^ q : ℚ) = 0 := by linarith
      simp [this]

/-- Inside the signed 64-bit range nothing is cut off but the fraction. -/
theorem toInt64_of_abs_le (hx : value? x = some v) {n : ℤ} (hv : |v| ≤ n) (hn : n ≤ maxInt64) :
    toInt64 x = wholePart v := by
  have habs := abs_le.mp (abs_wholePart_le hv)
  rw [toInt64_eq hx]
  refine clampInt64_of_mem ?_
  simp only [minInt64, maxInt64] at *
  omega

/-- Rounding to even rounds the value, and leaves no digit behind the point. -/
theorem value?_round_halfToEven (hx : value? x = some v) :
    value? (round .halfToEven x) = some (roundEven v : ℚ) := by
  obtain ⟨negative, m, q, hparts, hv⟩ := exists_parts hx
  unfold round
  rw [hparts]
  dsimp only
  split
  · rename_i hq
    obtain ⟨k, rfl⟩ := Int.eq_ofNat_of_zero_le hq
    obtain ⟨n, hn⟩ : ∃ n : ℤ, v = n := by
      refine ⟨if negative then -(m * 2 ^ k : ℤ) else m * 2 ^ k, ?_⟩
      rw [hv]
      cases negative <;> simp
    rw [hx, hn, roundEven_intCast]
  · rename_i hq
    have hle := magnitude_halfToEven_le negative (Parts.significand_lt hparts) (not_le.mp hq).le
    have hof := value?_ofNat hle
    have hmagnitude : ((Rounding.halfToEven.magnitude negative m q : ℕ) : ℚ) =
        (roundEven (m * 2 ^ q) : ℚ) := by
      exact_mod_cast congrArg (Int.cast : ℤ → ℚ) (magnitude_halfToEven_eq negative m q)
    rw [hmagnitude] at hof
    rw [hv]
    cases negative with
    | false => exact hof
    | true =>
      simp only [if_true, roundEven_neg]
      push_cast
      exact value?_neg hof

theorem nearestInt64_eq (hx : value? x = some v) : nearestInt64 x = clampInt64 (roundEven v) := by
  rw [nearestInt64, toInt64_eq (value?_round_halfToEven hx), wholePart_intCast]

theorem nearestInt64_of_infinite {negative : Bool} (h : parts x = .infinite negative) :
    nearestInt64 x = if negative then minInt64 else maxInt64 := by
  have hround : round .halfToEven x = x := by
    unfold round
    rw [h]
  rw [nearestInt64, hround, toInt64, h]

/-! ## Whole arguments -/

theorem nearestInt64_ofInt {n : ℤ} (hn : |n| ≤ 2 ^ 53) : nearestInt64 (Float.ofInt n) = n := by
  rw [nearestInt64_eq (value?_ofInt hn), roundEven_intCast]
  refine clampInt64_of_mem ?_
  obtain ⟨hlow, hhigh⟩ := abs_le.mp hn
  simp only [minInt64, maxInt64]
  omega

/-- Where the format has no room for a whole number, what is taken for it is no smaller than the
numbers that it has room for. -/
theorem le_nearestInt64_ofInt {n : ℤ} (hn : 2 ^ 53 ≤ n) :
    2 ^ 53 ≤ nearestInt64 (Float.ofInt n) := by
  have hrounded := isRounded_ofInt n
  unfold IsRounded at hrounded
  split at hrounded
  · have hle : ((2 ^ 53 : ℤ) : ℚ) ≤ nearest n :=
      (representable_intCast (by norm_num)).le_nearest (by exact_mod_cast hn)
    have hround := roundEven_mono hle
    rw [roundEven_intCast] at hround
    rw [nearestInt64_eq hrounded]
    simp only [clampInt64, minInt64, maxInt64]
    omega
  · rw [nearestInt64_of_infinite hrounded, if_neg (by simp; omega)]
    decide

@[inherit_doc le_nearestInt64_ofInt]
theorem nearestInt64_ofInt_le {n : ℤ} (hn : n ≤ -2 ^ 53) :
    nearestInt64 (Float.ofInt n) ≤ -2 ^ 53 := by
  have hrounded := isRounded_ofInt n
  unfold IsRounded at hrounded
  split at hrounded
  · have hle : nearest n ≤ ((-2 ^ 53 : ℤ) : ℚ) :=
      (representable_intCast (by norm_num)).nearest_le (by exact_mod_cast hn)
    have hround := roundEven_mono hle
    rw [roundEven_intCast] at hround
    rw [nearestInt64_eq hrounded]
    simp only [clampInt64, minInt64, maxInt64]
    omega
  · rw [nearestInt64_of_infinite hrounded, if_pos (by simp; omega)]
    decide

/-- A whole number that is small, or for which a small one is taken, is taken as it is. -/
theorem nearestInt64_ofInt_of_small {n : ℤ}
    (h : |n| < 2 ^ 53 ∨ |nearestInt64 (Float.ofInt n)| < 2 ^ 53) :
    nearestInt64 (Float.ofInt n) = n := by
  rcases h with hsmall | hsmall
  · exact nearestInt64_ofInt hsmall.le
  · obtain ⟨hlow, hhigh⟩ := abs_lt.mp hsmall
    refine nearestInt64_ofInt (abs_le.mpr ⟨?_, ?_⟩) <;> by_contra hn
    · have := nearestInt64_ofInt_le (not_le.mp hn).le
      omega
    · have := le_nearestInt64_ofInt (not_le.mp hn).le
      omega

end FormulaEngine.Binary64
