import Mathlib.Algebra.Order.Round
import Mathlib.Data.Int.Log
import Mathlib.Data.Rat.Floor
import Mathlib.Tactic

/-! # Rounding to the numbers of the format

The finite numbers of the binary64 format are the whole multiples of powers of two with at most 53
binary digits, and with no digit below `2^-1074`. `nearest` takes a rational number to the nearest
of them, ties to the even one, as if there were no largest: what is too large is told apart when a
number is packed. -/

namespace FormulaEngine.Binary64

/-- The nearest integer, ties to even. -/
def roundEven (x : ℚ) : ℤ :=
  if Int.fract x < 1 / 2 then ⌊x⌋
  else if 1 / 2 < Int.fract x then ⌊x⌋ + 1
  else ⌊x⌋ + ⌊x⌋ % 2

theorem abs_roundEven_sub_le (x : ℚ) : |(roundEven x : ℚ) - x| ≤ 1 / 2 := by
  have hx := Int.floor_add_fract x
  have h0 := Int.fract_nonneg x
  have h1 := Int.fract_lt_one x
  unfold roundEven
  rw [abs_le]
  split
  · constructor <;> linarith
  · split
    · push_cast
      constructor <;> linarith
    · -- a tie, where the even neighbour is one of the two
      have hmod : ⌊x⌋ % 2 = 0 ∨ ⌊x⌋ % 2 = 1 := by omega
      rcases hmod with hmod | hmod <;> rw [hmod] <;> push_cast <;> constructor <;> linarith

/-- An integer that is closer than one half is the nearest one. -/
theorem roundEven_eq_of_lt {x : ℚ} {n : ℤ} (h : |(n : ℚ) - x| < 1 / 2) : roundEven x = n := by
  have hround := abs_roundEven_sub_le x
  have hlt : |((roundEven x - n : ℤ) : ℚ)| < 1 := by
    have htri := abs_sub_le (roundEven x : ℚ) x n
    rw [abs_sub_comm x] at htri
    push_cast
    linarith
  have hzero : |roundEven x - n| < 1 := by exact_mod_cast hlt
  have := Int.abs_lt_one_iff.mp hzero
  omega

/-- Half way between two whole numbers the even one is chosen. -/
theorem roundEven_eq_of_half {x : ℚ} {n : ℤ} (h : |(n : ℚ) - x| = 1 / 2) (hn : n % 2 = 0) :
    roundEven x = n := by
  rcases abs_eq (by norm_num : (0 : ℚ) ≤ 1 / 2) |>.mp h with hx | hx
  · have hfloor : ⌊x⌋ = n - 1 := Int.floor_eq_iff.mpr (by push_cast; constructor <;> linarith)
    have hfract : Int.fract x = 1 / 2 := by
      rw [Int.fract, hfloor]
      push_cast
      linarith
    rw [roundEven, hfract, if_neg (lt_irrefl _), if_neg (lt_irrefl _), hfloor]
    omega
  · have hfloor : ⌊x⌋ = n := Int.floor_eq_iff.mpr (by constructor <;> linarith)
    have hfract : Int.fract x = 1 / 2 := by
      rw [Int.fract, hfloor]
      linarith
    rw [roundEven, hfract, if_neg (lt_irrefl _), if_neg (lt_irrefl _), hfloor]
    omega

theorem roundEven_intCast (n : ℤ) : roundEven n = n :=
  roundEven_eq_of_lt (by simp)

theorem roundEven_mono {x y : ℚ} (h : x ≤ y) : roundEven x ≤ roundEven y := by
  by_contra hlt
  -- two integers that are nearest the wrong way round leave a tie, which is the same for both
  have hx := abs_le.mp (abs_roundEven_sub_le x)
  have hy := abs_le.mp (abs_roundEven_sub_le y)
  have hstep : (roundEven y : ℚ) + 1 ≤ roundEven x := by exact_mod_cast not_le.mp hlt
  have hxy : x = y := by linarith
  rw [hxy] at hlt
  exact hlt le_rfl

theorem roundEven_neg (x : ℚ) : roundEven (-x) = -roundEven x := by
  by_cases hwhole : Int.fract x = 0
  · obtain ⟨n, rfl⟩ : ∃ n : ℤ, x = n := ⟨⌊x⌋, by linarith [Int.floor_add_fract x]⟩
    rw [← Int.cast_neg, roundEven_intCast, roundEven_intCast]
  · have hfract : Int.fract (-x) = 1 - Int.fract x := Int.fract_neg hwhole
    have hfloor : ⌊-x⌋ = -⌊x⌋ - 1 := by
      have hx := Int.floor_add_fract x
      have hneg := Int.floor_add_fract (-x)
      have : (⌊-x⌋ : ℚ) = ((-⌊x⌋ - 1 : ℤ) : ℚ) := by
        push_cast
        linarith
      exact_mod_cast this
    unfold roundEven
    rw [hfract, hfloor]
    rcases lt_trichotomy (Int.fract x) (1 / 2) with h | h | h
    · rw [if_neg (by linarith), if_pos (by linarith), if_pos h]
      omega
    · rw [if_neg (by linarith), if_neg (by linarith), if_neg (by linarith), if_neg (by linarith)]
      omega
    · rw [if_pos (by linarith), if_neg (by linarith), if_pos h]
      omega

/-! ## The exponent of the last digit -/

/-- The exponent of the last binary digit that a number of the format next to `v` can have. -/
def lastExponent (v : ℚ) : ℤ := if v = 0 then -1074 else max (Int.log 2 |v| - 52) (-1074)

/-- The number of the format that is nearest to `v`, whatever its size. -/
def nearest (v : ℚ) : ℚ := roundEven (v / 2 ^ lastExponent v) * 2 ^ lastExponent v

/-- The finite numbers of the format, and those that are too large for it. -/
def Representable (v : ℚ) : Prop := ∃ n f : ℤ, |n| ≤ 2 ^ 53 ∧ -1074 ≤ f ∧ v = n * 2 ^ f

theorem two_zpow_pos (e : ℤ) : (0 : ℚ) < 2 ^ e := zpow_pos (by norm_num) e

theorem two_zpow_add_natCast (e : ℤ) (k : ℕ) : (2 : ℚ) ^ (e + k) = ((2 ^ k : ℤ) : ℚ) * 2 ^ e := by
  rw [zpow_add₀ (by norm_num), zpow_natCast]
  push_cast
  ring

theorem lastExponent_of_ne_zero {v : ℚ} (h : v ≠ 0) :
    lastExponent v = max (Int.log 2 |v| - 52) (-1074) := if_neg h

theorem lastExponent_neg (v : ℚ) : lastExponent (-v) = lastExponent v := by
  simp only [lastExponent, neg_eq_zero, abs_neg]

theorem le_lastExponent (v : ℚ) : -1074 ≤ lastExponent v := by
  unfold lastExponent
  split
  · exact le_rfl
  · exact le_max_right _ _

/-- The scaled number has at most 53 digits in front of the point. -/
theorem abs_lt_of_lastExponent (v : ℚ) : |v| < 2 ^ (lastExponent v + 53) := by
  rcases eq_or_ne v 0 with rfl | hv
  · rw [abs_zero]
    exact two_zpow_pos _
  · have hlog : |v| < (2 : ℕ) ^ (Int.log 2 |v| + 1) := Int.lt_zpow_succ_log_self (by decide) _
    refine hlog.trans_le (zpow_le_zpow_right₀ (by norm_num) ?_)
    rw [lastExponent_of_ne_zero hv]
    omega

/-- It has 53 of them, unless the exponent cannot be lower. -/
theorem le_abs_of_lastExponent {v : ℚ} (h : lastExponent v ≠ -1074) :
    (2 : ℚ) ^ (lastExponent v + 52) ≤ |v| := by
  have hv : v ≠ 0 := fun hv => h (if_pos hv)
  have hlast : lastExponent v = Int.log 2 |v| - 52 := by
    rw [lastExponent_of_ne_zero hv] at h ⊢
    omega
  rw [hlast, sub_add_cancel]
  exact Int.zpow_log_le_self (by decide) (abs_pos.mpr hv)

/-- A number that is small enough has no higher exponent. -/
theorem lastExponent_le {v : ℚ} {f : ℤ} (hf : -1074 ≤ f) (hv : |v| < 2 ^ (f + 53)) :
    lastExponent v ≤ f := by
  by_contra hlt
  have hle := le_abs_of_lastExponent (v := v) (by omega)
  have hmono : (2 : ℚ) ^ (f + 53) ≤ 2 ^ (lastExponent v + 52) :=
    zpow_le_zpow_right₀ (by norm_num) (by omega)
  linarith

theorem lastExponent_eq {v : ℚ} {f : ℤ} (hf : -1074 ≤ f) (hlt : |v| < 2 ^ (f + 53))
    (hle : 2 ^ (f + 52) ≤ |v| ∨ f = -1074) : lastExponent v = f := by
  refine le_antisymm (lastExponent_le hf hlt) ?_
  rcases hle with hle | rfl
  · have hpow := (zpow_lt_zpow_iff_right₀ (by norm_num : (1 : ℚ) < 2)).mp
      (hle.trans_lt (abs_lt_of_lastExponent v))
    omega
  · exact le_lastExponent v

theorem lastExponent_mono {v w : ℚ} (h : |v| ≤ |w|) : lastExponent v ≤ lastExponent w :=
  lastExponent_le (le_lastExponent w) (h.trans_lt (abs_lt_of_lastExponent w))

/-- A number with enough digits keeps its last one, or loses it. -/
theorem le_lastExponent_of_mantissa {m : ℕ} {e : ℤ} (hm : 2 ^ 52 ≤ m) :
    e ≤ lastExponent (m * 2 ^ e) := by
  by_contra hlt
  have hpos := two_zpow_pos e
  have hhigh := abs_lt_of_lastExponent (m * 2 ^ e)
  rw [abs_of_nonneg (mul_nonneg (Nat.cast_nonneg _) hpos.le)] at hhigh
  have hmono : (2 : ℚ) ^ (lastExponent (m * 2 ^ e) + 53) ≤ 2 ^ (e + (52 : ℕ)) :=
    zpow_le_zpow_right₀ (by norm_num) (by push_cast; omega)
  have hmq : ((2 ^ 52 : ℤ) : ℚ) ≤ m := by exact_mod_cast hm
  rw [two_zpow_add_natCast] at hmono
  nlinarith

/-! ## The nearest number -/

theorem nearest_neg (v : ℚ) : nearest (-v) = -nearest v := by
  rw [nearest, nearest, lastExponent_neg, neg_div, roundEven_neg]
  push_cast
  ring

theorem abs_nearest_sub_le (v : ℚ) : |nearest v - v| ≤ 2 ^ lastExponent v / 2 := by
  have hpos := two_zpow_pos (lastExponent v)
  have hround := abs_roundEven_sub_le (v / 2 ^ lastExponent v)
  have hv : nearest v - v =
      (roundEven (v / 2 ^ lastExponent v) - v / 2 ^ lastExponent v) * 2 ^ lastExponent v := by
    rw [nearest]
    field_simp
  rw [hv, abs_mul, abs_of_pos hpos]
  nlinarith

/-- The rounding error of a number below a power of two. -/
theorem abs_nearest_sub_le_of_lt {v : ℚ} (f : ℤ) (hf : -1074 ≤ f) (hv : |v| < 2 ^ (f + 53)) :
    |nearest v - v| ≤ 2 ^ f / 2 := by
  have hle : (2 : ℚ) ^ lastExponent v ≤ 2 ^ f :=
    zpow_le_zpow_right₀ (by norm_num) (lastExponent_le hf hv)
  have := abs_nearest_sub_le v
  linarith

/-- What is not further from a number than half of its last digit is rounded to it; from half of it
the even digit attracts. -/
theorem nearest_eq {v : ℚ} {n f : ℤ} (hlast : lastExponent v = f)
    (h : if n % 2 = 0 then |n * 2 ^ f - v| ≤ 2 ^ f / 2 else |n * 2 ^ f - v| < 2 ^ f / 2) :
    nearest v = n * 2 ^ f := by
  have hpos := two_zpow_pos f
  have hscaled : |(n : ℚ) - v / 2 ^ f| = |n * 2 ^ f - v| / 2 ^ f := by
    rw [← abs_of_pos hpos, ← abs_div, abs_of_pos hpos, sub_div, mul_div_cancel_right₀ _ hpos.ne']
  have hround : roundEven (v / 2 ^ f) = n := by
    split at h
    · rename_i heven
      rcases h.lt_or_eq with hlt | heq
      · refine roundEven_eq_of_lt ?_
        rw [hscaled, div_lt_iff₀ hpos]
        linarith
      · refine roundEven_eq_of_half ?_ heven
        rw [hscaled, heq]
        field_simp
    · refine roundEven_eq_of_lt ?_
      rw [hscaled, div_lt_iff₀ hpos]
      linarith
  rw [nearest, hlast, hround]

theorem nearest_eq_zero {v : ℚ} (hv : 0 ≤ v) (hlt : v < 2 ^ (-1075 : ℤ)) : nearest v = 0 := by
  have hlast : lastExponent v = -1074 := by
    refine le_antisymm (lastExponent_le le_rfl ?_) (le_lastExponent v)
    rw [abs_of_nonneg hv]
    exact hlt.trans_le (zpow_le_zpow_right₀ (by norm_num) (by norm_num))
  have hpos := two_zpow_pos (-1074)
  have hhalf : (2 : ℚ) ^ (-1075 : ℤ) = 1 / 2 * 2 ^ (-1074 : ℤ) := by
    rw [show (-1075 : ℤ) = -1 + -1074 by norm_num, zpow_add₀ (by norm_num)]
    norm_num
  have hround : roundEven (v / 2 ^ (-1074 : ℤ)) = 0 := by
    refine roundEven_eq_of_lt ?_
    rw [Int.cast_zero, zero_sub, abs_neg, abs_of_nonneg (by positivity), div_lt_iff₀ hpos, ← hhalf]
    exact hlt
  rw [nearest, hlast, hround, Int.cast_zero, zero_mul]

/-- A multiple of the last digit is its own nearest number. -/
theorem nearest_of_multiple {v : ℚ} {n f : ℤ} (hf : lastExponent v ≤ f) (hv : v = n * 2 ^ f) :
    nearest v = v := by
  obtain ⟨k, hk⟩ := Int.eq_ofNat_of_zero_le (sub_nonneg.mpr hf)
  have hscaled : v / 2 ^ lastExponent v = ((n * 2 ^ k : ℤ) : ℚ) := by
    rw [div_eq_iff (two_zpow_pos _).ne', Int.cast_mul, Int.cast_pow, Int.cast_ofNat, mul_assoc,
      ← zpow_natCast, ← zpow_add₀ (by norm_num), ← hk, sub_add_cancel]
    exact hv
  rw [nearest, hscaled, roundEven_intCast, ← hscaled, div_mul_cancel₀ _ (two_zpow_pos _).ne']

theorem nearest_of_representable {v : ℚ} (h : Representable v) : nearest v = v := by
  obtain ⟨n, f, hn, hf, hv⟩ := h
  have habs : |v| = |(n : ℚ)| * 2 ^ f := by rw [hv, abs_mul, abs_of_pos (two_zpow_pos f)]
  have hnq : |(n : ℚ)| ≤ 2 ^ 53 := by exact_mod_cast hn
  rcases hnq.lt_or_eq with hlt | heq
  · refine nearest_of_multiple (lastExponent_le hf ?_) hv
    rw [habs, zpow_add₀ (by norm_num)]
    have := two_zpow_pos f
    norm_num at hlt ⊢
    nlinarith
  · -- the largest multiple has a digit too many, and ends in a zero
    obtain ⟨m, rfl⟩ : ∃ m : ℤ, n = 2 * m := by
      have hn : |n| = 2 ^ 53 := by exact_mod_cast heq
      rcases abs_choice n with h | h <;> exact ⟨n / 2, by omega⟩
    refine nearest_of_multiple (n := m) (f := f + 1) (lastExponent_le (by omega) ?_) ?_
    · rw [habs, heq, add_assoc, zpow_add₀ (by norm_num)]
      have := two_zpow_pos f
      norm_num
      linarith
    · rw [hv, zpow_add₀ (by norm_num)]
      push_cast
      ring

/-- Rounding does not pass a multiple of the last digit. -/
theorem le_nearest_of_multiple {v : ℚ} {n : ℤ} (h : n * 2 ^ lastExponent v ≤ v) :
    n * 2 ^ lastExponent v ≤ nearest v := by
  have hpos := two_zpow_pos (lastExponent v)
  have hround := roundEven_mono ((le_div_iff₀ hpos).mpr h)
  rw [roundEven_intCast] at hround
  exact mul_le_mul_of_nonneg_right (by exact_mod_cast hround) hpos.le

@[inherit_doc le_nearest_of_multiple]
theorem nearest_le_of_multiple {v : ℚ} {n : ℤ} (h : v ≤ n * 2 ^ lastExponent v) :
    nearest v ≤ n * 2 ^ lastExponent v := by
  have hpos := two_zpow_pos (lastExponent v)
  have hround := roundEven_mono ((div_le_iff₀ hpos).mpr h)
  rw [roundEven_intCast] at hround
  exact mul_le_mul_of_nonneg_right (by exact_mod_cast hround) hpos.le

theorem nearest_nonneg {v : ℚ} (h : 0 ≤ v) : 0 ≤ nearest v := by
  simpa using le_nearest_of_multiple (n := 0) (by simpa using h)

theorem nearest_mono_of_nonneg {v w : ℚ} (hv : 0 ≤ v) (h : v ≤ w) : nearest v ≤ nearest w := by
  have hw := hv.trans h
  have hle : lastExponent v ≤ lastExponent w :=
    lastExponent_mono (by rwa [abs_of_nonneg hv, abs_of_nonneg hw])
  rcases hle.lt_or_eq with hlt | heq
  · -- a power of two stands between the two numbers
    have hbelow := (abs_lt_of_lastExponent v).le
    have habove := le_abs_of_lastExponent (v := w) (by have := le_lastExponent v; omega)
    rw [abs_of_nonneg hv] at hbelow
    rw [abs_of_nonneg hw] at habove
    calc nearest v ≤ (2 ^ 53 : ℤ) * 2 ^ lastExponent v :=
          nearest_le_of_multiple (hbelow.trans_eq (two_zpow_add_natCast _ 53))
      _ = 2 ^ (lastExponent v + 53) := (two_zpow_add_natCast _ 53).symm
      _ ≤ 2 ^ (lastExponent w + 52) := zpow_le_zpow_right₀ (by norm_num) (by omega)
      _ = (2 ^ 52 : ℤ) * 2 ^ lastExponent w := two_zpow_add_natCast _ 52
      _ ≤ nearest w :=
          le_nearest_of_multiple ((two_zpow_add_natCast _ 52).symm.trans_le habove)
  · unfold nearest
    rw [heq]
    refine mul_le_mul_of_nonneg_right ?_ (two_zpow_pos _).le
    exact_mod_cast roundEven_mono (div_le_div_of_nonneg_right h (two_zpow_pos _).le)

theorem nearest_mono {v w : ℚ} (h : v ≤ w) : nearest v ≤ nearest w := by
  rcases le_total 0 v with hv | hv
  · exact nearest_mono_of_nonneg hv h
  · rcases le_total 0 w with hw | hw
    · have hneg := nearest_nonneg (neg_nonneg.mpr hv)
      rw [nearest_neg] at hneg
      linarith [nearest_nonneg hw]
    · have hneg := nearest_mono_of_nonneg (neg_nonneg.mpr hw) (neg_le_neg h)
      rw [nearest_neg, nearest_neg] at hneg
      linarith

/-- Rounding does not pass a number of the format. -/
theorem Representable.le_nearest {g v : ℚ} (hg : Representable g) (h : g ≤ v) : g ≤ nearest v :=
  (nearest_of_representable hg).symm.trans_le (nearest_mono h)

@[inherit_doc Representable.le_nearest]
theorem Representable.nearest_le {g v : ℚ} (hg : Representable g) (h : v ≤ g) : nearest v ≤ g :=
  (nearest_mono h).trans_eq (nearest_of_representable hg)

theorem Representable.neg {g : ℚ} (hg : Representable g) : Representable (-g) := by
  obtain ⟨n, f, hn, hf, rfl⟩ := hg
  exact ⟨-n, f, by rwa [abs_neg], hf, by push_cast; ring⟩

theorem Representable.abs_nearest_le {g v : ℚ} (hg : Representable g) (h : |v| ≤ g) :
    |nearest v| ≤ g := by
  obtain ⟨hlow, hhigh⟩ := abs_le.mp h
  exact abs_le.mpr ⟨hg.neg.le_nearest hlow, hg.nearest_le hhigh⟩

/-- What is rounded is a number of the format. -/
theorem representable_nearest (v : ℚ) : Representable (nearest v) := by
  have hpos := two_zpow_pos (lastExponent v)
  have hscaled : |v / 2 ^ lastExponent v| < 2 ^ 53 := by
    rw [abs_div, abs_of_pos hpos, div_lt_iff₀ hpos]
    have hlt := abs_lt_of_lastExponent v
    rwa [add_comm, zpow_add₀ (by norm_num)] at hlt
  obtain ⟨hlow, hhigh⟩ := abs_lt.mp hscaled
  have hupper := roundEven_mono (y := ((2 ^ 53 : ℤ) : ℚ)) (by exact_mod_cast hhigh.le)
  have hlower := roundEven_mono (x := ((-2 ^ 53 : ℤ) : ℚ)) (by exact_mod_cast hlow.le)
  rw [roundEven_intCast] at hupper hlower
  exact ⟨_, _, abs_le.mpr ⟨hlower, hupper⟩, le_lastExponent v, rfl⟩

theorem Representable.two_mul {g : ℚ} (hg : Representable g) : Representable (2 * g) := by
  obtain ⟨n, f, hn, hf, rfl⟩ := hg
  refine ⟨n, f + 1, hn, by omega, ?_⟩
  rw [zpow_add₀ (by norm_num)]
  ring

theorem representable_two_zpow {k : ℤ} (hk : -1074 ≤ k) : Representable (2 ^ k) :=
  ⟨1, k, by norm_num, hk, by rw [Int.cast_one, one_mul]⟩

theorem representable_two_pow (k : ℕ) : Representable (2 ^ k) := by
  rw [← zpow_natCast]
  exact representable_two_zpow (by omega)

theorem representable_intCast {n : ℤ} (h : |n| ≤ 2 ^ 53) : Representable n :=
  ⟨n, 0, h, by norm_num, by simp⟩

theorem representable_zero : Representable 0 := by
  simpa using representable_intCast (n := 0) (by norm_num)

theorem representable_one : Representable 1 := by simpa using representable_two_pow 0

theorem nearest_zero : nearest 0 = 0 := nearest_of_representable representable_zero

end FormulaEngine.Binary64
