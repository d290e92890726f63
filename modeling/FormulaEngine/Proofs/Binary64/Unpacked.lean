import FormulaEngine.Proofs.Binary64.Nearest
import Mathlib

/-! # Rounding of unpacked numbers

The arithmetic of the format computes a mantissa with two more bits, which say where the exact
result lies behind the last digit of the mantissa. Shifting keeps what the bits say, so the mantissa
that is rounded in the end is the nearest one to the exact result, and the unpacked number is in the
form in which numbers are packed. -/

namespace FormulaEngine.Binary64

open Float.Model (UnpackedFloat Format totalExponent)
open Float.Model.UnpackedFloat (Sign Accuracy ExtendedMantissa)

/-! ## The bits behind a mantissa -/

/-- What the bits of an extended mantissa say about the exact number that it stands for. -/
def Represents : ExtendedMantissa → ℚ → Prop
  | ⟨m, false, false⟩, x => x = m
  | ⟨m, false, true⟩, x => m < x ∧ x < m + 1 / 2
  | ⟨m, true, false⟩, x => x = m + 1 / 2
  | ⟨m, true, true⟩, x => m + 1 / 2 < x ∧ x < m + 1

variable {em : ExtendedMantissa} {x : ℚ}

theorem Represents.bounds (h : Represents em x) : em.mantissa ≤ x ∧ x < em.mantissa + 1 := by
  obtain ⟨m, _ | _, _ | _⟩ := em <;> simp only [Represents] at h ⊢ <;> constructor <;> linarith

theorem Represents.floor_eq (h : Represents em x) : ⌊x⌋ = em.mantissa :=
  Int.floor_eq_iff.mpr (by simpa using h.bounds)

theorem Represents.shiftRightOne (h : Represents em x) : Represents em.shiftRightOne (x / 2) := by
  obtain ⟨m, round, sticky⟩ := em
  obtain ⟨k, rfl | rfl⟩ := m.even_or_odd'
  · have hshift : ExtendedMantissa.shiftRightOne ⟨2 * k, round, sticky⟩ =
        ⟨k, false, round || sticky⟩ := by
      simp [ExtendedMantissa.shiftRightOne]
    rw [hshift]
    cases round <;> cases sticky <;> simp only [Represents, Bool.or_false, Bool.or_true] at h ⊢ <;>
      push_cast at h
    · linarith
    all_goals constructor <;> linarith
  · have hshift : ExtendedMantissa.shiftRightOne ⟨2 * k + 1, round, sticky⟩ =
        ⟨k, true, round || sticky⟩ := by
      have hhalf : (2 * k + 1) / 2 = k := by omega
      have hodd : (2 * k + 1) % 2 = 1 := by omega
      simp [ExtendedMantissa.shiftRightOne, hhalf, hodd]
    rw [hshift]
    cases round <;> cases sticky <;> simp only [Represents, Bool.or_false, Bool.or_true] at h ⊢ <;>
      push_cast at h
    · linarith
    all_goals constructor <;> linarith

theorem Represents.shiftRight (h : Represents em x) (n : ℕ) :
    Represents (em >>> n) (x / 2 ^ n) := by
  induction n with
  | zero =>
    rw [pow_zero, div_one]
    exact h
  | succ n ih =>
    have hshift := ih.shiftRightOne
    rwa [div_div, ← pow_succ] at hshift

/-- The two bits decide the nearest whole number, and ties. -/
theorem Represents.roundedMantissa (h : Represents em x) :
    (em.roundedMantissa : ℤ) = roundEven x := by
  have hfloor := h.floor_eq
  have hfract := Int.self_sub_floor x
  rw [hfloor] at hfract
  obtain ⟨m, round, sticky⟩ := em
  unfold roundEven
  rw [← hfract, hfloor]
  cases round <;> cases sticky <;> simp only [Represents] at h <;>
    simp only [ExtendedMantissa.roundedMantissa, ExtendedMantissa.accuracy,
      Accuracy.roundToNearestEven, Int.cast_natCast]
  · rw [if_pos (by linarith)]
  · rw [if_pos (by linarith)]
  · rw [if_neg (by linarith), if_neg (by linarith)]
    push_cast
    rfl
  · rw [if_neg (by linarith), if_pos (by linarith)]
    push_cast
    rfl

theorem represents_exact (m : ℕ) :
    Represents (.ofMantissaAndAccuracy m .exact) m := rfl

/-- A quotient with a remainder. -/
theorem represents_fraction (m : ℕ) {r d : ℕ} (h : r < d) :
    Represents (.ofMantissaAndAccuracy m (UnpackedFloat.accuracyOfFraction r d)) (m + r / d) := by
  have hd : (0 : ℚ) < d := by exact_mod_cast Nat.zero_lt_of_lt h
  have hr : (r : ℚ) < d := by exact_mod_cast h
  unfold UnpackedFloat.accuracyOfFraction
  split
  · rename_i hzero
    simp [hzero, represents_exact]
  · rename_i hzero
    have hpos : (0 : ℚ) < r := by exact_mod_cast Nat.pos_of_ne_zero hzero
    have hfract : (0 : ℚ) < r / d ∧ (r : ℚ) / d < 1 := ⟨div_pos hpos hd, (div_lt_one hd).mpr hr⟩
    rcases lt_trichotomy (2 * r) d with hlt | heq | hgt
    · rw [Nat.compare_eq_lt.mpr hlt]
      have : (2 * r : ℚ) < d := by exact_mod_cast hlt
      have : (r : ℚ) / d < 1 / 2 := by
        rw [div_lt_div_iff₀ hd (by norm_num)]
        linarith
      show (m : ℚ) < _ ∧ _ < (m : ℚ) + 1 / 2
      constructor <;> linarith
    · rw [Nat.compare_eq_eq.mpr heq]
      have : (2 * r : ℚ) = d := by exact_mod_cast heq
      show (m : ℚ) + r / d = m + 1 / 2
      rw [← this]
      field_simp
    · rw [Nat.compare_eq_gt.mpr hgt]
      have : (d : ℚ) < 2 * r := by exact_mod_cast hgt
      have : (1 : ℚ) / 2 < r / d := by
        rw [div_lt_div_iff₀ (by norm_num) hd]
        linarith
      show (m : ℚ) + 1 / 2 < _ ∧ _ < (m : ℚ) + 1
      constructor <;> linarith

/-! ## The exponent of a result -/

theorem targetExponent_eq (t : ℤ) : Format.binary64.targetExponent t = max (t - 53) (-1074) := rfl

/-- A mantissa in front of a number gives its magnitude. -/
theorem log_eq_of_mantissa {m : ℕ} {e : ℤ} (hm : m ≠ 0) (hle : m * 2 ^ e ≤ x)
    (hlt : x < (m + 1) * 2 ^ e) : Int.log 2 x = m.log2 + e := by
  have he := two_zpow_pos e
  have hmq : (0 : ℚ) < m := by exact_mod_cast Nat.pos_of_ne_zero hm
  have hx : 0 < x := (mul_pos hmq he).trans_le hle
  have hlow : ((2 ^ m.log2 : ℕ) : ℚ) ≤ m := by exact_mod_cast Nat.log2_self_le hm
  have hhigh : (m : ℚ) + 1 ≤ (2 ^ (m.log2 + 1) : ℕ) := by
    exact_mod_cast Nat.lt_log2_self
  refine le_antisymm ?_ ?_
  · refine Int.lt_add_one_iff.mp ((Int.lt_zpow_iff_log_lt (by decide) hx).mp ?_)
    calc x < (m + 1) * 2 ^ e := hlt
      _ ≤ (2 ^ (m.log2 + 1) : ℕ) * 2 ^ e := mul_le_mul_of_nonneg_right hhigh he.le
      _ = (2 : ℕ) ^ (m.log2 + e + 1) := by
        rw [show (m.log2 + e + 1 : ℤ) = e + (m.log2 + 1 : ℕ) by push_cast; ring]
        exact_mod_cast (two_zpow_add_natCast e (m.log2 + 1)).symm
  · refine (Int.zpow_le_iff_le_log (by decide) hx).mp ?_
    calc ((2 : ℕ) : ℚ) ^ (m.log2 + e) = (2 ^ m.log2 : ℕ) * 2 ^ e := by
          rw [add_comm]
          exact_mod_cast two_zpow_add_natCast e m.log2
      _ ≤ m * 2 ^ e := mul_le_mul_of_nonneg_right hlow he.le
      _ ≤ x := hle

/-- The exponent that a result is shifted to is that of its last digit. -/
theorem targetExponent_of_ne_zero {m : ℕ} {e : ℤ} (hm : m ≠ 0) (hle : m * 2 ^ e ≤ x)
    (hlt : x < (m + 1) * 2 ^ e) :
    Format.binary64.targetExponent (totalExponent m e) = lastExponent x := by
  have hmq : (0 : ℚ) < m := by exact_mod_cast Nat.pos_of_ne_zero hm
  have hx : 0 < x := (mul_pos hmq (two_zpow_pos e)).trans_le hle
  rw [targetExponent_eq, totalExponent, lastExponent_of_ne_zero hx.ne', abs_of_pos hx,
    log_eq_of_mantissa hm hle hlt]
  omega

/-- Where nothing but the bits behind the mantissa is left, the exponent is the lowest one. -/
theorem targetExponent_zero {e : ℤ} (hlt : x < 2 ^ e) (hx : 0 < x) (he : e ≤ lastExponent x) :
    Format.binary64.targetExponent (totalExponent 0 e) = lastExponent x := by
  have hlast : lastExponent x = -1074 := by
    by_contra hne
    have hpow := le_abs_of_lastExponent hne
    rw [abs_of_pos hx] at hpow
    have hmono : (2 : ℚ) ^ e ≤ 2 ^ (lastExponent x + 52) :=
      zpow_le_zpow_right₀ (by norm_num) (by omega)
    linarith
  rw [hlast] at he ⊢
  rw [targetExponent_eq, totalExponent, show Nat.log2 0 = 0 from rfl]
  omega

/-! ## Canonical numbers -/

/-- The number has this sign and this magnitude, and the form in which it is packed: 53 digits, or
fewer at the lowest exponent. -/
inductive Canonical (s : Sign) (v : ℚ) : UnpackedFloat → Prop
  | zero : v = 0 → Canonical s v (.zero s)
  | finite {m : ℕ} {e : ℤ} (hm : 0 < m) : m < 2 ^ 53 → -1074 ≤ e → 2 ^ 52 ≤ m ∨ e = -1074 →
      v = m * 2 ^ e → Canonical s v (.finite s m e hm)

theorem shiftToTargetExponent_eq (m : ℕ) (e : ℤ) (accuracy : Accuracy) {k : ℕ}
    (hk : (Format.binary64.targetExponent (totalExponent m e) - e).toNat = k) :
    UnpackedFloat.shiftToTargetExponent Format.binary64 m e accuracy =
      (ExtendedMantissa.ofMantissaAndAccuracy m accuracy >>> k, e + k) := by
  subst hk
  rfl

/-- A mantissa with at most 53 digits is not shifted. -/
theorem shiftToTargetExponent_of_lt {m : ℕ} {e : ℤ} (he : -1074 ≤ e) (hm : m < 2 ^ 53) :
    UnpackedFloat.shiftToTargetExponent Format.binary64 m e .exact = (⟨m, false, false⟩, e) := by
  have hlog : m.log2 ≤ 52 := by
    rcases eq_or_ne m 0 with rfl | hne
    · decide
    · exact Nat.lt_succ_iff.mp ((Nat.log2_lt hne).mpr hm)
  rw [shiftToTargetExponent_eq m e .exact (k := 0), Int.natCast_zero, add_zero]
  · rfl
  · rw [targetExponent_eq, totalExponent]
    omega

/-- The zero that a carry leaves behind is shifted out. -/
theorem shiftToTargetExponent_carry {e : ℤ} (he : -1074 ≤ e) :
    UnpackedFloat.shiftToTargetExponent Format.binary64 (2 ^ 53) e .exact =
      (⟨2 ^ 52, false, false⟩, e + 1) := by
  rw [shiftToTargetExponent_eq (2 ^ 53) e .exact (k := 1), Int.natCast_one]
  · rfl
  · rw [targetExponent_eq, totalExponent, Nat.log2_two_pow]
    omega

/-- The digits of a nearest number, where rounding may have carried. -/
theorem mantissa_bounds (hx : 0 < x) {n : ℕ} (h : nearest x = n * 2 ^ lastExponent x) :
    n ≤ 2 ^ 53 ∧ (2 ^ 52 ≤ n ∨ lastExponent x = -1074) := by
  have hpos := two_zpow_pos (lastExponent x)
  have hhigh := (abs_lt_of_lastExponent x).le
  rw [abs_of_pos hx] at hhigh
  have hhigh := nearest_le_of_multiple (hhigh.trans_eq (two_zpow_add_natCast _ 53))
  rw [h] at hhigh
  refine ⟨by exact_mod_cast le_of_mul_le_mul_right hhigh hpos, or_iff_not_imp_right.mpr ?_⟩
  intro hne
  have hlow := le_abs_of_lastExponent hne
  rw [abs_of_pos hx] at hlow
  have hlow := le_nearest_of_multiple ((two_zpow_add_natCast _ 52).symm.trans_le hlow)
  rw [h] at hlow
  exact_mod_cast le_of_mul_le_mul_right hlow hpos

/-- The first shift leaves the digits that the format has room for. -/
theorem shiftToTargetExponent_represents {m : ℕ} {e : ℤ} {accuracy : Accuracy} (hx : 0 < x)
    (h : Represents (.ofMantissaAndAccuracy m accuracy) (x / 2 ^ e)) (he : e ≤ lastExponent x) :
    ∃ em, UnpackedFloat.shiftToTargetExponent Format.binary64 m e accuracy =
      (em, lastExponent x) ∧ Represents em (x / 2 ^ lastExponent x) := by
  have hmantissa : (ExtendedMantissa.ofMantissaAndAccuracy m accuracy).mantissa = m := by
    rcases accuracy with _ | _ | _ | _ <;> rfl
  obtain ⟨hle, hlt⟩ := h.bounds
  rw [hmantissa, le_div_iff₀ (two_zpow_pos e)] at hle
  rw [hmantissa, div_lt_iff₀ (two_zpow_pos e)] at hlt
  have htarget : Format.binary64.targetExponent (totalExponent m e) = lastExponent x := by
    rcases eq_or_ne m 0 with rfl | hm
    · exact targetExponent_zero (by simpa using hlt) hx he
    · exact targetExponent_of_ne_zero hm hle hlt
  obtain ⟨k, hk⟩ := Int.eq_ofNat_of_zero_le (sub_nonneg.mpr he)
  have hscaled : x / 2 ^ e / 2 ^ k = x / 2 ^ lastExponent x := by
    rw [div_div, ← zpow_natCast, ← zpow_add₀ (by norm_num)]
    congr 2
    omega
  refine ⟨_, ?_, hscaled ▸ h.shiftRight k⟩
  rw [shiftToTargetExponent_eq m e accuracy (k := k) (by omega)]
  congr 1
  omega

/-- What is known of a positive number by a mantissa and the bits behind it is enough to round
it. -/
theorem canonical_roundWithAccuracy {m : ℕ} {e : ℤ} {accuracy : Accuracy} (hx : 0 < x)
    (h : Represents (.ofMantissaAndAccuracy m accuracy) (x / 2 ^ e)) (he : e ≤ lastExponent x)
    (s : Sign) :
    Canonical s (nearest x) (UnpackedFloat.roundWithAccuracy Format.binary64 s m e accuracy) := by
  have hlow := le_lastExponent x
  obtain ⟨em, hshift, hrepresents⟩ := shiftToTargetExponent_represents hx h he
  have hnearest : nearest x = em.roundedMantissa * 2 ^ lastExponent x := by
    rw [nearest, ← hrepresents.roundedMantissa, Int.cast_natCast]
  obtain ⟨hfits, hfull⟩ := mantissa_bounds hx hnearest
  unfold UnpackedFloat.roundWithAccuracy
  rw [hshift]
  dsimp only
  generalize em.roundedMantissa = M at *
  rcases hfits.lt_or_eq with hlt | rfl
  · rw [shiftToTargetExponent_of_lt hlow hlt]
    dsimp only
    split
    · rename_i hzero
      exact .zero (by rw [hnearest, hzero]; simp)
    · exact .finite _ hlt hlow hfull hnearest
  · rw [shiftToTargetExponent_carry hlow]
    refine .finite (by norm_num) (by norm_num) (by omega) (.inl le_rfl) ?_
    rw [hnearest, zpow_add₀ (by norm_num)]
    push_cast
    ring

end FormulaEngine.Binary64
