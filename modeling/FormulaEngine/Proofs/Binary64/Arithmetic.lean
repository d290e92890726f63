import FormulaEngine.Proofs.Binary64.Packing

/-! # Arithmetic is rounded once

Sums, products and quotients of finite numbers, and conversions of whole numbers, are what the exact
result is rounded to. -/

namespace FormulaEngine.Binary64

open Float.Model (UnpackedFloat Format totalExponent)
open Float.Model.UnpackedFloat (Sign ExtendedMantissa)

/-! ## Unpacked results -/

theorem canonical_mul (s₁ s₂ : Sign) {m₁ m₂ : ℕ} {e₁ e₂ : ℤ} (h₁ : 0 < m₁) (h₂ : 0 < m₂)
    (he : e₁ + e₂ ≤ lastExponent (m₁ * 2 ^ e₁ * (m₂ * 2 ^ e₂))) :
    Canonical (s₁ * s₂) (nearest (m₁ * 2 ^ e₁ * (m₂ * 2 ^ e₂)))
      (UnpackedFloat.mul Format.binary64 (.finite s₁ m₁ e₁ h₁) (.finite s₂ m₂ e₂ h₂)) := by
  have hx : (0 : ℚ) < m₁ * 2 ^ e₁ * (m₂ * 2 ^ e₂) := by positivity
  refine canonical_roundWithAccuracy hx ?_ he _
  have hscaled : (m₁ * 2 ^ e₁ * (m₂ * 2 ^ e₂) / 2 ^ (e₁ + e₂) : ℚ) = (m₁ * m₂ : ℕ) := by
    rw [zpow_add₀ (by norm_num)]
    push_cast
    field_simp
  rw [hscaled]
  exact represents_exact _

/-- Lowering the exponent leaves the number as it is. -/
theorem decreaseExponent_eq (m : ℕ) (e t : ℤ) :
    ∃ m' e', UnpackedFloat.decreaseExponent m e t = (m', e') ∧ e' = min e t ∧
      (m' * 2 ^ e' : ℚ) = m * 2 ^ e := by
  refine ⟨_, _, rfl, by omega, ?_⟩
  have hsum : e = e - (e - t).toNat + (e - t).toNat := by ring
  rw [Nat.shiftLeft_eq]
  conv_rhs => rw [hsum, two_zpow_add_natCast]
  push_cast
  ring

/-- Any positive number with an exact mantissa is rounded. -/
theorem canonical_round (s : Sign) {m : ℕ} (e : ℤ) (hm : 0 < m) :
    Canonical s (nearest (m * 2 ^ e)) (UnpackedFloat.round Format.binary64 s m e) := by
  have he := two_zpow_pos e
  have hx : (0 : ℚ) < m * 2 ^ e := by positivity
  have htarget : Format.binary64.targetExponent (totalExponent m e) = lastExponent (m * 2 ^ e) :=
    targetExponent_of_ne_zero hm.ne' le_rfl (by linarith)
  obtain ⟨m', e', hdecrease, he', hvalue⟩ := decreaseExponent_eq m e (lastExponent (m * 2 ^ e))
  unfold UnpackedFloat.round
  simp only [htarget, hdecrease]
  refine canonical_roundWithAccuracy hx ?_ (by omega) s
  rw [← hvalue, mul_div_cancel_right₀ _ (two_zpow_pos e').ne']
  exact represents_exact m'

/-- The quotient of two numbers has about as many digits as their lengths differ by. -/
theorem two_zpow_le_quotient {m₁ m₂ : ℕ} (e₁ e₂ : ℤ) (h₁ : 0 < m₁) (h₂ : 0 < m₂) :
    (2 : ℚ) ^ (totalExponent m₁ e₁ - totalExponent m₂ e₂ - 1) ≤ m₁ * 2 ^ e₁ / (m₂ * 2 ^ e₂) := by
  have hlow : ((2 ^ m₁.log2 : ℕ) : ℚ) ≤ m₁ := by exact_mod_cast Nat.log2_self_le h₁.ne'
  have hhigh : (m₂ : ℚ) ≤ (2 ^ (m₂.log2 + 1) : ℕ) := by exact_mod_cast Nat.lt_log2_self.le
  have hp₁ := two_zpow_pos e₁
  have hp₂ := two_zpow_pos e₂
  rw [le_div_iff₀ (by positivity)]
  calc (2 : ℚ) ^ (totalExponent m₁ e₁ - totalExponent m₂ e₂ - 1) * (m₂ * 2 ^ e₂)
      ≤ 2 ^ (totalExponent m₁ e₁ - totalExponent m₂ e₂ - 1) *
          ((2 ^ (m₂.log2 + 1) : ℕ) * 2 ^ e₂) := by gcongr
    _ = (2 ^ m₁.log2 : ℕ) * 2 ^ e₁ := by
      push_cast
      simp only [← zpow_natCast, ← zpow_add₀ (two_ne_zero : (2 : ℚ) ≠ 0)]
      congr 1
      simp only [totalExponent]
      push_cast
      ring
    _ ≤ m₁ * 2 ^ e₁ := by gcongr

/-- Dividing the mantissas leaves a quotient and a remainder of the scaled numbers. -/
theorem quotient_eq {m₁ m₂ : ℕ} {e₁ e₂ t : ℤ} (h₂ : 0 < m₂) (ht : t ≤ e₁ - e₂) :
    (m₁ * 2 ^ e₁ / (m₂ * 2 ^ e₂) / 2 ^ t : ℚ) =
      (m₁ <<< (e₁ - e₂ - t).toNat / m₂ : ℕ) + (m₁ <<< (e₁ - e₂ - t).toNat % m₂ : ℕ) / m₂ := by
  obtain ⟨k, hk⟩ := Int.eq_ofNat_of_zero_le (sub_nonneg.mpr ht)
  rw [hk, Int.toNat_natCast]
  have hm : (m₂ : ℚ) ≠ 0 := by exact_mod_cast h₂.ne'
  have hdivide : ((m₁ <<< k : ℕ) : ℚ) = m₂ * (m₁ <<< k / m₂ : ℕ) + (m₁ <<< k % m₂ : ℕ) := by
    exact_mod_cast (Nat.div_add_mod (m₁ <<< k) m₂).symm
  have hshift : ((m₁ <<< k : ℕ) : ℚ) * 2 ^ e₂ * 2 ^ t = m₁ * 2 ^ e₁ := by
    rw [show e₁ = e₂ + t + k by omega, two_zpow_add_natCast, zpow_add₀ (by norm_num),
      Nat.shiftLeft_eq]
    push_cast
    ring
  have hp₂ := (two_zpow_pos e₂).ne'
  have hpt := (two_zpow_pos t).ne'
  rw [← hshift, hdivide]
  field_simp

theorem canonical_div (s₁ s₂ : Sign) {m₁ m₂ : ℕ} {e₁ e₂ : ℤ} (h₁ : 0 < m₁) (h₂ : 0 < m₂) :
    Canonical (s₁ / s₂) (nearest (m₁ * 2 ^ e₁ / (m₂ * 2 ^ e₂)))
      (UnpackedFloat.div Format.binary64 (.finite s₁ m₁ e₁ h₁) (.finite s₂ m₂ e₂ h₂)) := by
  have hx : (0 : ℚ) < m₁ * 2 ^ e₁ / (m₂ * 2 ^ e₂) := by positivity
  have hquotient := two_zpow_le_quotient e₁ e₂ h₁ h₂
  unfold UnpackedFloat.div UnpackedFloat.divCore
  dsimp only
  rw [targetExponent_eq]
  generalize htarget :
    min (e₁ - e₂) (max (totalExponent m₁ e₁ - totalExponent m₂ e₂ - 53) (-1074)) = t
  refine canonical_roundWithAccuracy hx ?_ ?_ _
  · rw [quotient_eq h₂ (by omega)]
    exact represents_fraction _ (Nat.mod_lt _ h₂)
  · by_contra hlt
    have hhigh := abs_lt_of_lastExponent (m₁ * 2 ^ e₁ / (m₂ * 2 ^ e₂) : ℚ)
    have hlow := le_lastExponent (m₁ * 2 ^ e₁ / (m₂ * 2 ^ e₂) : ℚ)
    rw [abs_of_pos hx] at hhigh
    have hmono : (2 : ℚ) ^ (lastExponent (m₁ * 2 ^ e₁ / (m₂ * 2 ^ e₂)) + 53) ≤
        2 ^ (totalExponent m₁ e₁ - totalExponent m₂ e₂ - 1) :=
      zpow_le_zpow_right₀ (by norm_num) (by omega)
    linarith

theorem isRounded_zero (s : Sign) : IsRounded (.ofModel (.pack (.zero s))) 0 := by
  refine isRounded_of_value? ?_
  rw [value?_pack (s := s) (.zero rfl) (by positivity), signed_zero]

/-- A whole number of units is rounded, and zero is positive. -/
theorem isRounded_normalize (n : ℤ) (e : ℤ) :
    IsRounded (.ofModel (.pack (UnpackedFloat.normalize Format.binary64 n e .positive)))
      (n * 2 ^ e) := by
  unfold UnpackedFloat.normalize
  rcases lt_trichotomy n 0 with hn | rfl | hn
  · have hcompare : compare n 0 = .lt := compare_lt_iff_lt.mpr hn
    have hpos : 0 < (-n).toNat := by omega
    have hnq : (n : ℚ) = -((-n).toNat : ℕ) := by
      have : n = -((-n).toNat : ℤ) := by omega
      exact_mod_cast congrArg (Int.cast : ℤ → ℚ) this
    rw [hcompare, hnq, neg_mul]
    exact isRounded_pack (s := .negative) (by positivity) (canonical_round _ e hpos)
  · rw [Int.cast_zero, zero_mul]
    exact isRounded_zero .positive
  · have hcompare : compare n 0 = .gt := compare_gt_iff_gt.mpr hn
    have hpos : 0 < n.toNat := by omega
    have hnq : (n : ℚ) = (n.toNat : ℕ) := by
      have : n = (n.toNat : ℤ) := by omega
      exact_mod_cast congrArg (Int.cast : ℤ → ℚ) this
    rw [hcompare, hnq]
    exact isRounded_pack (s := .positive) (by positivity) (canonical_round _ e hpos)

/-! ## Products and quotients -/

theorem isNegative_mul (s t : Sign) : isNegative (s * t) = (isNegative s != isNegative t) := by
  cases s <;> cases t <;> rfl

theorem isNegative_div (s t : Sign) : isNegative (s / t) = (isNegative s != isNegative t) := by
  cases s <;> cases t <;> rfl

theorem isNegative_neg (s : Sign) : isNegative (-s) = !isNegative s := by
  cases s <;> rfl

theorem signed_neg (s : Sign) (a : ℚ) : signed (-s) a = -signed s a := by
  unfold signed
  rw [isNegative_neg]
  cases isNegative s <;> simp

theorem signed_mul (s t : Sign) (a b : ℚ) :
    signed (s * t) (a * b) = signed s a * signed t b := by
  unfold signed
  rw [isNegative_mul]
  cases isNegative s <;> cases isNegative t <;> simp

theorem signed_div (s t : Sign) (a b : ℚ) :
    signed (s / t) (a / b) = signed s a / signed t b := by
  unfold signed
  rw [isNegative_div]
  cases isNegative s <;> cases isNegative t <;> simp [neg_div, div_neg]

variable {x y : Float} {v w : ℚ}

/-- One of the factors keeps all its digits, or the product has the lowest exponent. -/
theorem le_lastExponent_mul {m₁ m₂ : ℕ} {e₁ e₂ : ℤ} (h₁ : 0 < m₁) (h₂ : 0 < m₂)
    (hn₁ : 2 ^ 52 ≤ m₁ ∨ e₁ = -1074) (hn₂ : 2 ^ 52 ≤ m₂ ∨ e₂ = -1074) :
    e₁ + e₂ ≤ lastExponent (m₁ * 2 ^ e₁ * (m₂ * 2 ^ e₂)) := by
  have hprod : (m₁ * 2 ^ e₁ * (m₂ * 2 ^ e₂) : ℚ) = (m₁ * m₂ : ℕ) * 2 ^ (e₁ + e₂) := by
    rw [zpow_add₀ (by norm_num)]
    push_cast
    ring
  rw [hprod]
  rcases hn₁ with hn₁ | rfl
  · exact le_lastExponent_of_mantissa (hn₁.trans (Nat.le_mul_of_pos_right m₁ h₂))
  · rcases hn₂ with hn₂ | rfl
    · exact le_lastExponent_of_mantissa (hn₂.trans (Nat.le_mul_of_pos_left m₂ h₁))
    · exact le_trans (by norm_num) (le_lastExponent _)

theorem isRounded_mul (hx : value? x = some v) (hy : value? y = some w) :
    IsRounded (x * y) (v * w) := by
  obtain ⟨s, a, ha, rfl, -⟩ := exists_canonical hx
  obtain ⟨t, b, hb, rfl, -⟩ := exists_canonical hy
  have hmul : x * y = .ofModel (.pack (UnpackedFloat.mul Format.binary64 x.toModel.unpack
    y.toModel.unpack)) := rfl
  rw [hmul, ← signed_mul]
  generalize x.toModel.unpack = u at ha
  generalize y.toModel.unpack = u' at hb
  cases ha with
  | zero hzero =>
    rw [hzero, zero_mul, signed_zero]
    cases hb <;> exact isRounded_zero _
  | finite hpos hm he hn hvalue =>
    cases hb with
    | zero hzero =>
      rw [hzero, mul_zero, signed_zero]
      exact isRounded_zero _
    | finite hpos' hm' he' hn' hvalue' =>
      subst hvalue hvalue'
      exact isRounded_pack (by positivity)
        (canonical_mul s t hpos hpos' (le_lastExponent_mul hpos hpos' hn hn'))

theorem isRounded_div (hx : value? x = some v) (hy : value? y = some w) (hw : w ≠ 0) :
    IsRounded (x / y) (v / w) := by
  obtain ⟨s, a, ha, rfl, -⟩ := exists_canonical hx
  obtain ⟨t, b, hb, rfl, -⟩ := exists_canonical hy
  have hdiv : x / y = .ofModel (.pack (UnpackedFloat.div Format.binary64 x.toModel.unpack
    y.toModel.unpack)) := rfl
  rw [hdiv, ← signed_div]
  generalize x.toModel.unpack = u at ha
  generalize y.toModel.unpack = u' at hb
  cases hb with
  | zero hzero =>
    rw [hzero, signed_zero] at hw
    exact absurd rfl hw
  | finite hpos' hm' he' hn' hvalue' =>
    cases ha with
    | zero hzero =>
      rw [hzero, zero_div, signed_zero]
      exact isRounded_zero _
    | finite hpos hm he hn hvalue =>
      subst hvalue hvalue'
      exact isRounded_pack (by positivity) (canonical_div s t hpos hpos')

/-! ## Sums -/

theorem Canonical.neg {s : Sign} {a : ℚ} {u : UnpackedFloat} (h : Canonical s a u) :
    Canonical (-s) a u.neg := by
  cases h with
  | zero hzero => exact .zero hzero
  | finite hpos hm he hn hvalue => exact .finite hpos hm he hn hvalue

theorem value?_neg (hx : value? x = some v) : value? (-x) = some (-v) := by
  obtain ⟨s, a, ha, rfl, hlt⟩ := exists_canonical hx
  have hneg : -x = .ofModel (.pack (UnpackedFloat.neg x.toModel.unpack)) := rfl
  rw [hneg, ← signed_neg]
  exact value?_pack ha.neg hlt

theorem cast_apply_mul (s : Sign) (m : ℕ) (e : ℤ) :
    ((s.apply m : ℤ) : ℚ) * 2 ^ e = signed s (m * 2 ^ e) := by
  cases s <;> simp [Sign.apply, signed, isNegative]

/-- Two numbers are added as multiples of the smaller one of their last digits. -/
theorem isRounded_add_finite (s t : Sign) {m₁ m₂ : ℕ} {e₁ e₂ : ℤ} (h₁ : 0 < m₁) (h₂ : 0 < m₂) :
    IsRounded (.ofModel (.pack (UnpackedFloat.add Format.binary64 (.finite s m₁ e₁ h₁)
      (.finite t m₂ e₂ h₂)))) (signed s (m₁ * 2 ^ e₁) + signed t (m₂ * 2 ^ e₂)) := by
  obtain ⟨n₁, f₁, hdecrease₁, hf₁, hvalue₁⟩ := decreaseExponent_eq m₁ e₁ (min e₁ e₂)
  obtain ⟨n₂, f₂, hdecrease₂, hf₂, hvalue₂⟩ := decreaseExponent_eq m₂ e₂ (min e₁ e₂)
  obtain rfl : f₁ = min e₁ e₂ := by omega
  obtain rfl : f₂ = min e₁ e₂ := by omega
  have hsum : signed s (m₁ * 2 ^ e₁) + signed t (m₂ * 2 ^ e₂) =
      ((s.apply n₁ + t.apply n₂ : ℤ) : ℚ) * 2 ^ min e₁ e₂ := by
    rw [← hvalue₁, ← hvalue₂, ← cast_apply_mul, ← cast_apply_mul]
    push_cast
    ring
  rw [hsum]
  unfold UnpackedFloat.add
  simp only [hdecrease₁, hdecrease₂]
  exact isRounded_normalize _ _

theorem parts_neg_of_infinite {negative : Bool} (h : parts x = .infinite negative) :
    parts (-x) = .infinite (!negative) := by
  have hneg : -x = .ofModel (.pack (UnpackedFloat.neg x.toModel.unpack)) := rfl
  rw [parts_eq] at h
  rw [hneg, parts_eq, unpack_ofModel_pack]
  generalize x.toModel.unpack = u at h
  cases u with
  | infinity s =>
    cases h
    have hpack : UnpackedFloat.pack Format.binary64 (.neg (.infinity s)) =
        UnpackedFloat.packedInfinity Format.binary64 (-s) := rfl
    rw [hpack, unpack_packedInfinity, partsOf, isNegative_neg]
  | notANumber | zero | finite => cases h

theorem IsRounded.neg (h : IsRounded x v) : IsRounded (-x) (-v) := by
  unfold IsRounded at *
  rw [nearest_neg, abs_neg]
  split
  · rename_i hlt
    rw [if_pos hlt] at h
    exact value?_neg h
  · rename_i hge
    rw [if_neg hge] at h
    rw [parts_neg_of_infinite h]
    have hv : v ≠ 0 := by
      rintro rfl
      rw [nearest_zero, abs_zero] at hge
      exact hge (by positivity)
    rcases lt_or_gt_of_ne hv with hneg | hpos
    · simp [hneg, hneg.le]
    · simp [hpos, hpos.le]

theorem isRounded_add_canonical {s t : Sign} {a b : ℚ} {u u' : UnpackedFloat}
    (ha : Canonical s a u) (hb : Canonical t b u') (hlt : a < 2 ^ 1024) (hlt' : b < 2 ^ 1024) :
    IsRounded (.ofModel (.pack (UnpackedFloat.add Format.binary64 u u')))
      (signed s a + signed t b) := by
  cases ha with
  | zero hzero =>
    rw [hzero, signed_zero, zero_add]
    cases hb with
    | zero hzero' =>
      have hzeros : UnpackedFloat.add Format.binary64 (.zero s) (.zero t) =
          if s == t then .zero s else .zero .positive := rfl
      rw [hzero', signed_zero, hzeros]
      split
      · exact isRounded_zero s
      · exact isRounded_zero .positive
    | finite hpos' hm' he' hn' hvalue' =>
      exact isRounded_of_value? (value?_pack (.finite hpos' hm' he' hn' hvalue') hlt')
  | finite hpos hm he hn hvalue =>
    cases hb with
    | zero hzero' =>
      rw [hzero', signed_zero, add_zero]
      exact isRounded_of_value? (value?_pack (.finite hpos hm he hn hvalue) hlt)
    | finite hpos' hm' he' hn' hvalue' =>
      rw [hvalue, hvalue']
      exact isRounded_add_finite s t hpos hpos'

theorem isRounded_add (hx : value? x = some v) (hy : value? y = some w) :
    IsRounded (x + y) (v + w) := by
  obtain ⟨s, a, ha, rfl, hlt⟩ := exists_canonical hx
  obtain ⟨t, b, hb, rfl, hlt'⟩ := exists_canonical hy
  exact isRounded_add_canonical ha hb hlt hlt'

theorem sub_eq_add (u u' : UnpackedFloat) :
    UnpackedFloat.sub Format.binary64 u u' = UnpackedFloat.add Format.binary64 u u'.neg := by
  cases u <;> cases u' <;> try rfl
  rename_i s m e hm t n f hn
  have hsign : s.apply (UnpackedFloat.decreaseExponent m e (min e f)).1 -
        t.apply (UnpackedFloat.decreaseExponent n f (min e f)).1 =
      s.apply (UnpackedFloat.decreaseExponent m e (min e f)).1 +
        (-t).apply (UnpackedFloat.decreaseExponent n f (min e f)).1 := by
    cases t
    · exact (Int.sub_neg _ _)
    · exact Int.sub_eq_add_neg
  simp only [UnpackedFloat.sub, UnpackedFloat.add, UnpackedFloat.neg, hsign]

theorem isRounded_sub (hx : value? x = some v) (hy : value? y = some w) :
    IsRounded (x - y) (v - w) := by
  obtain ⟨s, a, ha, rfl, hlt⟩ := exists_canonical hx
  obtain ⟨t, b, hb, rfl, hlt'⟩ := exists_canonical hy
  have hsub : x - y = .ofModel (.pack (UnpackedFloat.sub Format.binary64 x.toModel.unpack
    y.toModel.unpack)) := rfl
  rw [hsub, sub_eq_add, sub_eq_add_neg, ← signed_neg]
  exact isRounded_add_canonical ha hb.neg hlt hlt'

/-! ## Decimals and whole numbers -/

theorem value?_toFloat {n : ℕ} (hn : n ≤ 2 ^ 53) : value? n.toUInt64.toFloat = some (n : ℚ) := by
  have hnat : n.toUInt64.toNat = n := by
    rw [Nat.toUInt64, UInt64.toNat_ofNat']
    exact Nat.mod_eq_of_lt (by omega)
  have hmodel : n.toUInt64.toFloat =
      .ofModel (.pack (UnpackedFloat.normalize Format.binary64 n.toUInt64.toNat 0 .positive)) := rfl
  have hrounded := isRounded_normalize n 0
  rw [zpow_zero, mul_one] at hrounded
  rw [hmodel, hnat]
  exact hrounded.value?_intCast (by rw [Nat.abs_cast]; omega)

/-- A decimal that is not far outside the range of the format is rounded: it is a product with a
power of ten, the digits of the other factor moved to the left, or a quotient by one. -/
theorem isRounded_unpacked_ofScientific {n : ℕ} {e : ℤ} (hlow : -(2048 + (n.log2 : ℤ)) ≤ e)
    (hhigh : e ≤ 2048) :
    IsRounded (.ofModel (.pack (UnpackedFloat.ofScientific Format.binary64 n e))) (n * 10 ^ e) := by
  rcases Nat.eq_zero_or_pos n with rfl | hn
  · rw [Nat.cast_zero, zero_mul]
    exact isRounded_zero .positive
  have hbits : (2 : ℤ) ^ Format.binary64.exponentBits = 2048 := rfl
  have hnq : (0 : ℚ) < n := by exact_mod_cast hn
  have hpow : ∀ k : ℕ, 0 < 10 ^ k := fun k => Nat.pow_pos (by decide)
  unfold UnpackedFloat.ofScientific
  rw [dif_neg hn.ne', hbits, if_neg (by omega), if_neg (by omega)]
  split
  · rename_i he
    obtain ⟨k, rfl⟩ := Int.eq_ofNat_of_zero_le he
    have hshift : 0 < n <<< 53 := by
      rw [Nat.shiftLeft_eq]
      positivity
    have hvalue : ((n <<< 53 : ℕ) : ℚ) * 2 ^ (-53 : ℤ) * ((10 ^ k : ℕ) * 2 ^ (0 : ℤ)) =
        n * 10 ^ (k : ℤ) := by
      rw [Nat.shiftLeft_eq, zpow_neg, zpow_natCast]
      push_cast
      field_simp
    have hexponent : (-53 : ℤ) + (0 : ℤ) ≤
        lastExponent ((n <<< 53 : ℕ) * 2 ^ (-53 : ℤ) * ((10 ^ k : ℕ) * 2 ^ (0 : ℤ))) := by
      have hdigits : ((n <<< 53 : ℕ) * 2 ^ (-53 : ℤ) * ((10 ^ k : ℕ) * 2 ^ (0 : ℤ)) : ℚ) =
          (n <<< 53 * 10 ^ k : ℕ) * 2 ^ (-53 + 0 : ℤ) := by
        push_cast
        ring
      have hlarge : 2 ^ 52 ≤ n <<< 53 := by
        rw [Nat.shiftLeft_eq]
        omega
      rw [hdigits]
      exact le_lastExponent_of_mantissa (hlarge.trans (Nat.le_mul_of_pos_right _ (hpow k)))
    have hmul := canonical_mul .positive .positive hshift (hpow k) hexponent
    rw [hvalue] at hmul
    exact isRounded_pack (s := .positive) (by positivity) hmul
  · rename_i he
    obtain ⟨k, hk⟩ := Int.eq_ofNat_of_zero_le (by omega : 0 ≤ -e)
    obtain rfl : e = -k := by omega
    have hvalue : (n * 2 ^ (0 : ℤ) / ((10 ^ k : ℕ) * 2 ^ (0 : ℤ)) : ℚ) = n * 10 ^ (-k : ℤ) := by
      rw [zpow_zero, mul_one, mul_one, zpow_neg, zpow_natCast]
      push_cast
      rfl
    have hdiv : Canonical (.positive / .positive)
        (nearest (n * 2 ^ (0 : ℤ) / ((10 ^ k : ℕ) * 2 ^ (0 : ℤ)))) _ :=
      canonical_div .positive .positive hn (hpow k)
    rw [hvalue] at hdiv
    simp only [neg_neg, Int.toNat_natCast]
    exact isRounded_pack (s := .positive) (by positivity) hdiv

/-- The entries of the table are exact. -/
theorem parts_powerOfTen : ∀ e : Fin Float.exactlyRepresentablePowersOfTen.size,
    parts Float.exactlyRepresentablePowersOfTen[e] =
        .finite false (10 ^ e.val * 2 ^ 52 / 2 ^ (10 ^ e.val).log2) ((10 ^ e.val).log2 - 52) ∧
      2 ^ (10 ^ e.val).log2 ∣ 10 ^ e.val * 2 ^ 52 := by
  decide

theorem value?_powerOfTen {e : ℕ} (h : e < Float.exactlyRepresentablePowersOfTen.size) :
    value? Float.exactlyRepresentablePowersOfTen[e] = some (10 ^ e) := by
  obtain ⟨hparts, hexact⟩ := parts_powerOfTen ⟨e, h⟩
  rw [value?, show parts Float.exactlyRepresentablePowersOfTen[e] = _ from hparts, Parts.value?,
    if_neg Bool.false_ne_true, Nat.cast_div hexact (by positivity), zpow_sub₀ (by norm_num),
    zpow_natCast]
  push_cast
  field_simp

/-- A decimal whose digits and power of ten are both exact is a product or a quotient of them; any
other that is not far outside the range is rounded from its digits. -/
theorem isRounded_ofScientific {n : ℕ} (negative : Bool) {k : ℕ}
    (h : k ≤ if negative then 2048 + n.log2 else 2048) :
    IsRounded (Float.ofScientific n negative k)
      (n * 10 ^ (if negative then -(k : ℤ) else k)) := by
  unfold Float.ofScientific
  split
  · rename_i hsmall
    have hdigits := value?_toFloat hsmall.1.le
    have hpower := value?_powerOfTen (e := k) (Nat.lt_succ_of_le hsmall.2)
    cases negative with
    | true =>
      have hquotient := isRounded_div hdigits hpower (by positivity)
      rw [if_pos rfl, if_pos rfl, zpow_neg, zpow_natCast, ← div_eq_mul_inv]
      exact hquotient
    | false =>
      have hproduct := isRounded_mul hdigits hpower
      rw [if_neg Bool.false_ne_true, if_neg Bool.false_ne_true, zpow_natCast]
      exact hproduct
  · cases negative with
    | true =>
      rw [if_pos rfl] at h ⊢
      exact isRounded_unpacked_ofScientific (e := -(k : ℤ)) (by omega) (by omega)
    | false =>
      rw [if_neg Bool.false_ne_true] at h ⊢
      exact isRounded_unpacked_ofScientific (e := (k : ℤ)) (by omega) (by omega)

/-- A natural number is rounded. -/
theorem isRounded_ofNat (n : ℕ) : IsRounded (Float.ofNat n) n := by
  have hrounded := isRounded_ofScientific (n := n) false (k := 0) (Nat.zero_le _)
  rwa [if_neg Bool.false_ne_true, Nat.cast_zero, zpow_zero, mul_one] at hrounded

/-- A natural number that the format has room for is its own value. -/
theorem value?_ofNat {n : ℕ} (hn : n ≤ 2 ^ 53) : value? (Float.ofNat n) = some (n : ℚ) :=
  IsRounded.value?_intCast (n := n) (isRounded_ofNat n) (by rw [Nat.abs_cast]; omega)

/-- A whole number is rounded. -/
theorem isRounded_ofInt (n : ℤ) : IsRounded (Float.ofInt n) n := by
  cases n with
  | ofNat n => exact isRounded_ofNat n
  | negSucc n =>
    have hneg : Float.ofInt (.negSucc n) = -Float.ofNat (n + 1) := rfl
    have hrounded := (isRounded_ofNat (n + 1)).neg
    rw [hneg]
    rwa [Int.cast_negSucc]

/-- A whole number that the format has room for is its own value. -/
theorem value?_ofInt {n : ℤ} (hn : |n| ≤ 2 ^ 53) : value? (Float.ofInt n) = some (n : ℚ) :=
  (isRounded_ofInt n).value?_intCast hn

end FormulaEngine.Binary64
