import FormulaEngine.Proofs.Binary64.Packing

/-! # Comparisons of numbers

Numbers with values are compared as their values are. Unpacked numbers are compared by their
exponents first, which is right because of their canonical form. -/

namespace FormulaEngine.Binary64

open Float.Model (UnpackedFloat)
open Float.Model.UnpackedFloat (Sign)

/-- A higher exponent goes with a larger number, since the lowest one is excluded. -/
theorem magnitude_lt {m₁ m₂ : ℕ} {e₁ e₂ : ℤ} (hm : m₁ < 2 ^ 53) (hlow : -1074 ≤ e₁)
    (hn : 2 ^ 52 ≤ m₂ ∨ e₂ = -1074) (he : e₁ < e₂) : (m₁ * 2 ^ e₁ : ℚ) < m₂ * 2 ^ e₂ := by
  have hmq : (m₁ : ℚ) < (2 ^ 53 : ℤ) := by exact_mod_cast hm
  have hnq : ((2 ^ 52 : ℤ) : ℚ) ≤ m₂ := by exact_mod_cast hn.resolve_right (by omega)
  calc (m₁ * 2 ^ e₁ : ℚ) < (2 ^ 53 : ℤ) * 2 ^ e₁ :=
        mul_lt_mul_of_pos_right hmq (two_zpow_pos e₁)
    _ = 2 ^ (e₁ + (53 : ℕ)) := (two_zpow_add_natCast e₁ 53).symm
    _ ≤ 2 ^ (e₂ + (52 : ℕ)) := zpow_le_zpow_right₀ (by norm_num) (by push_cast; omega)
    _ = (2 ^ 52 : ℤ) * 2 ^ e₂ := two_zpow_add_natCast e₂ 52
    _ ≤ m₂ * 2 ^ e₂ := mul_le_mul_of_nonneg_right hnq (two_zpow_pos e₂).le

theorem compare_magnitudes {m₁ m₂ : ℕ} {e₁ e₂ : ℤ} (hm₁ : m₁ < 2 ^ 53) (hm₂ : m₂ < 2 ^ 53)
    (hlow₁ : -1074 ≤ e₁) (hlow₂ : -1074 ≤ e₂) (hn₁ : 2 ^ 52 ≤ m₁ ∨ e₁ = -1074)
    (hn₂ : 2 ^ 52 ≤ m₂ ∨ e₂ = -1074) :
    (compare e₁ e₂).then (compare m₁ m₂) = compare (m₁ * 2 ^ e₁ : ℚ) (m₂ * 2 ^ e₂) := by
  rcases lt_trichotomy e₁ e₂ with he | rfl | he
  · rw [compare_lt_iff_lt.mpr he, compare_lt_iff_lt.mpr (magnitude_lt hm₁ hlow₁ hn₂ he)]
    rfl
  · have hpos := two_zpow_pos e₁
    rw [compare_eq_iff_eq.mpr rfl]
    show compare m₁ m₂ = _
    rcases lt_trichotomy m₁ m₂ with hm | rfl | hm
    · have hmq : (m₁ : ℚ) < m₂ := by exact_mod_cast hm
      rw [compare_lt_iff_lt.mpr hm, compare_lt_iff_lt.mpr (mul_lt_mul_of_pos_right hmq hpos)]
    · rw [compare_eq_iff_eq.mpr rfl, compare_eq_iff_eq.mpr rfl]
    · have hmq : (m₂ : ℚ) < m₁ := by exact_mod_cast hm
      rw [compare_gt_iff_gt.mpr hm, compare_gt_iff_gt.mpr (mul_lt_mul_of_pos_right hmq hpos)]
  · rw [compare_gt_iff_gt.mpr he, compare_gt_iff_gt.mpr (magnitude_lt hm₂ hlow₂ hn₁ he)]
    rfl

variable {s t : Sign} {a b : ℚ} {u u' : UnpackedFloat}

theorem compare_neg_neg (v w : ℚ) : compare (-v) (-w) = (compare v w).swap := by
  rcases lt_trichotomy v w with h | rfl | h
  · rw [compare_lt_iff_lt.mpr h, compare_gt_iff_gt.mpr (neg_lt_neg h)]
    rfl
  · rw [compare_eq_iff_eq.mpr rfl, compare_eq_iff_eq.mpr rfl]
    rfl
  · rw [compare_gt_iff_gt.mpr h, compare_lt_iff_lt.mpr (neg_lt_neg h)]
    rfl

theorem compare_zero_signed (hb : 0 < b) :
    compare 0 (signed t b) = if isNegative t then .gt else .lt := by
  cases t
  · exact compare_gt_iff_gt.mpr (show -b < 0 from neg_lt_zero.mpr hb)
  · exact compare_lt_iff_lt.mpr (show 0 < b from hb)

theorem compare_signed_zero (ha : 0 < a) :
    compare (signed s a) 0 = if isNegative s then .lt else .gt := by
  cases s
  · exact compare_lt_iff_lt.mpr (show -a < 0 from neg_lt_zero.mpr ha)
  · exact compare_gt_iff_gt.mpr (show 0 < a from ha)

/-- The signs decide, and magnitudes with the same sign. -/
theorem compare_signed (ha : 0 < a) (hb : 0 < b) :
    compare (signed s a) (signed t b) =
      match s, t with
      | .negative, .negative => (compare a b).swap
      | .negative, .positive => .lt
      | .positive, .negative => .gt
      | .positive, .positive => compare a b := by
  cases s <;> cases t
  · exact compare_neg_neg a b
  · exact compare_lt_iff_lt.mpr (show -a < b by linarith)
  · exact compare_gt_iff_gt.mpr (show -b < a by linarith)
  · rfl

/-- Unpacked numbers are compared as their values are. -/
theorem compare_canonical (ha : Canonical s a u) (hb : Canonical t b u') :
    u.compare u' = some (compare (signed s a) (signed t b)) := by
  cases ha with
  | zero hzero =>
    rw [hzero, signed_zero]
    cases hb with
    | zero hzero' =>
      rw [hzero', signed_zero, compare_eq_iff_eq.mpr rfl]
      rfl
    | finite hpos' hm' he' hn' hvalue' =>
      rw [compare_zero_signed (by rw [hvalue']; positivity)]
      cases t <;> rfl
  | finite hpos hm he hn hvalue =>
    cases hb with
    | zero hzero' =>
      rw [hzero', signed_zero, compare_signed_zero (by rw [hvalue]; positivity)]
      cases s <;> rfl
    | finite hpos' hm' he' hn' hvalue' =>
      rw [compare_signed (by rw [hvalue]; positivity) (by rw [hvalue']; positivity), hvalue,
        hvalue', ← compare_magnitudes hm hm' he he' hn hn']
      cases s <;> cases t <;> rfl

variable {x y : Float} {v w : ℚ}

theorem lt_iff_compare : x < y ↔ x.toModel.compare y.toModel = some .lt := by
  have hlt : x < y ↔ (x.toModel.compare y.toModel == some .lt) = true := by
    show decide (_ = true) = true ↔ _
    rw [decide_eq_true_iff]
    rfl
  rw [hlt, beq_iff_eq]

theorem le_iff_compare : x ≤ y ↔ (x.toModel.compare y.toModel).any (·.isLE) = true := by
  show decide (_ = true) = true ↔ _
  rw [decide_eq_true_iff]
  rfl

theorem compare_values (hx : value? x = some v) (hy : value? y = some w) :
    x.toModel.compare y.toModel = some (compare v w) := by
  obtain ⟨s, a, ha, rfl, -⟩ := exists_canonical hx
  obtain ⟨t, b, hb, rfl, -⟩ := exists_canonical hy
  exact compare_canonical ha hb

theorem lt_iff (hx : value? x = some v) (hy : value? y = some w) : x < y ↔ v < w := by
  rw [lt_iff_compare, compare_values hx hy]
  simp [compare_lt_iff_lt]

theorem le_iff (hx : value? x = some v) (hy : value? y = some w) : x ≤ y ↔ v ≤ w := by
  rw [le_iff_compare, compare_values hx hy, Option.any_some, Ordering.isLE_iff_ne_gt]
  exact compare_le_iff_le

end FormulaEngine.Binary64
