import FormulaEngine.Decimal.Shortest
import FormulaEngine.Proofs.Decimal.Rounding

/-! # The shortest decimal is read back

Every number of the interval around `m · 2^q` is rounded to `m · 2^q`. What the search finds lies in
the interval, and it finds something: the last of its grids are finer than half of the distance to
the next number. That no coarser decimal would do is not said here. -/

namespace FormulaEngine.Decimal

open Binary64

/-! ## The interval -/

/-- The number lies in the interval, whose bounds count the unit. -/
def Interval.Holds (i : Interval) (unit v : ℚ) : Prop :=
  if i.closed then i.low * unit ≤ v ∧ v ≤ i.high * unit else i.low * unit < v ∧ v < i.high * unit

theorem Interval.Holds.bounds {i : Interval} {unit v : ℚ} (h : i.Holds unit v) :
    i.low * unit ≤ v ∧ v ≤ i.high * unit := by
  unfold Holds at h
  split at h
  · exact h
  · exact ⟨h.1.le, h.2.le⟩

theorem Interval.low_around {m : ℕ} (hm : 0 < m) (q : ℤ) :
    ((around m q).low : ℚ) = if m = 2 ^ 52 ∧ -1074 < q then (4 * m - 1 : ℚ) else 4 * m - 2 := by
  unfold around
  dsimp only
  split
  · rename_i h
    rw [if_pos (by simpa using h), Nat.cast_sub (by omega)]
    push_cast
    rfl
  · rename_i h
    rw [if_neg (by simpa using h), Nat.cast_sub (by omega)]
    push_cast
    rfl

theorem Interval.high_around (m : ℕ) (q : ℤ) : ((around m q).high : ℚ) = 4 * m + 2 := by
  unfold around
  push_cast
  rfl

/-- The interval does not reach further than half of the last digit, and not quite as far for odd
digits. -/
theorem Interval.Holds.abs_sub_le {m : ℕ} {q : ℤ} {v : ℚ} (hm : 0 < m)
    (h : (Interval.around m q).Holds (2 ^ (q - 2)) v) :
    if (m : ℤ) % 2 = 0 then |(m : ℤ) * 2 ^ q - v| ≤ 2 ^ q / 2
    else |(m : ℤ) * 2 ^ q - v| < 2 ^ q / 2 := by
  have hunit := two_zpow_pos (q - 2)
  have hq : (2 : ℚ) ^ q = 4 * 2 ^ (q - 2) := by
    rw [zpow_sub₀ (by norm_num)]
    norm_num
    ring
  have hlow : (4 * m - 2) * 2 ^ (q - 2) ≤ ((around m q).low : ℚ) * 2 ^ (q - 2) := by
    refine mul_le_mul_of_nonneg_right ?_ hunit.le
    rw [low_around hm]
    split <;> linarith
  unfold Holds at h
  rw [high_around] at h
  rw [hq, Int.cast_natCast]
  split
  · rename_i heven
    have hclosed : (around m q).closed = true := beq_iff_eq.mpr (by omega)
    rw [if_pos hclosed] at h
    exact abs_le.mpr ⟨by linarith [h.2], by linarith [h.1]⟩
  · rename_i hodd
    have hclosed : ¬ (around m q).closed = true := fun heven =>
      hodd (by have := beq_iff_eq.mp heven; omega)
    rw [if_neg hclosed] at h
    exact abs_lt.mpr ⟨by linarith [h.2], by linarith [h.1]⟩

/-- The interval around a number of the format holds what is rounded to the number. Below a power of
two the digits are finer, and so is the interval. -/
theorem nearest_of_holds {m : ℕ} {q : ℤ} {v : ℚ} (hm : 0 < m) (hm' : m < 2 ^ 53) (hq : -1074 ≤ q)
    (hn : 2 ^ 52 ≤ m ∨ q = -1074) (h : (Interval.around m q).Holds (2 ^ (q - 2)) v) :
    nearest v = m * 2 ^ q := by
  have hunit := two_zpow_pos (q - 2)
  have hpow : ∀ (k : ℕ) (e : ℤ), e = q - 2 + k → (2 : ℚ) ^ e = (2 ^ k : ℤ) * 2 ^ (q - 2) := by
    rintro k e rfl
    exact two_zpow_add_natCast (q - 2) k
  have hmq : (1 : ℚ) ≤ m := by exact_mod_cast hm
  have hmq' : (m : ℚ) ≤ 2 ^ 53 - 1 := by
    have : ((m + 1 : ℕ) : ℚ) ≤ (2 ^ 53 : ℕ) := by exact_mod_cast hm'
    push_cast at this
    linarith
  obtain ⟨hlow, hhigh⟩ := h.bounds
  rw [Interval.low_around hm] at hlow
  rw [Interval.high_around] at hhigh
  have hv : 0 < v := by
    refine lt_of_lt_of_le (mul_pos ?_ hunit) hlow
    split <;> linarith
  by_cases hfull : 2 ^ (q + 52) ≤ v ∨ q = -1074
  · have hlast : lastExponent v = q := by
      refine lastExponent_eq hq ?_ (by rwa [abs_of_pos hv])
      rw [abs_of_pos hv, hpow 55 _ (by push_cast; ring)]
      refine hhigh.trans_lt (mul_lt_mul_of_pos_right ?_ hunit)
      push_cast
      linarith
    have hnearest := nearest_eq hlast (h.abs_sub_le hm)
    rwa [Int.cast_natCast] at hnearest
  · -- below the least number with this last digit there is only the end of the interval
    obtain ⟨hbelow, hne⟩ := not_or.mp hfull
    rw [hpow 54 _ (by push_cast; ring), not_le] at hbelow
    have hpower : m = 2 ^ 52 := by
      by_contra hother
      have hmore : ((2 ^ 52 + 1 : ℕ) : ℚ) ≤ m := by
        exact_mod_cast Nat.lt_of_le_of_ne (hn.resolve_right hne) (Ne.symm hother)
      rw [if_neg (fun h => hother h.1)] at hlow
      have hlarge := mul_le_mul_of_nonneg_right hmore hunit.le
      push_cast at hbelow hlarge
      linarith
    rw [if_pos ⟨hpower, by omega⟩] at hlow
    have hpowerq : (m : ℚ) = 2 ^ 52 := by rw [hpower]; norm_num
    rw [hpowerq] at hlow ⊢
    have hlast : lastExponent v = q - 1 := by
      refine lastExponent_eq (by omega) ?_ (.inl ?_)
      · rw [abs_of_pos hv, hpow 54 _ (by push_cast; ring)]
        exact hbelow
      · rw [abs_of_pos hv, hpow 53 _ (by push_cast; ring)]
        push_cast
        linarith
    have hhalf : (2 : ℚ) ^ (q - 1) = 2 * 2 ^ (q - 2) := by
      rw [hpow 1 _ (by push_cast; ring)]
      norm_num
    have hnearest := nearest_eq (v := v) (n := 2 ^ 53) hlast (by
      rw [if_pos (by norm_num), hhalf, abs_le]
      push_cast at hbelow ⊢
      constructor <;> linarith)
    rw [hnearest, hhalf, hpow 2 q (by push_cast; ring)]
    push_cast
    ring

/-! ## The grids -/

theorem pow_toNat {b : ℚ} (hb : b ≠ 0) (e : ℤ) : b ^ e.toNat = b ^ e * b ^ (-e).toNat := by
  rw [← zpow_natCast, ← zpow_natCast, ← zpow_add₀ hb]
  congr 1
  omega

theorem gridRatio_pos (q k : ℤ) : 0 < (gridRatio q k).2 :=
  Nat.mul_pos (Nat.pow_pos (by decide)) (Nat.pow_pos (by decide))

theorem gridRatio_eq (q k : ℤ) :
    ((gridRatio q k).1 * 10 ^ k : ℚ) = (gridRatio q k).2 * 2 ^ (q - 2) := by
  have htwo := pow_toNat (by norm_num : (2 : ℚ) ≠ 0) (q - 2)
  have hten := pow_toNat (by norm_num : (10 : ℚ) ≠ 0) k
  rw [show -(q - 2) = 2 - q by ring] at htwo
  have hnum : ((gridRatio q k).1 : ℚ) = 2 ^ (q - 2).toNat * 10 ^ (-k).toNat := by
    exact_mod_cast rfl
  have hden : ((gridRatio q k).2 : ℚ) = 2 ^ (2 - q).toNat * 10 ^ k.toNat := by
    exact_mod_cast rfl
  rw [hnum, hden, htwo, hten]
  ring

/-- Units and grid points are compared over a common denominator. -/
theorem unit_le_iff (q k : ℤ) (a n : ℕ) :
    (a * (gridRatio q k).1 ≤ n * (gridRatio q k).2 ↔ (a * 2 ^ (q - 2) : ℚ) ≤ n * 10 ^ k) ∧
      (n * (gridRatio q k).2 ≤ a * (gridRatio q k).1 ↔ (n * 10 ^ k : ℚ) ≤ a * 2 ^ (q - 2)) := by
  have hratio := gridRatio_eq q k
  have hden : (0 : ℚ) < (gridRatio q k).2 := by exact_mod_cast gridRatio_pos q k
  have hten : (0 : ℚ) < 10 ^ k := by positivity
  have hunit : (a * 2 ^ (q - 2) * (gridRatio q k).2 : ℚ) = a * (gridRatio q k).1 * 10 ^ k := by
    rw [mul_assoc, mul_comm (2 ^ (q - 2) : ℚ), ← hratio]
    ring
  have hpoint : (n * 10 ^ k * (gridRatio q k).2 : ℚ) = n * (gridRatio q k).2 * 10 ^ k := by ring
  constructor
  · rw [← mul_le_mul_iff_left₀ hden, hunit, hpoint, mul_le_mul_iff_left₀ hten]
    exact_mod_cast Iff.rfl
  · rw [← mul_le_mul_iff_left₀ hden, hunit, hpoint, mul_le_mul_iff_left₀ hten]
    exact_mod_cast Iff.rfl

theorem Interval.contains_iff (i : Interval) (q k : ℤ) (n : ℕ) :
    i.contains (n * (gridRatio q k).2) (gridRatio q k).1 = true ↔
      i.Holds (2 ^ (q - 2)) (n * 10 ^ k) := by
  obtain ⟨hlow, hlow'⟩ := unit_le_iff q k i.low n
  obtain ⟨hhigh, hhigh'⟩ := unit_le_iff q k i.high n
  unfold contains Holds
  split
  · rw [Bool.and_eq_true, decide_eq_true_iff, decide_eq_true_iff, hlow, hhigh']
  · rw [Bool.and_eq_true, decide_eq_true_iff, decide_eq_true_iff, ← not_le, ← not_le, ← not_le,
      ← not_le, hlow', hhigh]

/-- What stands for a number on a grid is read back. -/
theorem holds_of_onGrid? {m n : ℕ} {q k : ℤ} (h : onGrid? m q k = some n) :
    (Interval.around m q).Holds (2 ^ (q - 2)) (n * 10 ^ k) := by
  rw [← Interval.contains_iff]
  unfold onGrid? at h
  dsimp only at h
  repeat' split at h
  all_goals cases h
  all_goals simp_all

theorem Interval.holds_of_lt {i : Interval} {unit v : ℚ} (hlow : i.low * unit < v)
    (hhigh : v < i.high * unit) : i.Holds unit v := by
  unfold Holds
  split
  · exact ⟨hlow.le, hhigh.le⟩
  · exact ⟨hlow, hhigh⟩

/-- On a fine grid the next point above the number is in the interval. -/
theorem contains_above {m n : ℕ} {q k : ℤ} (hm : 0 < m) (hk : (10 : ℚ) ^ k < 2 ^ (q - 1))
    (hn : n = 4 * m * (gridRatio q k).1 / (gridRatio q k).2) :
    (Interval.around m q).contains ((n + 1) * (gridRatio q k).2) (gridRatio q k).1 = true := by
  have hunit := two_zpow_pos (q - 2)
  have hhalf : (2 : ℚ) ^ (q - 1) = 2 * 2 ^ (q - 2) := by
    rw [show q - 1 = q - 2 + 1 by ring, zpow_add_one₀ (by norm_num), mul_comm]
  have hbelow : (n * 10 ^ k : ℚ) ≤ (4 * m : ℕ) * 2 ^ (q - 2) := by
    rw [← (unit_le_iff q k (4 * m) n).2, hn]
    exact Nat.div_mul_le_self _ _
  have habove : ((4 * m : ℕ) * 2 ^ (q - 2) : ℚ) < (n + 1 : ℕ) * 10 ^ k := by
    rw [← not_le, ← (unit_le_iff q k (4 * m) _).2, not_le, hn]
    exact Nat.lt_mul_of_div_lt (Nat.lt_succ_self _) (gridRatio_pos q k)
  rw [Interval.contains_iff]
  refine Interval.holds_of_lt ?_ ?_
  · refine lt_of_le_of_lt (mul_le_mul_of_nonneg_right ?_ hunit.le) habove
    rw [Interval.low_around hm]
    push_cast
    split <;> linarith
  · rw [Interval.high_around]
    push_cast at hbelow ⊢
    linarith

theorem isSome_onGrid? {m : ℕ} {q k : ℤ} (hm : 0 < m) (hk : (10 : ℚ) ^ k < 2 ^ (q - 1)) :
    (onGrid? m q k).isSome = true := by
  have hhit := contains_above hm hk rfl
  unfold onGrid?
  dsimp only
  rw [show (Interval.around m q).middle = 4 * m from rfl, hhit]
  repeat' split
  all_goals first
    | rfl
    | exact absurd rfl ‹_›

/-! ## The search -/

theorem holds_search {m tries j : ℕ} {q k : ℤ} (hj : j < tries)
    (h : (onGrid? m q (k - j)).isSome = true) :
    (Interval.around m q).Holds (2 ^ (q - 2)) (search m q tries k).value := by
  induction tries generalizing j k with
  | zero => omega
  | succ tries ih =>
    unfold search
    split
    · rename_i n hn
      exact holds_of_onGrid? hn
    · rename_i hnone
      cases j with
      | zero =>
        rw [Int.natCast_zero, sub_zero, hnone] at h
        cases h
      | succ j =>
        refine ih (Nat.lt_of_succ_lt_succ hj) ?_
        rwa [Nat.cast_succ, sub_add_eq_sub_sub_swap] at h

/-- The last of the grids is fine enough for any number of the format. -/
theorem finest_grid {m : ℕ} {q : ℤ} (hm : m < 2 ^ 53) (hlow : -1074 ≤ q) (hhigh : q ≤ 971) :
    (10 : ℚ) ^ (coarsestGrid m q - (19 : ℕ)) < 2 ^ (q - 1) := by
  have hlog : m.log2 ≤ 52 := by
    rcases eq_or_ne m 0 with rfl | hne
    · decide
    · exact Nat.lt_succ_iff.mp ((Nat.log2_lt hne).mpr hm)
  unfold coarsestGrid
  rcases le_total ((m.log2 + q + 1) * 30103 / 100000 + 1 - (19 : ℕ)) 0 with hk | hk
  · exact ten_zpow_lt_of_nonpos hk (by omega)
  · exact ten_zpow_lt_of_nonneg hk (by omega)

/-- The shortest decimal for a number of the format is rounded to the number. -/
theorem nearest_shortest {m : ℕ} {q : ℤ} (hm : m < 2 ^ 53) (hlow : -1074 ≤ q) (hhigh : q ≤ 971)
    (hn : 2 ^ 52 ≤ m ∨ q = -1074) : nearest (shortest m q).value = m * 2 ^ q := by
  unfold shortest
  split
  · rename_i hzero
    rw [hzero, Scaled.value, Nat.cast_zero, zero_mul, zero_mul]
    exact nearest_eq_zero le_rfl (by positivity)
  · rename_i hne
    have hpos := Nat.pos_of_ne_zero hne
    have hgrid := isSome_onGrid? hpos (finest_grid hm hlow hhigh)
    exact nearest_of_holds hpos hm hlow hn (holds_search (by norm_num) hgrid)

end FormulaEngine.Decimal
