import FormulaEngine.Tolerance
import FormulaEngine.Proofs.Binary64.Power

/-! # The band of nearly equal numbers

The units that a band is made of are reciprocals of powers of ten, each at least four times the next
one, until the powers are too large for the format and nothing is left of the units. A band therefore
lies between two units, and bands get smaller with more decimals, as long as the sums on the decimals
stay inside the signed 32-bit range. Beyond that range the decimals act as negative ones. -/

namespace FormulaEngine

open Binary64

namespace Tolerance

/-! ## Units -/

section

variable {n : ℕ} {v w : ℚ}

/-- What a unit is worth. It is nothing when the power of ten is infinite. -/
def unitValue (n : ℕ) : ℚ := (value? (naturalPower 10 n)).elim 0 fun v => nearest (1 / v)

theorem unitValue_of_value? (hv : value? (naturalPower 10 n) = some v) :
    unitValue n = nearest (1 / v) := by
  rw [unitValue, hv]
  rfl

theorem unitValue_of_le (hn : 309 ≤ n) : unitValue n = 0 := by
  rw [unitValue, value?, parts_naturalPower_ten hn]
  rfl

theorem representable_unitValue (n : ℕ) : Representable (unitValue n) := by
  unfold unitValue
  cases value? (naturalPower 10 n) with
  | none => exact representable_zero
  | some v => exact representable_nearest _

theorem unitValue_mem (n : ℕ) : 0 ≤ unitValue n ∧ unitValue n ≤ 1 := by
  by_cases hn : n ≤ 308
  · obtain ⟨v, hv, hv₁, -, -⟩ := near_naturalPower_ten hn
    rw [unitValue_of_value? hv]
    exact ⟨nearest_nonneg (by positivity),
      representable_one.nearest_le ((div_le_one (by linarith)).mpr hv₁)⟩
  · rw [unitValue_of_le (not_le.mp hn)]
    norm_num

theorem value?_one : value? 1 = some 1 := by
  have hone : value? (Float.ofNat 1) = some ((1 : ℕ) : ℚ) := value?_ofNat (by norm_num)
  rwa [Nat.cast_one] at hone

/-- Between zero and one nothing overflows. -/
theorem value?_of_le_one {x : Float} (h : IsRounded x v) (hv : 0 ≤ v) (hle : v ≤ 1) :
    value? x = some (nearest v) := by
  have hsmall : |v| ≤ 2 ^ 0 := by rwa [abs_of_nonneg hv, pow_zero]
  exact h.value?_eq hsmall (by norm_num)

theorem value?_one_div_naturalPower (n : ℕ) :
    value? (1 / naturalPower 10 n) = some (unitValue n) := by
  by_cases hn : n ≤ 308
  · obtain ⟨v, hv, hv₁, -, -⟩ := near_naturalPower_ten hn
    rw [unitValue_of_value? hv]
    exact value?_of_le_one (isRounded_div value?_one hv (by linarith)) (by positivity)
      ((div_le_one (by linarith)).mpr hv₁)
  · rw [unitValue_of_le (not_le.mp hn)]
    exact value?_div_of_infinite value?_one (parts_naturalPower_ten (not_le.mp hn))

theorem naturalPower_zero : naturalPower 10 0 = 1 := by
  unfold naturalPower powerInto
  rfl

theorem value?_unit {p : Int32} (hp : p.toInt = n) : value? (unit p) = some (unitValue n) := by
  have hlt := p.toInt_lt
  have hneg : (-p).toInt = -(n : ℤ) := by
    rw [Int32.toInt_neg, hp, Int.bmod_eq_of_le] <;> omega
  unfold unit integerPower
  rw [hneg, Int.natAbs_neg, Int.natAbs_natCast]
  split
  · exact value?_one_div_naturalPower n
  · obtain rfl : n = 0 := by omega
    have hone : value? (naturalPower 10 0) = some 1 := by
      rw [naturalPower_zero]
      exact value?_one
    rw [hone, unitValue_of_value? hone, div_one,
      nearest_of_representable representable_one]

/-- A power of two lies between the reciprocals. -/
theorem four_mul_nearest_le (hv : 0 < v) (hvw : 8 * v ≤ w) (hw : w < 2 ^ 1024) :
    4 * nearest (1 / w) ≤ nearest (1 / v) := by
  have hwpos : 0 < w := by linarith
  generalize he : Int.log 2 (1 / w) + 1 = e
  have hbelow : 1 / w < 2 ^ e := he ▸ Int.lt_zpow_succ_log_self (by norm_num) _
  have habove : (2 : ℚ) ^ e ≤ 1 / w * 2 := by
    rw [← he, zpow_add_one₀ (by norm_num)]
    have := Int.zpow_log_le_self (b := 2) (by norm_num) (one_div_pos.mpr hwpos)
    exact mul_le_mul_of_nonneg_right (by exact_mod_cast this) (by norm_num)
  have hlow : -1074 ≤ e := by
    have hlarge : (2 : ℚ) ^ (-1024 : ℤ) < 1 / w := by
      rw [zpow_neg, ← one_div]
      exact one_div_lt_one_div_of_lt hwpos (by exact_mod_cast hw)
    have := (zpow_lt_zpow_iff_right₀ (by norm_num)).mp (hlarge.trans hbelow)
    omega
  have hfour : 4 * (2 : ℚ) ^ e = 2 ^ (e + 2) := by
    rw [zpow_add₀ (by norm_num)]
    ring
  calc 4 * nearest (1 / w) ≤ 4 * 2 ^ e := by
        have := (representable_two_zpow hlow).nearest_le hbelow.le
        linarith
    _ = 2 ^ (e + 2) := hfour
    _ ≤ nearest (1 / v) := by
      refine (representable_two_zpow (by omega)).le_nearest ?_
      have hquotient : 8 * (1 / w) ≤ 1 / v := by
        rw [mul_one_div, div_le_div_iff₀ hwpos hv]
        linarith
      linarith

/-- Each unit is worth at least four times the next one. -/
theorem four_mul_unitValue_le (n : ℕ) : 4 * unitValue (n + 1) ≤ unitValue n := by
  by_cases hn : n + 1 ≤ 308
  · obtain ⟨v, hv, hv₁, hupper, -⟩ := near_naturalPower_ten (n := n) (by omega)
    obtain ⟨w, hw, hw₁, -, hlower⟩ := near_naturalPower_ten hn
    have hslack := slack_pos.le
    have hratio : 8 * v * slack ^ (n + 1) ≤ w * slack ^ (n + 1) := by
      calc 8 * v * slack ^ (n + 1) ≤ 8 * (10 ^ n * slack ^ n) * slack ^ (n + 1) := by gcongr
        _ = 10 ^ n * (8 * slack ^ (n + (n + 1))) := by ring
        _ ≤ 10 ^ n * 10 := by
          have := slack_pow_le (n := n + (n + 1)) (by omega)
          gcongr
          linarith
        _ = 10 ^ (n + 1) := (pow_succ _ _).symm
        _ ≤ w * slack ^ (n + 1) := hlower
    rw [unitValue_of_value? hv, unitValue_of_value? hw]
    exact four_mul_nearest_le (by linarith)
      (le_of_mul_le_mul_right hratio (pow_pos slack_pos (n + 1)))
      ((le_abs_self w).trans_lt (abs_lt_of_value? hw))
  · rw [unitValue_of_le (not_le.mp hn), mul_zero]
    exact (unitValue_mem n).1

/-! ## Bands -/

/-- What the band of so many decimals is worth, rounded after each difference. -/
def bandValue (n : ℕ) : ℚ := nearest (nearest (unitValue n - unitValue (n + 1)) - unitValue (n + 2))

theorem nearest_sub_le (n : ℕ) : nearest (unitValue n - unitValue (n + 1)) ≤ unitValue n :=
  (representable_unitValue n).nearest_le (by linarith [(unitValue_mem (n + 1)).1])

theorem le_nearest_sub (n : ℕ) :
    2 * unitValue (n + 1) ≤ nearest (unitValue n - unitValue (n + 1)) :=
  (representable_unitValue (n + 1)).two_mul.le_nearest
    (by linarith [four_mul_unitValue_le n, (unitValue_mem (n + 1)).1])

theorem bandValue_le_unitValue (n : ℕ) : bandValue n ≤ unitValue n :=
  (representable_unitValue n).nearest_le
    (by linarith [nearest_sub_le n, (unitValue_mem (n + 2)).1])

theorem unitValue_succ_le_bandValue (n : ℕ) : unitValue (n + 1) ≤ bandValue n :=
  (representable_unitValue (n + 1)).le_nearest
    (by linarith [le_nearest_sub n, four_mul_unitValue_le (n + 1), (unitValue_mem (n + 2)).1])

/-- With more decimals bands get smaller. -/
theorem bandValue_antitone : Antitone bandValue :=
  antitone_nat_of_succ_le fun n =>
    (bandValue_le_unitValue (n + 1)).trans (unitValue_succ_le_bandValue n)

theorem bandValue_nonneg (n : ℕ) : 0 ≤ bandValue n :=
  (unitValue_mem (n + 1)).1.trans (unitValue_succ_le_bandValue n)

end

/-- No sum on the decimals leaves the signed 32-bit range: each is what it is among the
integers. -/
def NoOverflow (t : Tolerance) : Prop :=
  let p := t.decimals.toInt32
  (-p).toInt = -p.toInt ∧
    (p + 1).toInt = p.toInt + 1 ∧ (-(p + 1)).toInt = -(p + 1).toInt ∧
    (p + 2).toInt = p.toInt + 2 ∧ (-(p + 2)).toInt = -(p + 2).toInt

section

variable {t : Tolerance}

/-- The upper half of the unsigned numbers is taken as negative. -/
theorem toInt_toInt32 (d : UInt32) :
    d.toInt32.toInt = if d.toNat < 2 ^ 31 then (d.toNat : ℤ) else d.toNat - 2 ^ 32 := by
  have hto : d.toInt32.toInt = (d.toNat : ℤ).bmod (2 ^ 32) := BitVec.toInt_eq_toNat_bmod _
  have hlt := d.toNat_lt
  rw [hto]
  split
  · rw [Int.bmod_eq_of_le] <;> omega
  · rw [← Int.sub_bmod_right, Int.bmod_eq_of_le] <;> push_cast <;> omega

theorem bmod_eq_self_iff {n : ℤ} : n.bmod (2 ^ 32) = n ↔ -2 ^ 31 ≤ n ∧ n < 2 ^ 31 := by
  refine ⟨fun h => ?_, fun h => Int.bmod_eq_of_le ?_ ?_⟩
  · have hlow := Int.le_bmod (x := n) (m := 2 ^ 32) (by norm_num)
    have hhigh := Int.bmod_lt (x := n) (m := 2 ^ 32) (by norm_num)
    omega
  · omega
  · omega

/-- Only the decimals around the end of the signed range overflow. -/
theorem noOverflow_iff :
    t.NoOverflow ↔ t.decimals.toNat < 2147483646 ∨ 2147483648 < t.decimals.toNat := by
  have hp := toInt_toInt32 t.decimals
  have hlt := t.decimals.toNat_lt
  have hone : (1 : Int32).toInt = 1 := rfl
  have htwo : (2 : Int32).toInt = 2 := rfl
  simp only [NoOverflow, Int32.toInt_neg, Int32.toInt_add, hone, htwo]
  generalize t.decimals.toInt32.toInt = p at *
  generalize t.decimals.toNat = d at *
  simp only [bmod_eq_self_iff]
  constructor
  · rintro ⟨hneg, hplus, -, hplus', -⟩
    split at hp <;> omega
  · intro hd
    have hplus : (p + 1).bmod (2 ^ 32) = p + 1 := bmod_eq_self_iff.mpr (by split at hp <;> omega)
    have hplus' : (p + 2).bmod (2 ^ 32) = p + 2 := bmod_eq_self_iff.mpr (by split at hp <;> omega)
    rw [hplus, hplus']
    split at hp <;> omega

/-- Sums on the decimals stay what they are. -/
theorem NoOverflow.toInt_eq (h : t.NoOverflow) (hd : t.decimals.toNat < 2147483646) :
    t.decimals.toInt32.toInt = t.decimals.toNat ∧
    (t.decimals.toInt32 + 1).toInt = (t.decimals.toNat + 1 : ℕ) ∧
    (t.decimals.toInt32 + 2).toInt = (t.decimals.toNat + 2 : ℕ) := by
  have hp := toInt_toInt32 t.decimals
  rw [if_pos (by omega)] at hp
  obtain ⟨-, hone, -, htwo, -⟩ := h
  rw [hone, htwo, hp]
  exact ⟨rfl, rfl, rfl⟩

theorem value?_band (h : t.decimals.toNat < 2147483646) :
    value? t.band = some (bandValue t.decimals.toNat) := by
  generalize hn : t.decimals.toNat = n
  obtain ⟨hzero, hone, htwo⟩ := (noOverflow_iff.mpr (.inl h)).toInt_eq h
  rw [hn] at hzero hone htwo
  have hle := nearest_sub_le n
  have hge := le_nearest_sub n
  have hfirst := unitValue_mem n
  have hsecond := unitValue_mem (n + 1)
  have hlast := unitValue_mem (n + 2)
  have hratio := four_mul_unitValue_le n
  have hratio' := four_mul_unitValue_le (n + 1)
  have hdifference := value?_of_le_one (isRounded_sub (value?_unit hzero) (value?_unit hone))
    (by linarith) (by linarith)
  exact value?_of_le_one (isRounded_sub hdifference (value?_unit htwo)) (by linarith) (by linarith)

/-- The band of up to 300 decimals is a number, and not negative. -/
theorem exists_band (ht : t.decimals.toNat ≤ 300) : ∃ β, value? t.band = some β ∧ 0 ≤ β :=
  ⟨_, value?_band (by omega), bandValue_nonneg _⟩

end

/-! ## Nearly equal numbers -/

section

variable {t : Tolerance} {x y : Float} {v w β : ℚ}

/-- Numbers with values are nearly equal when their rounded difference is inside the band. -/
theorem equal_iff (hβ : value? t.band = some β) (hx : value? x = some v) (hy : value? y = some w) :
    t.equal x y = true ↔ |nearest (v - w)| ≤ β := by
  have hdifference := isRounded_sub hx hy
  have hβlt : |β| < 2 ^ 1024 := abs_lt_of_value? hβ
  have hequal : t.equal x y = true ↔ (x - y).abs ≤ t.band := decide_eq_true_iff
  rw [hequal]
  unfold IsRounded at hdifference
  split at hdifference
  · exact le_iff (value?_abs hdifference) hβ
  · rename_i hlarge
    have hnot := not_le_of_infinite (parts_abs_of_infinite hdifference) hβ
    have hlt := lt_of_le_of_lt (le_abs_self β) hβlt
    exact iff_of_false hnot fun hle => hlarge (hle.trans_lt hlt)

theorem exists_value? (hx : isFinite x = true) : ∃ v, value? x = some v := by
  unfold isFinite at hx
  rcases parts_cases x with h | ⟨n, h⟩ | h
  · rw [h] at hx
    cases hx
  · rw [h] at hx
    cases hx
  · exact h

theorem equal_self (ht : t.decimals.toNat < 2147483646) (hx : isFinite x = true) :
    t.equal x x = true := by
  obtain ⟨v, hv⟩ := exists_value? hx
  rw [equal_iff (value?_band ht) hv hv, sub_self, nearest_zero, abs_zero]
  exact bandValue_nonneg _

/-- Numbers that are nearly equal stay so when fewer decimals are looked at, and numbers are nearly
equal to themselves. No sum on the decimals overflows. -/
theorem equal_of_more_decimals {p q : UInt32} (hpq : p ≤ q) (hq : q.toNat < 2147483646)
    (hx : isFinite x = true) (hy : isFinite y = true) :
    (equal ⟨q⟩ x y = true → equal ⟨p⟩ x y = true) ∧ equal ⟨q⟩ x x = true ∧ NoOverflow ⟨q⟩ := by
  obtain ⟨v, hv⟩ := exists_value? hx
  obtain ⟨w, hw⟩ := exists_value? hy
  have hle : p.toNat ≤ q.toNat := UInt32.le_iff_toNat_le.mp hpq
  refine ⟨fun h => ?_, equal_self hq hx, noOverflow_iff.mpr (.inl hq)⟩
  rw [equal_iff (value?_band hq) hv hw] at h
  rw [equal_iff (value?_band (hle.trans_lt hq)) hv hw]
  exact h.trans (bandValue_antitone hle)

/-- Zero and a number below a thousandth. -/
theorem equal_of_more_decimals_three :
    Tolerance.equal ⟨2⟩ 0 (1 / 2048) = true ∧ Tolerance.equal ⟨3⟩ 0 0 = true ∧ NoOverflow ⟨3⟩ := by
  have hfinite : isFinite 0 = true ∧ isFinite (1 / 2048) = true := by decide +kernel
  have hmore : Tolerance.equal ⟨3⟩ 0 (1 / 2048) = true := by decide +kernel
  obtain ⟨hfewer, hself, hoverflow⟩ := equal_of_more_decimals (p := 2) (q := 3) (by decide)
    (by decide) hfinite.1 hfinite.2
  exact ⟨hfewer hmore, hself, hoverflow⟩

/-- With a negative number of decimals zero and one are nearly equal, though they are not with five;
units that are infinite leave zero unequal to itself; and sums overflow at the end of the range. -/
theorem exists_wrapped_decimals :
    ((5 : UInt32) ≤ 4294967295 ∧ Tolerance.equal ⟨4294967295⟩ 0 1 = true ∧
      Tolerance.equal ⟨5⟩ 0 1 = false) ∧
    Tolerance.equal ⟨3000000000⟩ 0 0 = false ∧ ¬ NoOverflow ⟨2147483647⟩ := by
  refine ⟨by decide +kernel, by decide +kernel, ?_⟩
  rw [noOverflow_iff]
  decide

end

end Tolerance

end FormulaEngine
