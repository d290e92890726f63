import FormulaEngine.Binary64.Power
import FormulaEngine.Proofs.Binary64.Infinite

/-! # Accuracy of whole powers

Every product of a repeated squaring may be off by half a digit, and the squares double what they
are off by. Altogether a power is off by as many factors as its exponent says. A power that is too
large for the format is infinite. -/

namespace FormulaEngine.Binary64

/-- Away from the smallest numbers rounding changes a number by no more than half its last digit of
53. -/
theorem abs_nearest_sub_le_mul {v : ℚ} (h : (2 : ℚ) ^ (-1022 : ℤ) ≤ |v|) :
    |nearest v - v| ≤ |v| / 2 ^ 53 := by
  have herror := abs_nearest_sub_le v
  have hdigits : (2 : ℚ) ^ (lastExponent v + 52) ≤ |v| := by
    rcases eq_or_ne (lastExponent v) (-1074) with hlast | hlast
    · rwa [hlast]
    · exact le_abs_of_lastExponent hlast
  rw [zpow_add₀ (by norm_num)] at hdigits
  norm_num at hdigits ⊢
  linarith

/-- A factor that makes up for rounding once. -/
def slack : ℚ := 1 + 1 / 2 ^ 52

theorem one_lt_slack : 1 < slack := by norm_num [slack]

theorem slack_pos : 0 < slack := one_pos.trans one_lt_slack

theorem one_le_slack_pow (n : ℕ) : 1 ≤ slack ^ n := one_le_pow₀ one_lt_slack.le

/-- Many roundings change a number by less than a quarter. -/
theorem slack_pow_le {n : ℕ} (h : n ≤ 1024) : slack ^ n ≤ 5 / 4 := by
  have hroot : slack ^ 128 ≤ 1001 / 1000 := by norm_num [slack]
  calc slack ^ n ≤ slack ^ 1024 := pow_le_pow_right₀ one_lt_slack.le h
    _ = (slack ^ 128) ^ 8 := by rw [← pow_mul]
    _ ≤ (1001 / 1000) ^ 8 := pow_le_pow_left₀ (pow_nonneg slack_pos.le _) hroot _
    _ ≤ 5 / 4 := by norm_num

/-- A rounded number and the exact one are off by a rounding in either direction. -/
theorem nearest_slack {v : ℚ} (h : (2 : ℚ) ^ (-1022 : ℤ) ≤ v) :
    nearest v ≤ v * slack ∧ v ≤ nearest v * slack := by
  have hv : 0 < v := (two_zpow_pos _).trans_le h
  have herror := abs_nearest_sub_le_mul (v := v) (by rwa [abs_of_pos hv])
  rw [abs_of_pos hv, abs_le] at herror
  unfold slack
  constructor
  · linarith
  · nlinarith

/-- The number has a value of at least one, which `k` roundings may separate from `q`. -/
def Near (k : ℕ) (x : Float) (q : ℚ) : Prop :=
  ∃ v, value? x = some v ∧ 1 ≤ v ∧ v ≤ q * slack ^ k ∧ q ≤ v * slack ^ k

theorem near_of_value? {x : Float} {v : ℚ} (h : value? x = some v) (hv : 1 ≤ v) : Near 0 x v :=
  ⟨v, h, hv, by simp, by simp⟩

/-- The number is near `q`, or infinite because `q` is about too large for the format. -/
def Reaches (k : ℕ) (x : Float) (q : ℚ) : Prop :=
  Near k x q ∨ parts x = .infinite false ∧ 2 ^ 1024 ≤ q * slack ^ k

section

variable {i j k n : ℕ} {x y result base : Float} {q r : ℚ}

theorem Reaches.positive (h : Reaches k x q) : Positive x := by
  rcases h with ⟨v, hv, hv₁, -, -⟩ | ⟨h, -⟩
  · exact .inr ⟨v, hv, one_pos.trans_le hv₁⟩
  · exact .inl h

/-- A product is off by what its factors are off by, and one rounding more. -/
theorem Near.mul (hx : Near i x q) (hy : Near j y r) (hq : 0 ≤ q) :
    Reaches (i + j + 1) (x * y) (q * r) := by
  obtain ⟨v, hv, hv₁, hvq, hqv⟩ := hx
  obtain ⟨w, hw, hw₁, hwr, hrw⟩ := hy
  have hone : 1 ≤ v * w := one_le_mul_of_one_le_of_one_le hv₁ hw₁
  have hnormal : (2 : ℚ) ^ (-1022 : ℤ) ≤ v * w :=
    (zpow_le_one_of_nonpos₀ (by norm_num) (by norm_num)).trans hone
  have hi := (one_le_slack_pow i).trans' zero_le_one
  have hj := (one_le_slack_pow j).trans' zero_le_one
  have hupper : nearest (v * w) ≤ q * r * slack ^ (i + j + 1) := by
    calc nearest (v * w) ≤ v * w * slack := (nearest_slack hnormal).1
      _ ≤ q * slack ^ i * (r * slack ^ j) * slack := by
        have hslack := slack_pos.le
        gcongr
      _ = q * r * slack ^ (i + j + 1) := by ring
  have hlower : q * r ≤ nearest (v * w) * slack ^ (i + j + 1) := by
    have hr : 0 ≤ w * slack ^ j := by positivity
    calc q * r ≤ v * slack ^ i * (w * slack ^ j) := by
          rcases le_total 0 r with h | h
          · exact mul_le_mul hqv hrw h (by positivity)
          · exact (mul_nonpos_of_nonneg_of_nonpos hq h).trans (by positivity)
      _ = v * w * (slack ^ i * slack ^ j) := by ring
      _ ≤ nearest (v * w) * slack * (slack ^ i * slack ^ j) := by
        have := (nearest_slack hnormal).2
        gcongr
      _ = nearest (v * w) * slack ^ (i + j + 1) := by ring
  have hbelow : 1 ≤ nearest (v * w) := representable_one.le_nearest hone
  have hrounded := isRounded_mul hv hw
  unfold IsRounded at hrounded
  rw [abs_of_nonneg (zero_le_one.trans hbelow)] at hrounded
  split at hrounded
  · exact .inl ⟨_, hrounded, hbelow, hupper, hlower⟩
  · rename_i hlarge
    rw [decide_eq_false (by linarith)] at hrounded
    exact .inr ⟨hrounded, (not_lt.mp hlarge).trans hupper⟩

/-- A factor of at least one, and more roundings, leave what is too large too large. -/
theorem le_mul_slack_pow {b : ℚ} (hb : 0 ≤ b) (h : b ≤ q * slack ^ i) (hr : 1 ≤ r) (hik : i ≤ k) :
    b ≤ q * r * slack ^ k := by
  have hq : 0 ≤ q := nonneg_of_mul_nonneg_left (hb.trans h) (pow_pos slack_pos i)
  have hslack := slack_pos.le
  calc b ≤ q * 1 * slack ^ i := by rwa [mul_one]
    _ ≤ q * r * slack ^ k := by
      have := pow_le_pow_right₀ one_lt_slack.le hik
      gcongr

theorem Reaches.mul (hx : Reaches i x q) (hy : Reaches j y r) (hq : 1 ≤ q) (hr : 1 ≤ r) :
    Reaches (i + j + 1) (x * y) (q * r) := by
  have infinite (h : parts x = .infinite false ∨ parts y = .infinite false) :=
    parts_mul_of_infinite hx.positive hy.positive h
  rcases hx with hx | ⟨hx, hlarge⟩
  · rcases hy with hy | ⟨hy, hlarge⟩
    · exact hx.mul hy (by linarith)
    · refine .inr ⟨infinite (.inr hy), ?_⟩
      rw [mul_comm q]
      exact le_mul_slack_pow (by positivity) hlarge hq (by omega)
  · exact .inr ⟨infinite (.inl hx), le_mul_slack_pow (by positivity) hlarge hr (by omega)⟩

/-- Squaring doubles the error, so an exponent counts the roundings of its power. -/
theorem reaches_powerInto (hresult : Reaches i result q) (hbase : Reaches j base r) (hq : 1 ≤ q)
    (hr : 1 ≤ r) : Reaches (i + (j + 1) * n) (powerInto result base n) (q * r ^ n) := by
  induction n using Nat.strong_induction_on generalizing i j result base q r with
  | _ n ih =>
    obtain ⟨d, h, hd, rfl⟩ : ∃ d h, d < 2 ∧ n = 2 * h + d := ⟨n % 2, n / 2, by omega, by omega⟩
    have hdigit : (2 * h + d) % 2 = d := by omega
    have hrest : (2 * h + d) / 2 = h := by omega
    unfold powerInto
    rw [hdigit, hrest]
    -- what the last binary digit of the exponent adds
    obtain ⟨x, hx, hreaches⟩ : ∃ x, (if d = 1 then result * base else result) = x ∧
        Reaches (i + (j + 1) * d) x (q * r ^ d) := by
      refine ⟨_, rfl, ?_⟩
      interval_cases d
      · simpa using hresult
      · simpa [Nat.add_assoc] using hresult.mul hbase hq hr
    simp only [hx]
    split
    · rename_i hzero
      simpa [hzero] using hreaches
    · rename_i hpos
      have hexponent : i + (j + 1) * d + (j + j + 1 + 1) * h = i + (j + 1) * (2 * h + d) := by ring
      have hpower : q * r ^ d * (r * r) ^ h = q * r ^ (2 * h + d) := by ring
      have hlater := ih h (by omega) hreaches (hbase.mul hbase hr hr)
        (one_le_mul_of_one_le_of_one_le hq (one_le_pow₀ hr))
        (one_le_mul_of_one_le_of_one_le hr hr)
      rwa [hexponent, hpower] at hlater

end

/-! ## Powers of ten -/

theorem reaches_naturalPower_ten (n : ℕ) : Reaches n (naturalPower 10 n) (10 ^ n) := by
  have hone : Near 0 1 1 := near_of_value? (value?_ofNat (n := 1) (by norm_num)) (by norm_num)
  have hten : Near 0 10 10 := near_of_value? (value?_ofNat (n := 10) (by norm_num)) (by norm_num)
  have hpower := reaches_powerInto (n := n) (.inl hone) (.inl hten) le_rfl (by norm_num)
  rwa [zero_add, zero_add, one_mul, one_mul] at hpower

/-- The powers of ten that the format has room for. -/
theorem near_naturalPower_ten {n : ℕ} (hn : n ≤ 308) : Near n (naturalPower 10 n) (10 ^ n) := by
  have hbase : 1 ≤ 10 * slack := by linarith [one_lt_slack]
  have hroot : (10 * slack) ^ 154 < ((2 : ℚ) ^ 128) ^ 4 := by norm_num [slack]
  have hsmall : (10 : ℚ) ^ n * slack ^ n < 2 ^ 1024 := by
    calc (10 : ℚ) ^ n * slack ^ n = (10 * slack) ^ n := (mul_pow _ _ _).symm
      _ ≤ (10 * slack) ^ 308 := pow_le_pow_right₀ hbase hn
      _ = ((10 * slack) ^ 154) ^ 2 := by rw [← pow_mul]
      _ < (((2 : ℚ) ^ 128) ^ 4) ^ 2 := by
        have := slack_pos.le
        gcongr
      _ = 2 ^ 1024 := by rw [← pow_mul, ← pow_mul]
  exact (reaches_naturalPower_ten n).resolve_right fun h => hsmall.not_ge h.2

/-- The powers of ten beyond these. -/
theorem parts_naturalPower_ten {n : ℕ} (hn : 309 ≤ n) :
    parts (naturalPower 10 n) = .infinite false := by
  refine ((reaches_naturalPower_ten n).resolve_left ?_).1
  rintro ⟨v, hv, hv₁, -, hlower⟩
  have hlarge : (2 : ℚ) ^ 1025 ≤ 10 ^ 309 := by
    exact_mod_cast (by decide +kernel : 2 ^ 1025 ≤ 10 ^ 309)
  obtain ⟨m, rfl⟩ := Nat.exists_eq_add_of_le hn
  have hm : slack ^ m ≤ 10 ^ m := by
    have := slack_pos.le
    gcongr
    norm_num [slack]
  have hbound : (10 : ℚ) ^ 309 * slack ^ m ≤ v * 2 * slack ^ m := by
    calc (10 : ℚ) ^ 309 * slack ^ m ≤ 10 ^ 309 * 10 ^ m := by gcongr
      _ = 10 ^ (309 + m) := (pow_add _ _ _).symm
      _ ≤ v * slack ^ (309 + m) := hlower
      _ = v * slack ^ 309 * slack ^ m := by rw [pow_add, mul_assoc]
      _ ≤ v * 2 * slack ^ m := by
        have := slack_pos.le
        have : slack ^ 309 ≤ 2 := (slack_pow_le (by norm_num)).trans (by norm_num)
        gcongr
  have hvalue := le_of_mul_le_mul_right hbound (pow_pos slack_pos m)
  have hlt := (le_abs_self v).trans_lt (abs_lt_of_value? hv)
  rw [pow_succ] at hlarge
  exact not_lt.mpr (hlarge.trans hvalue) (mul_lt_mul_of_pos_right hlt two_pos)

end FormulaEngine.Binary64
