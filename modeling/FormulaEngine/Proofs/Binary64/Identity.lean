import FormulaEngine.Proofs.Binary64.Infinite
import FormulaEngine.Proofs.Binary64.Order
import FormulaEngine.Proofs.Binary64.Whole

/-! # When two numbers are the same

A number is its bits, and its parts tell all of them: the fields of the bits, and that there is only
one NaN. So numbers with a common value are the same, but for the two zeros, and an operation that
is rounded to the value of its operand gives the operand back. -/

namespace FormulaEngine.Binary64

open Float.Model (UnpackedFloat Format)

/-- All but NaN can be put together from its parts. -/
theorem Parts.ofBits_injective {b b' : ℕ} (hb : b < 2 ^ 64) (hb' : b' < 2 ^ 64)
    (h : ofBits b = ofBits b') (hnan : ofBits b ≠ .nan) : b = b' := by
  have hsign : (b / 0x8000000000000000 % 2 == 1) = (b' / 0x8000000000000000 % 2 == 1) →
      b / 0x8000000000000000 % 2 = b' / 0x8000000000000000 % 2 := by
    have hbit := Nat.mod_two_eq_zero_or_one (b / 0x8000000000000000)
    have hbit' := Nat.mod_two_eq_zero_or_one (b' / 0x8000000000000000)
    rcases hbit with hbit | hbit <;> rcases hbit' with hbit' | hbit' <;> simp [hbit, hbit']
  simp only [ofBits] at h hnan
  repeat' split at h
  all_goals repeat' split at hnan
  all_goals first
    | exact absurd rfl hnan
    | cases h
    | (simp only [infinite.injEq, finite.injEq] at h
       simp only [h, forall_const] at hsign
       omega)

/-- There is one NaN. -/
theorem toBits_of_nan {x : Float} (h : parts x = .nan) :
    x.toBits.toBitVec = UnpackedFloat.packedNaN Format.binary64 := by
  have hunpack : UnpackedFloat.unpack Format.binary64 x.toModel.toBits.toBitVec = .notANumber :=
    unpack_of_nan h
  unfold UnpackedFloat.unpack at hunpack
  dsimp only at hunpack
  repeat' split at hunpack
  all_goals first
    | exact x.toModel.valid.eq_packedNaN ‹_› ‹_›
    | cases hunpack

theorem eq_of_parts {x y : Float} (h : parts x = parts y) : x = y := by
  have hbits : x.toBits.toNat = y.toBits.toNat := by
    rcases eq_or_ne (parts x) .nan with hx | hx
    · exact congrArg BitVec.toNat ((toBits_of_nan hx).trans (toBits_of_nan (h ▸ hx)).symm)
    · exact Parts.ofBits_injective x.toBits.toNat_lt y.toBits.toNat_lt h hx
  obtain ⟨⟨b, hb⟩⟩ := x
  obtain ⟨⟨b', hb'⟩⟩ := y
  obtain rfl : b = b' := UInt64.toNat_inj.mp hbits
  rfl

/-- The magnitude of a number in its normal form tells its digits and its exponent. -/
theorem eq_of_magnitude {m m' : ℕ} {q q' : ℤ} (hm : m < 2 ^ 53) (hm' : m' < 2 ^ 53)
    (hq : -1074 ≤ q) (hq' : -1074 ≤ q') (hn : 2 ^ 52 ≤ m ∨ q = -1074)
    (hn' : 2 ^ 52 ≤ m' ∨ q' = -1074) (h : (m * 2 ^ q : ℚ) = m' * 2 ^ q') : m = m' ∧ q = q' := by
  rcases lt_trichotomy q q' with hlt | rfl | hlt
  · exact absurd h (magnitude_lt hm hq hn' hlt).ne
  · exact ⟨by exact_mod_cast mul_right_cancel₀ (two_zpow_pos q).ne' h, rfl⟩
  · exact absurd h (magnitude_lt hm' hq' hn hlt).ne'

/-- Only the zeros are two numbers with one value. -/
theorem eq_of_value? {x y : Float} {v : ℚ} (hx : value? x = some v) (hy : value? y = some v)
    (hv : v ≠ 0) : x = y := by
  obtain ⟨n, m, q, hparts, rfl⟩ := exists_parts hx
  obtain ⟨n', m', q', hparts', hvalue⟩ := exists_parts hy
  have hpos : ∀ (m : ℕ) (q : ℤ), (0 : ℚ) ≤ m * 2 ^ q := fun m q => by positivity
  have hm := hpos m q
  have hm' := hpos m' q'
  have hsame : n = n' ∧ (m * 2 ^ q : ℚ) = m' * 2 ^ q' := by
    cases n <;> cases n' <;> simp only [if_true, if_false, Bool.false_eq_true] at hvalue hv ⊢
    · exact ⟨trivial, hvalue⟩
    · exact absurd (le_antisymm (by linarith) hm) hv
    · exact absurd (le_antisymm (by linarith) (by linarith)) hv
    · exact ⟨trivial, neg_injective hvalue⟩
  obtain ⟨hlow, -⟩ := Parts.le_exponent hparts
  obtain ⟨hlow', -⟩ := Parts.le_exponent hparts'
  obtain ⟨rfl, rfl⟩ := eq_of_magnitude (Parts.significand_lt hparts) (Parts.significand_lt hparts')
    hlow hlow' (Parts.normal hparts) (Parts.normal hparts') hsame.2
  exact eq_of_parts (by rw [hparts, hparts', hsame.1])

theorem eq_zero_of_parts {x : Float} {negative : Bool} {q : ℤ}
    (h : parts x = .finite negative 0 q) : x = if negative then -0 else 0 := by
  obtain rfl : q = -1074 := (Parts.normal h).resolve_left (by norm_num)
  refine eq_of_parts (h.trans ?_)
  cases negative <;> decide

theorem eq_zero_of_value? {x : Float} (h : value? x = some 0) : x = 0 ∨ x = -0 := by
  obtain ⟨negative, m, q, hparts, hvalue⟩ := exists_parts h
  have hm : (m : ℚ) = 0 := by
    have hpos := two_zpow_pos q
    cases negative <;> simpa [hpos.ne'] using hvalue
  obtain rfl : m = 0 := by exact_mod_cast hm
  have hx := eq_zero_of_parts hparts
  cases negative
  · exact .inl hx
  · exact .inr hx

/-! ## Operations that change nothing -/

/-- Only the number itself is its value rounded, unless it is a zero. -/
theorem eq_of_isRounded {x y : Float} {v : ℚ} (hy : IsRounded y v) (hx : value? x = some v)
    (hv : v ≠ 0) : y = x := by
  rw [IsRounded, nearest_of_representable (representable_of_value? hx),
    if_pos (abs_lt_of_value? hx)] at hy
  exact eq_of_value? hy hx hv

/-- Adding a zero, with or without a sign, changes nothing but a zero with a sign. -/
theorem add_eq_self {x y : Float} {v : ℚ} (hx : value? x = some v) (hy : value? y = some 0)
    (hzero : v = 0 → x = 0) : x + y = x := by
  by_cases hv : v = 0
  · obtain rfl := hzero hv
    rcases eq_zero_of_value? hy with rfl | rfl <;> decide
  · have hsum := isRounded_add hx hy
    rw [add_zero] at hsum
    exact eq_of_isRounded hsum hx hv

/-- An operation changes nothing when it keeps what has no value and both zeros, and is rounded to
the value of its operand otherwise. -/
theorem eq_self_of_isRounded {f : UnpackedFloat → UnpackedFloat} {x y : Float}
    (hy : y = .ofModel (.pack (f x.toModel.unpack))) (hnan : f .notANumber = .notANumber)
    (hinfinity : ∀ s, f (.infinity s) = .infinity s) (hzero : x = 0 ∨ x = -0 → y = x)
    (hvalue : ∀ v, value? x = some v → IsRounded y v) : y = x := by
  rcases parts_cases x with hx | ⟨n, hx⟩ | ⟨v, hx⟩
  · refine eq_of_parts ?_
    rw [hy, unpack_of_nan hx, hnan, parts_notANumber, hx]
  · obtain ⟨s, hs, rfl⟩ := unpack_of_infinite hx
    refine eq_of_parts ?_
    rw [hy, hs, hinfinity, parts_infinity, hx]
  · by_cases hv : v = 0
    · exact hzero (eq_zero_of_value? (hv ▸ hx))
    · exact eq_of_isRounded (hvalue v hx) hx hv

/-- Negative zero is neutral. -/
theorem negZero_add (x : Float) : -0.0 + x = x := by
  refine eq_self_of_isRounded
    (f := UnpackedFloat.add Format.binary64 (-0.0 : Float).toModel.unpack) rfl rfl (fun s => ?_) ?_
    fun v hv => ?_
  · cases s <;> rfl
  · rintro (rfl | rfl) <;> decide
  · have hnone : value? (-0.0) = some 0 := by decide +kernel
    simpa using isRounded_add hnone hv

theorem div_ofNat_one (x : Float) : x / Float.ofNat 1 = x := by
  refine eq_self_of_isRounded
    (f := fun u => UnpackedFloat.div Format.binary64 u (Float.ofNat 1).toModel.unpack) rfl rfl
    (fun s => ?_) ?_ fun v hv => ?_
  · cases s <;> rfl
  · rintro (rfl | rfl) <;> decide
  · have hone : value? (Float.ofNat 1) = some (1 : ℕ) := value?_ofNat (by norm_num)
    simpa using isRounded_div hv hone (by norm_num)

end FormulaEngine.Binary64
