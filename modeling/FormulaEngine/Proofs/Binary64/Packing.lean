import FormulaEngine.Binary64.Parts
import FormulaEngine.Proofs.Binary64.Unpacked

/-! # The values of numbers

A finite number has a rational value. It is read off the same parts whether a number is taken apart
by its bits or unpacked for a computation, and packing the canonical form of a magnitude gives a
number with that value, or an infinity where the magnitude is too large. -/

namespace FormulaEngine.Binary64

open Float.Model (UnpackedFloat Format)
open Float.Model.UnpackedFloat (Sign unpackMantissa unpackExponent unpackSign packComponents)

/-- The value of a finite number that is taken apart. -/
def Parts.value? : Parts → Option ℚ
  | finite negative m q => some (if negative then -(m * 2 ^ q) else m * 2 ^ q)
  | _ => none

/-- The value of a finite number. -/
def value? (x : Float) : Option ℚ := (parts x).value?

def isNegative : Sign → Bool
  | .negative => true
  | .positive => false

/-- The parts of an unpacked number. -/
def partsOf : UnpackedFloat → Parts
  | .notANumber => .nan
  | .infinity s => .infinite (isNegative s)
  | .zero s => .finite (isNegative s) 0 (-1074)
  | .finite s m e _ => .finite (isNegative s) m e

/-! ## Fields -/

section

variable (b : BitVec 64)

theorem toNat_unpackMantissa :
    (@unpackMantissa Format.binary64 b).toNat = b.toNat % 0x10000000000000 := by
  simp [unpackMantissa]

theorem toNat_unpackExponent :
    (@unpackExponent Format.binary64 b).toNat = b.toNat / 0x10000000000000 % 2048 := by
  simp [unpackExponent, Nat.shiftRight_eq_div_pow]

theorem toNat_unpackSign :
    (@unpackSign Format.binary64 b).toNat = b.toNat / 0x8000000000000000 % 2 := by
  simp [unpackSign, Nat.shiftRight_eq_div_pow]

theorem isNegative_unpackSign :
    isNegative (.ofBitVec (@unpackSign Format.binary64 b)) =
      (b.toNat / 0x8000000000000000 % 2 == 1) := by
  rw [← toNat_unpackSign]
  generalize @unpackSign Format.binary64 b = s
  revert s
  decide

theorem exponentBias_eq : Format.binary64.exponentBias = 1023 := rfl

theorem mantissaBits_eq : Format.binary64.mantissaBits = 53 := rfl

/-- The implicit digit of a normal number. -/
theorem toNat_one_append (k : BitVec 52) : (1#1 ++ k).toNat = k.toNat + 0x10000000000000 := by
  have hk := k.isLt
  rw [BitVec.toNat_append, ← Nat.shiftLeft_add_eq_or_of_lt hk]
  simp [Nat.shiftLeft_eq]
  omega

/-- Taking a number apart by its bits and unpacking it say the same. -/
theorem ofBits_eq_partsOf_unpack :
    Parts.ofBits b.toNat = partsOf (UnpackedFloat.unpack Format.binary64 b) := by
  have hm := toNat_unpackMantissa b
  have he := toNat_unpackExponent b
  have hs := isNegative_unpackSign b
  have hexponent : ∀ k : BitVec 11, (k = -1#_ ↔ k.toNat = 2047) ∧ (k = 0#_ ↔ k.toNat = 0) := by
    intro k
    constructor <;> exact BitVec.toNat_inj.symm
  have hmantissa : ∀ k : BitVec 52, k = 0#_ ↔ k.toNat = 0 := fun k => BitVec.toNat_inj.symm
  unfold Parts.ofBits UnpackedFloat.unpack
  simp only [(hexponent _).1, (hexponent _).2, hmantissa, he, hm, ← hs]
  split
  · split <;> rfl
  · split
    · split
      · rename_i hzero
        simp [partsOf, hzero]
      · rename_i hexponent _
        simp only [partsOf, hexponent]
        rfl
    · simp only [partsOf, toNat_one_append, hm]
      rfl

end

/-! ## Packing and unpacking -/

/-- What is packed with a high exponent is too large. -/
theorem exponent_le_iff {m : ℕ} {e : ℤ} (hm : m < 2 ^ 53) (hnormal : 2 ^ 52 ≤ m ∨ e = -1074) :
    (m * 2 ^ e : ℚ) < 2 ^ 1024 ↔ e ≤ 971 := by
  have hpos := two_zpow_pos e
  have hsplit : (2 : ℚ) ^ 1024 = 2 ^ (53 : ℕ) * 2 ^ (971 : ℤ) := by
    rw [← zpow_natCast, ← zpow_natCast, ← zpow_add₀ (by norm_num)]
    norm_num
  rw [hsplit]
  constructor
  · intro hlt
    by_contra he
    have hlow : (2 : ℚ) ^ (52 : ℕ) ≤ m := by exact_mod_cast hnormal.resolve_right (by omega)
    have hmono : (2 : ℚ) ^ (971 + 1 : ℤ) ≤ 2 ^ e := zpow_le_zpow_right₀ (by norm_num) (by omega)
    rw [zpow_add₀ (by norm_num), zpow_one] at hmono
    have hprod : (2 : ℚ) ^ (52 : ℕ) * 2 ^ e ≤ m * 2 ^ e := mul_le_mul_of_nonneg_right hlow hpos.le
    have htwo : (2 : ℚ) ^ (53 : ℕ) = 2 ^ (52 : ℕ) * 2 := by norm_num
    rw [htwo] at hlt
    have hcarry := mul_le_mul_of_nonneg_left hmono (by positivity : (0 : ℚ) ≤ 2 ^ (52 : ℕ))
    linarith
  · intro he
    have hhigh : (m : ℚ) < 2 ^ (53 : ℕ) := by exact_mod_cast hm
    have hmono : (2 : ℚ) ^ e ≤ 2 ^ (971 : ℤ) := zpow_le_zpow_right₀ (by norm_num) he
    exact mul_lt_mul hhigh hmono hpos (by positivity)

/-- The fields of a normal number. -/
theorem pack_normal (s : Sign) {m : ℕ} {e : ℤ} (hpos : 0 < m) (hm : m < 2 ^ 53)
    (hnormal : 2 ^ 52 ≤ m) (he : e ≤ 971) :
    UnpackedFloat.pack Format.binary64 (.finite s m e hpos) =
      packComponents Format.binary64 s (.ofNat 11 (e + 1075).toNat) (.ofNat 52 m) := by
  have hlog : m.log2 = 52 := (Nat.log2_eq_iff hpos.ne').mpr ⟨hnormal, hm⟩
  have hbiased : (e + Format.binary64.exponentBias + (52 : ℕ)).toNat = (e + 1075).toNat := by
    rw [exponentBias_eq]
    omega
  unfold UnpackedFloat.pack
  have hsmall : ¬ 2 ^ 11 ≤ (e + 1075).toNat + 1 := by omega
  rw [hbiased, hlog, if_neg hsmall, mantissaBits_eq, if_pos rfl]

/-- The fields of a number with fewer digits. -/
theorem pack_subnormal (s : Sign) {m : ℕ} (hpos : 0 < m) (hm : m < 2 ^ 52) :
    UnpackedFloat.pack Format.binary64 (.finite s m (-1074) hpos) =
      packComponents Format.binary64 s 0#11 (.ofNat 52 m) := by
  have hlog : m.log2 < 52 := (Nat.log2_lt hpos.ne').mpr hm
  unfold UnpackedFloat.pack
  rw [if_neg (by decide), mantissaBits_eq, if_neg (by omega)]

/-- Packing a canonical number loses nothing, as long as it is small enough. -/
theorem unpack_pack {s : Sign} {v : ℚ} {u : UnpackedFloat} (h : Canonical s v u)
    (hv : v < 2 ^ 1024) :
    UnpackedFloat.unpack Format.binary64 (UnpackedFloat.pack Format.binary64 u) = u := by
  cases h with
  | zero =>
    rw [UnpackedFloat.pack, UnpackedFloat.unpack_packedZero]
  | @finite m e hpos hm he hnormal hvalue =>
    rw [hvalue, exponent_le_iff hm hnormal] at hv
    rcases lt_or_ge m (2 ^ 52) with hlt | hge
    · obtain rfl := hnormal.resolve_left (by omega)
      have hfield : BitVec.ofNat 52 m ≠ 0#52 := by
        rw [Ne, ← BitVec.toNat_inj, BitVec.toNat_ofNat, Nat.mod_eq_of_lt hlt]
        exact hpos.ne'
      rw [pack_subnormal s hpos hlt, UnpackedFloat.unpack]
      simp only [UnpackedFloat.unpackMantissa_packComponents,
        UnpackedFloat.unpackExponent_packComponents, UnpackedFloat.unpackSign_packComponents,
        Sign.ofBitVec_toBitVec]
      rw [if_neg (by decide), if_pos trivial, dif_neg hfield]
      simp only [UnpackedFloat.finite.injEq, true_and]
      exact ⟨(BitVec.toNat_ofNat _ _).trans (Nat.mod_eq_of_lt hlt), rfl⟩
    · have hfield : (BitVec.ofNat 11 (e + 1075).toNat).toNat = (e + 1075).toNat := by
        rw [BitVec.toNat_ofNat, Nat.mod_eq_of_lt (by omega)]
      have hnan : BitVec.ofNat 11 (e + 1075).toNat ≠ -1#11 := by
        rw [Ne, ← BitVec.toNat_inj, hfield]
        exact fun h => absurd (h.trans (by decide : (-1#11).toNat = 2047)) (by omega)
      have hzero : BitVec.ofNat 11 (e + 1075).toNat ≠ 0#11 := by
        rw [Ne, ← BitVec.toNat_inj, hfield]
        exact fun h => absurd (h.trans (by decide : (0#11).toNat = 0)) (by omega)
      rw [pack_normal s hpos hm hge hv, UnpackedFloat.unpack]
      simp only [UnpackedFloat.unpackMantissa_packComponents,
        UnpackedFloat.unpackExponent_packComponents, UnpackedFloat.unpackSign_packComponents,
        Sign.ofBitVec_toBitVec]
      rw [if_neg hnan, if_neg hzero]
      simp only [UnpackedFloat.finite.injEq, true_and, toNat_one_append, hfield, exponentBias_eq]
      rw [BitVec.toNat_ofNat]
      omega

theorem unpack_packedInfinity (s : Sign) :
    UnpackedFloat.unpack Format.binary64 (UnpackedFloat.packedInfinity Format.binary64 s) =
      .infinity s := by
  simp [UnpackedFloat.packedInfinity, UnpackedFloat.unpack]

/-- What is too large for the format is packed as an infinity. -/
theorem unpack_pack_of_le {s : Sign} {v : ℚ} {u : UnpackedFloat} (h : Canonical s v u)
    (hv : 2 ^ 1024 ≤ v) :
    UnpackedFloat.unpack Format.binary64 (UnpackedFloat.pack Format.binary64 u) = .infinity s := by
  cases h with
  | zero hzero =>
    rw [hzero] at hv
    exact absurd hv (not_le.mpr (by positivity))
  | @finite m e hpos hm he hnormal hvalue =>
    have hlarge : ¬ e ≤ 971 := by
      rw [← exponent_le_iff hm hnormal, ← hvalue]
      exact not_lt.mpr hv
    have hbiased : 2 ^ 11 ≤ (e + Format.binary64.exponentBias + (52 : ℕ)).toNat + 1 := by
      rw [exponentBias_eq]
      omega
    unfold UnpackedFloat.pack
    simp only [if_pos hbiased]
    exact unpack_packedInfinity s

/-! ## Values -/

/-- A magnitude with a sign. -/
def signed (s : Sign) (a : ℚ) : ℚ := if isNegative s then -a else a

theorem abs_signed (s : Sign) (a : ℚ) : |signed s a| = |a| := by
  cases s <;> simp [signed, isNegative]

theorem signed_zero (s : Sign) : signed s 0 = 0 := by
  cases s <;> simp [signed, isNegative]

theorem nearest_signed (s : Sign) (a : ℚ) : nearest (signed s a) = signed s (nearest a) := by
  cases s
  · exact nearest_neg a
  · rfl

theorem Canonical.nonneg {s : Sign} {a : ℚ} {u : UnpackedFloat} (h : Canonical s a u) : 0 ≤ a := by
  cases h with
  | zero hzero => exact hzero.ge
  | finite _ _ _ _ hvalue =>
    rw [hvalue]
    exact mul_nonneg (Nat.cast_nonneg _) (two_zpow_pos _).le

theorem Canonical.representable {s : Sign} {a : ℚ} {u : UnpackedFloat} (h : Canonical s a u) :
    Representable a := by
  cases h with
  | zero hzero => exact ⟨0, 0, by norm_num, by norm_num, by simpa using hzero⟩
  | @finite m e _ hm he _ hvalue =>
    exact ⟨m, e, by rw [Nat.abs_cast]; omega, he, by simpa using hvalue⟩

theorem Canonical.value?_partsOf {s : Sign} {a : ℚ} {u : UnpackedFloat} (h : Canonical s a u) :
    (partsOf u).value? = some (signed s a) := by
  cases h with
  | zero hzero => simp [partsOf, Parts.value?, hzero, signed]
  | finite _ _ _ _ hvalue => simp [partsOf, Parts.value?, hvalue, signed]

theorem Parts.normal {bits m : ℕ} {s : Bool} {q : ℤ} (h : ofBits bits = finite s m q) :
    2 ^ 52 ≤ m ∨ q = -1074 := by
  simp only [ofBits] at h
  split at h
  · split at h <;> contradiction
  · split at h <;> cases h
    · exact .inr rfl
    · exact .inl (by omega)

theorem parts_eq (x : Float) : parts x = partsOf x.toModel.unpack :=
  ofBits_eq_partsOf_unpack x.toBits.toBitVec

/-- A number with a value unpacks to its magnitude. -/
theorem exists_canonical {x : Float} {v : ℚ} (h : value? x = some v) :
    ∃ s a, Canonical s a x.toModel.unpack ∧ v = signed s a ∧ a < 2 ^ 1024 := by
  have hparts := parts_eq x
  rw [value?] at h
  generalize x.toModel.unpack = u at *
  match u with
  | .notANumber | .infinity _ =>
    rw [hparts] at h
    cases h
  | .zero s =>
    rw [hparts] at h
    have hzero : Canonical s 0 (.zero s) := .zero rfl
    rw [hzero.value?_partsOf] at h
    exact ⟨s, 0, hzero, (Option.some.inj h).symm, by positivity⟩
  | .finite s m e hpos =>
    have hm := Parts.significand_lt hparts
    have hnormal := Parts.normal hparts
    obtain ⟨hlow, hhigh⟩ := Parts.le_exponent hparts
    have hfinite : Canonical s (m * 2 ^ e) (.finite s m e hpos) := .finite hpos hm hlow hnormal rfl
    rw [hparts, hfinite.value?_partsOf] at h
    exact ⟨s, _, hfinite, (Option.some.inj h).symm, (exponent_le_iff hm hnormal).mpr hhigh⟩

/-- The format has no larger values. -/
theorem abs_lt_of_value? {x : Float} {v : ℚ} (h : value? x = some v) : |v| < 2 ^ 1024 := by
  obtain ⟨s, a, ha, rfl, hlt⟩ := exists_canonical h
  rwa [abs_signed, abs_of_nonneg ha.nonneg]

/-- A value is a number of the format. -/
theorem representable_of_value? {x : Float} {v : ℚ} (h : value? x = some v) :
    Representable v := by
  obtain ⟨s, a, ha, rfl, _⟩ := exists_canonical h
  cases s
  · exact ha.representable.neg
  · exact ha.representable

theorem unpack_ofModel_pack (u : UnpackedFloat) :
    (Float.ofModel (.pack u)).toModel.unpack =
      UnpackedFloat.unpack Format.binary64 (UnpackedFloat.pack Format.binary64 u) := rfl

/-- Packing a magnitude that is small enough. -/
theorem value?_pack {s : Sign} {a : ℚ} {u : UnpackedFloat} (h : Canonical s a u)
    (ha : a < 2 ^ 1024) : value? (.ofModel (.pack u)) = some (signed s a) := by
  rw [value?, parts_eq, unpack_ofModel_pack, unpack_pack h ha, h.value?_partsOf]

/-- The number is the nearest one to `v`, or an infinity where that is too large. -/
def IsRounded (x : Float) (v : ℚ) : Prop :=
  if |nearest v| < 2 ^ 1024 then value? x = some (nearest v)
  else parts x = .infinite (decide (v < 0))

/-- A value is itself rounded. -/
theorem isRounded_of_value? {x : Float} {v : ℚ} (h : value? x = some v) : IsRounded x v := by
  obtain ⟨s, a, ha, hv, hlt⟩ := exists_canonical h
  have hnearest := nearest_of_representable (representable_of_value? h)
  unfold IsRounded
  rw [hnearest, hv, abs_signed, abs_of_nonneg ha.nonneg, if_pos hlt, ← hv]
  exact h

/-- Packing a magnitude that has been rounded. -/
theorem isRounded_pack {s : Sign} {a : ℚ} {u : UnpackedFloat} (ha : 0 < a)
    (h : Canonical s (nearest a) u) : IsRounded (.ofModel (.pack u)) (signed s a) := by
  have habs : |nearest (signed s a)| = nearest a := by
    rw [nearest_signed, abs_signed, abs_of_nonneg h.nonneg]
  unfold IsRounded
  rw [habs]
  split
  · rename_i hlt
    rw [value?_pack h hlt, nearest_signed]
  · rename_i hge
    rw [parts_eq, unpack_ofModel_pack, unpack_pack_of_le h (not_lt.mp hge), partsOf]
    congr 1
    cases s
    · simpa [signed, isNegative] using ha
    · simpa [signed, isNegative] using ha.le

/-- A number that is rounded is its nearest number, unless that is too large. -/
theorem IsRounded.value?_eq {x : Float} {v : ℚ} (h : IsRounded x v) {k : ℕ} (hv : |v| ≤ 2 ^ k)
    (hk : k < 1024) : value? x = some (nearest v) := by
  have hlt : (2 : ℚ) ^ k < 2 ^ 1024 := pow_lt_pow_right₀ (by norm_num) hk
  unfold IsRounded at h
  rwa [if_pos (((representable_two_pow k).abs_nearest_le hv).trans_lt hlt)] at h

/-- A whole number is not changed by rounding where the format has room for it. -/
theorem IsRounded.value?_intCast {x : Float} {n : ℤ} (h : IsRounded x n) (hn : |n| ≤ 2 ^ 53) :
    value? x = some (n : ℚ) := by
  have habs : |(n : ℚ)| ≤ 2 ^ 53 := by exact_mod_cast hn
  rw [h.value?_eq habs (by norm_num), nearest_of_representable (representable_intCast hn)]

end FormulaEngine.Binary64
