import FormulaEngine.Proofs.Binary64.Arithmetic
import FormulaEngine.Proofs.Binary64.Order
import Mathlib.Order.WithBot

/-! # Infinities

How infinities are subtracted, multiplied, divided by and compared. A difference with an infinity in
it is infinite, or not a number where both are the same; a product of positive numbers stays
infinite; and any two numbers are ordered as long as both are numbers. -/

namespace FormulaEngine.Binary64

open Float.Model (UnpackedFloat Format)
open Float.Model.UnpackedFloat (Sign)

variable {x y : Float} {v w : ℚ}

/-- A number is not one, is infinite, or has a value. -/
theorem parts_cases (x : Float) :
    parts x = .nan ∨ (∃ n, parts x = .infinite n) ∨ ∃ v, value? x = some v := by
  unfold value?
  cases parts x with
  | nan => exact .inl rfl
  | infinite n => exact .inr (.inl ⟨n, rfl⟩)
  | finite n m q => exact .inr (.inr ⟨_, rfl⟩)

theorem unpack_of_nan (h : parts x = .nan) : x.toModel.unpack = .notANumber := by
  rw [parts_eq] at h
  generalize x.toModel.unpack = u at h
  cases u with
  | notANumber => rfl
  | infinity | zero | finite => cases h

theorem unpack_of_infinite {n : Bool} (h : parts x = .infinite n) :
    ∃ s, x.toModel.unpack = .infinity s ∧ isNegative s = n := by
  rw [parts_eq] at h
  generalize x.toModel.unpack = u at h
  cases u with
  | infinity s => exact ⟨s, rfl, by cases h; rfl⟩
  | notANumber | zero | finite => cases h

theorem isNegative_injective {s t : Sign} (h : isNegative s = isNegative t) : s = t := by
  cases s <;> cases t <;> first | rfl | cases h

theorem unpack_packedNaN :
    UnpackedFloat.unpack Format.binary64 (UnpackedFloat.pack Format.binary64 .notANumber) =
      .notANumber := by
  simp [UnpackedFloat.pack, UnpackedFloat.packedNaN, UnpackedFloat.unpack]

theorem parts_infinity (s : Sign) :
    parts (.ofModel (.pack (.infinity s))) = .infinite (isNegative s) := by
  rw [parts_eq, unpack_ofModel_pack]
  exact congrArg partsOf (unpack_packedInfinity s)

theorem parts_notANumber : parts (.ofModel (.pack .notANumber)) = .nan := by
  rw [parts_eq, unpack_ofModel_pack, unpack_packedNaN]
  rfl

theorem isRounded_infinity {v : ℚ} (hv : 2 ^ 1024 ≤ v) : IsRounded infinity v := by
  have hlarge := (representable_two_pow 1024).le_nearest hv
  have hpos : (0 : ℚ) < v := lt_of_lt_of_le (by positivity) hv
  have hinfinite : parts infinity = .infinite false := by decide
  unfold IsRounded
  rw [if_neg (not_lt.mpr (hlarge.trans (le_abs_self _))), hinfinite, decide_eq_false hpos.not_gt]

/-! ## Magnitudes -/

theorem value?_abs (hx : value? x = some v) : value? x.abs = some |v| := by
  obtain ⟨s, a, ha, rfl, hlt⟩ := exists_canonical hx
  have habs : x.abs = .ofModel (.pack (UnpackedFloat.abs x.toModel.unpack)) := rfl
  have hcanonical : Canonical .positive a (UnpackedFloat.abs x.toModel.unpack) := by
    generalize x.toModel.unpack = u at ha
    cases ha with
    | zero hzero => exact .zero hzero
    | finite hpos hm he hn hvalue => exact .finite hpos hm he hn hvalue
  rw [habs, value?_pack hcanonical hlt, abs_signed, abs_of_nonneg ha.nonneg]
  rfl

theorem parts_abs_of_infinite {n : Bool} (h : parts x = .infinite n) :
    parts x.abs = .infinite false := by
  obtain ⟨s, hs, -⟩ := unpack_of_infinite h
  have habs : x.abs = .ofModel (.pack (UnpackedFloat.abs x.toModel.unpack)) := rfl
  rw [habs, hs]
  exact parts_infinity .positive

theorem parts_abs_of_nan (h : parts x = .nan) : parts x.abs = .nan := by
  have habs : x.abs = .ofModel (.pack (UnpackedFloat.abs x.toModel.unpack)) := rfl
  rw [habs, unpack_of_nan h]
  exact parts_notANumber

/-! ## Differences -/

/-- The same infinities have no difference, and any other difference with one is infinite. -/
theorem parts_sub_of_infinite (hx : parts x ≠ .nan) (hy : parts y ≠ .nan)
    (h : value? x = none ∨ value? y = none) :
    parts (x - y) = .nan ∨ ∃ n, parts (x - y) = .infinite n := by
  have hsub : x - y = .ofModel (.pack (UnpackedFloat.sub Format.binary64 x.toModel.unpack
    y.toModel.unpack)) := rfl
  rw [hsub]
  rw [value?, value?] at h
  rw [parts_eq] at hx hy h
  rw [parts_eq] at h
  generalize x.toModel.unpack = u at *
  generalize y.toModel.unpack = u' at *
  have infinite : ∀ s, parts (.ofModel (.pack (.infinity s))) = .nan ∨
      ∃ n, parts (.ofModel (.pack (.infinity s))) = .infinite n :=
    fun s => .inr ⟨_, parts_infinity s⟩
  cases u with
  | notANumber => exact absurd rfl hx
  | infinity s =>
    cases u' with
    | notANumber => exact absurd rfl hy
    | infinity t =>
      rw [UnpackedFloat.sub]
      split
      · exact infinite s
      · exact .inl parts_notANumber
    | zero | finite => exact infinite s
  | zero | finite =>
    cases u' with
    | notANumber => exact absurd rfl hy
    | infinity t => exact infinite (-t)
    | zero | finite => simp [partsOf, Parts.value?] at h

/-! ## Products and quotients -/

/-- A number above zero, infinity included. -/
def Positive (x : Float) : Prop := parts x = .infinite false ∨ ∃ v, value? x = some v ∧ 0 < v

theorem unpack_of_positive (h : Positive x) :
    x.toModel.unpack = .infinity .positive ∨
      ∃ m e hm, x.toModel.unpack = .finite .positive m e hm := by
  rcases h with h | ⟨v, hv, hpos⟩
  · obtain ⟨s, hs, hn⟩ := unpack_of_infinite h
    obtain rfl : s = .positive := isNegative_injective hn
    exact .inl hs
  · obtain ⟨s, a, ha, rfl, -⟩ := exists_canonical hv
    have hnonneg := ha.nonneg
    generalize x.toModel.unpack = u at ha
    cases ha with
    | zero hzero =>
      rw [hzero, signed_zero] at hpos
      exact absurd hpos (lt_irrefl 0)
    | finite hpos' hm he hn hvalue =>
      cases s with
      | negative => exact absurd hpos (not_lt.mpr (neg_nonpos.mpr hnonneg))
      | positive => exact .inr ⟨_, _, _, rfl⟩

/-- A product of positive numbers is infinite when one of them is. -/
theorem parts_mul_of_infinite (hx : Positive x) (hy : Positive y)
    (h : parts x = .infinite false ∨ parts y = .infinite false) :
    parts (x * y) = .infinite false := by
  have hmul : x * y = .ofModel (.pack (UnpackedFloat.mul Format.binary64 x.toModel.unpack
    y.toModel.unpack)) := rfl
  rw [hmul]
  rw [parts_eq, parts_eq] at h
  rcases unpack_of_positive hx with hu | ⟨m, e, hm, hu⟩ <;>
    rcases unpack_of_positive hy with hu' | ⟨m', e', hm', hu'⟩ <;> rw [hu, hu'] at h ⊢
  · exact parts_infinity .positive
  · exact parts_infinity .positive
  · exact parts_infinity .positive
  · rcases h with h | h <;> cases h

/-- Nothing is left of a number that is divided by an infinity. -/
theorem value?_div_of_infinite {n : Bool} (hx : value? x = some v) (hy : parts y = .infinite n) :
    value? (x / y) = some 0 := by
  have hdiv : x / y = .ofModel (.pack (UnpackedFloat.div Format.binary64 x.toModel.unpack
    y.toModel.unpack)) := rfl
  have hzero : ∀ s, value? (.ofModel (.pack (.zero s))) = some 0 := fun s => by
    rw [value?_pack (s := s) (.zero rfl) (by positivity), signed_zero]
  obtain ⟨s, a, ha, -, -⟩ := exists_canonical hx
  obtain ⟨t, ht, -⟩ := unpack_of_infinite hy
  rw [hdiv, ht]
  generalize x.toModel.unpack = u at ha
  cases ha <;> exact hzero _

/-! ## Comparisons -/

theorem toModel_compare (x y : Float) : x.toModel.compare y.toModel =
    UnpackedFloat.compare x.toModel.unpack y.toModel.unpack := rfl

/-- What is no number is below none. -/
theorem not_le_of_nan (h : parts x = .nan) : ¬ x ≤ y := by
  rw [le_iff_compare, toModel_compare, unpack_of_nan h]
  generalize y.toModel.unpack = u
  intro hle
  cases u <;> cases hle

/-- An infinity is on the same side of all values. -/
theorem compare_infinite_value {t : Sign} (hx : x.toModel.unpack = .infinity t)
    (hy : value? y = some w) :
    x.toModel.compare y.toModel = some (if isNegative t then .lt else .gt) ∧
      y.toModel.compare x.toModel = some (if isNegative t then .gt else .lt) := by
  obtain ⟨s, b, hb, -, -⟩ := exists_canonical hy
  rw [toModel_compare, toModel_compare, hx]
  generalize y.toModel.unpack = u at hb
  cases hb <;> cases s <;> cases t <;> exact ⟨rfl, rfl⟩

/-- Infinity is not below a number that has a value. -/
theorem not_le_of_infinite (h : parts x = .infinite false) (hy : value? y = some w) : ¬ x ≤ y := by
  obtain ⟨s, hs, hn⟩ := unpack_of_infinite h
  rw [le_iff_compare, (compare_infinite_value hs hy).1, hn]
  nofun

/-- Nor is such a number below minus infinity. -/
theorem not_le_negInfinite (h : parts x = .infinite true) (hy : value? y = some w) : ¬ y ≤ x := by
  obtain ⟨s, hs, hn⟩ := unpack_of_infinite h
  rw [le_iff_compare, (compare_infinite_value hs hy).2, hn]
  nofun

/-- What lies between two numbers with values has a value. -/
theorem exists_value_of_between {y z : Float} {w w' : ℚ} (hy : value? y = some w)
    (hz : value? z = some w') (hyx : y < x) (hxz : x < z) :
    ∃ v, value? x = some v ∧ w < v ∧ v < w' := by
  have hle : ∀ {a b : Float}, a < b → a ≤ b := by
    intro a b hlt
    rw [le_iff_compare, lt_iff_compare.mp hlt]
    rfl
  rcases parts_cases x with hnan | ⟨n, hinfinite⟩ | ⟨v, hv⟩
  · exact absurd (hle hxz) (not_le_of_nan hnan)
  · cases n with
    | false => exact absurd (hle hxz) (not_le_of_infinite hinfinite hz)
    | true => exact absurd (hle hyx) (not_le_negInfinite hinfinite hy)
  · exact ⟨v, hv, (lt_iff hy hv).mp hyx, (lt_iff hv hz).mp hxz⟩

/-! ## The order of all numbers -/

/-- The rational numbers between the two infinities. -/
abbrev Extended := WithBot (WithTop ℚ)

/-- The place of a number among the rational numbers and the two infinities. -/
def place? (x : Float) : Option Extended :=
  match parts x with
  | .nan => none
  | .infinite negative => some (if negative then ⊥ else ⊤)
  | .finite _ _ _ => (value? x).map fun v => ((v : WithTop ℚ) : Extended)

variable {a b : Extended}

theorem place?_of_infinite {n : Bool} (h : parts x = .infinite n) :
    place? x = some (if n then ⊥ else ⊤) := by
  rw [place?, h]

theorem place?_of_value (hv : value? x = some v) :
    place? x = some ((v : WithTop ℚ) : Extended) := by
  unfold place?
  rw [hv]
  unfold value? at hv
  cases hx : parts x with
  | nan | infinite n =>
    rw [hx] at hv
    cases hv
  | finite n m q => rfl

theorem place?_eq_none_iff : place? x = none ↔ parts x = .nan := by
  unfold place? value?
  cases parts x with
  | nan => simp
  | infinite n => simp
  | finite n m q => simp [Parts.value?]

theorem place_cases (h : place? x = some a) :
    (∃ n, parts x = .infinite n ∧ a = if n then ⊥ else ⊤) ∨
      ∃ v : ℚ, value? x = some v ∧ a = ((v : WithTop ℚ) : Extended) := by
  rcases parts_cases x with hnan | ⟨n, hn⟩ | ⟨v, hv⟩
  · rw [place?_eq_none_iff.mpr hnan] at h
    cases h
  · exact .inl ⟨n, hn, Option.some.inj (h.symm.trans (place?_of_infinite hn))⟩
  · exact .inr ⟨v, hv, Option.some.inj (h.symm.trans (place?_of_value hv))⟩

theorem compare_coe_coe (v w : ℚ) :
    compare ((v : WithTop ℚ) : Extended) ((w : WithTop ℚ) : Extended) = compare v w := by
  have hlt : ∀ {v w : ℚ}, v < w → ((v : WithTop ℚ) : Extended) < ((w : WithTop ℚ) : Extended) :=
    fun h => WithBot.coe_lt_coe.mpr (WithTop.coe_lt_coe.mpr h)
  rcases lt_trichotomy v w with h | rfl | h
  · rw [compare_lt_iff_lt.mpr h, compare_lt_iff_lt.mpr (hlt h)]
  · rw [compare_eq_iff_eq.mpr rfl, compare_eq_iff_eq.mpr rfl]
  · rw [compare_gt_iff_gt.mpr h, compare_gt_iff_gt.mpr (hlt h)]

/-- Numbers compare as their places do. -/
theorem compare_places (ha : place? x = some a) (hb : place? y = some b) :
    x.toModel.compare y.toModel = some (compare a b) := by
  have hbelow : ∀ v : ℚ, (⊥ : Extended) < ((v : WithTop ℚ) : Extended) := fun v =>
    WithBot.bot_lt_coe _
  have habove : ∀ v : ℚ, ((v : WithTop ℚ) : Extended) < ⊤ := fun v =>
    WithBot.coe_lt_coe.mpr (WithTop.coe_lt_top v)
  rcases place_cases ha with ⟨n, hn, rfl⟩ | ⟨v, hv, rfl⟩
  · obtain ⟨s, hs, rfl⟩ := unpack_of_infinite hn
    rcases place_cases hb with ⟨m, hm, rfl⟩ | ⟨w, hw, rfl⟩
    · obtain ⟨t, ht, rfl⟩ := unpack_of_infinite hm
      have hends : (⊥ : Extended) < ⊤ := bot_lt_top
      rw [toModel_compare, hs, ht]
      cases s <;> cases t
      · exact congrArg some (compare_eq_iff_eq.mpr rfl).symm
      · exact congrArg some (compare_lt_iff_lt.mpr hends).symm
      · exact congrArg some (compare_gt_iff_gt.mpr hends).symm
      · exact congrArg some (compare_eq_iff_eq.mpr rfl).symm
    · rw [(compare_infinite_value hs hw).1]
      cases s
      · exact congrArg some (compare_lt_iff_lt.mpr (hbelow w)).symm
      · exact congrArg some (compare_gt_iff_gt.mpr (habove w)).symm
  · rcases place_cases hb with ⟨m, hm, rfl⟩ | ⟨w, hw, rfl⟩
    · obtain ⟨t, ht, rfl⟩ := unpack_of_infinite hm
      rw [(compare_infinite_value ht hv).2]
      cases t
      · exact congrArg some (compare_gt_iff_gt.mpr (hbelow v)).symm
      · exact congrArg some (compare_lt_iff_lt.mpr (habove v)).symm
    · rw [compare_values hv hw, compare_coe_coe]

theorem exists_place (h : parts x ≠ .nan) : ∃ a, place? x = some a :=
  Option.ne_none_iff_exists'.mp fun hnone => h (place?_eq_none_iff.mp hnone)

/-- The numbers are the same infinity. -/
def SameInfinity (x y : Float) : Prop := ∃ n, parts x = .infinite n ∧ parts y = .infinite n

/-- At one place there is one infinity, or one value. -/
theorem eq_of_place (hx : place? x = some a) (hy : place? y = some a) :
    SameInfinity x y ∨ ∃ v, value? x = some v ∧ value? y = some v := by
  rcases place_cases hx with ⟨n, hn, rfl⟩ | ⟨v, hv, rfl⟩
  · rcases place_cases hy with ⟨m, hm, hnm⟩ | ⟨w, hw, hnw⟩
    · obtain rfl : n = m := by cases n <;> cases m <;> first | rfl | cases hnm
      exact .inl ⟨n, hn, hm⟩
    · cases n <;> cases hnw
  · rcases place_cases hy with ⟨m, hm, hvm⟩ | ⟨w, hw, hvw⟩
    · cases m <;> cases hvm
    · cases hvw
      exact .inr ⟨v, hv, hw⟩

/-- Two numbers are ordered one way, and the other way round when they are swapped. They are equal
when their values are, or when they are the same infinity. -/
theorem exists_compare (hx : parts x ≠ .nan) (hy : parts y ≠ .nan) :
    ∃ o : Ordering, x.toModel.compare y.toModel = some o ∧
      y.toModel.compare x.toModel = some o.swap ∧
      (o = .eq → SameInfinity x y ∨ ∃ v, value? x = some v ∧ value? y = some v) := by
  obtain ⟨a, ha⟩ := exists_place hx
  obtain ⟨b, hb⟩ := exists_place hy
  have hswap : compare b a = (compare a b).swap := Std.OrientedCmp.eq_swap
  refine ⟨compare a b, compare_places ha hb, hswap ▸ compare_places hb ha, fun heq => ?_⟩
  obtain rfl := compare_eq_iff_eq.mp heq
  exact eq_of_place ha hb

/-- What compares is a number. -/
theorem ne_nan_of_compare {o : Ordering} (h : x.toModel.compare y.toModel = some o) :
    parts x ≠ .nan ∧ parts y ≠ .nan := by
  rw [toModel_compare] at h
  constructor
  · intro hx
    rw [unpack_of_nan hx] at h
    cases h
  · intro hy
    rw [unpack_of_nan hy] at h
    generalize x.toModel.unpack = u at h
    cases u <;> cases h

theorem lt_iff_places : x < y ↔ ∃ a b, place? x = some a ∧ place? y = some b ∧ a < b := by
  rw [lt_iff_compare]
  constructor
  · intro h
    obtain ⟨hx, hy⟩ := ne_nan_of_compare h
    obtain ⟨a, ha⟩ := exists_place hx
    obtain ⟨b, hb⟩ := exists_place hy
    rw [compare_places ha hb, Option.some.injEq] at h
    exact ⟨a, b, ha, hb, compare_lt_iff_lt.mp h⟩
  · rintro ⟨a, b, ha, hb, hlt⟩
    rw [compare_places ha hb, compare_lt_iff_lt.mpr hlt]

theorem not_lt_self (x : Float) : ¬ x < x := by
  intro h
  obtain ⟨a, b, ha, hb, hlt⟩ := lt_iff_places.mp h
  obtain rfl := Option.some.inj (ha.symm.trans hb)
  exact lt_irrefl a hlt

theorem lt_of_lt_of_lt {z : Float} (hxy : x < y) (hyz : y < z) : x < z := by
  obtain ⟨a, b, ha, hb, hab⟩ := lt_iff_places.mp hxy
  obtain ⟨b', c, hb', hc, hbc⟩ := lt_iff_places.mp hyz
  obtain rfl := Option.some.inj (hb.symm.trans hb')
  exact lt_iff_places.mpr ⟨a, c, ha, hc, hab.trans hbc⟩

theorem le_of_not_greater (hx : parts x ≠ .nan) (hy : parts y ≠ .nan) (h : ¬ y < x) : x ≤ y := by
  obtain ⟨o, ho, hswap, -⟩ := exists_compare hx hy
  rw [lt_iff_compare, hswap] at h
  rw [le_iff_compare, ho]
  cases o with
  | lt | eq => rfl
  | gt => exact absurd rfl h

/-- Numbers are equal as numbers when neither of them is less. Zeros of both signs are. -/
theorem beq_iff_not_lt : (x == y) = true ↔
    (parts x ≠ .nan ∧ parts y ≠ .nan) ∧ ¬ x < y ∧ ¬ y < x := by
  have hbeq : (x == y) = (x.toModel.compare y.toModel == some .eq) := rfl
  rw [hbeq, beq_iff_eq, lt_iff_compare, lt_iff_compare]
  constructor
  · intro h
    obtain ⟨hx, hy⟩ := ne_nan_of_compare h
    obtain ⟨o, ho, hswap, -⟩ := exists_compare hx hy
    obtain rfl := Option.some.inj (h.symm.trans ho)
    exact ⟨⟨hx, hy⟩, by rw [h]; nofun, by rw [hswap]; nofun⟩
  · rintro ⟨⟨hx, hy⟩, hlt, hgt⟩
    obtain ⟨o, ho, hswap, -⟩ := exists_compare hx hy
    rw [ho] at hlt ⊢
    rw [hswap] at hgt
    cases o with
    | lt => exact absurd rfl hlt
    | eq => rfl
    | gt => exact absurd rfl hgt

end FormulaEngine.Binary64
