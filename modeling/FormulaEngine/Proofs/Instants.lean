import FormulaEngine.Proofs.Binary64.Infinite
import FormulaEngine.Proofs.Serials

/-! # The instants that serials denote

A serial denotes an instant: its whole days from the epoch, and its part of a day forwards from
midnight. It is read as the millisecond nearest to that instant, unless it lies before the epoch and
so close to the end of its day that it is rounded to a whole day: rounding goes away from the epoch,
where the next day is the one before. What is read has a serial that is read the same way, unless
rounding has met a bound of the serials. -/

namespace FormulaEngine.Serial

open Binary64

/-! ## Turning the time of day -/

/-- Before the epoch the whole days stay, and the rest is turned around. -/
theorem unfoldNegative_neg {k r : ℤ} (hk : 0 ≤ k) (hr : 0 ≤ r ∧ r < dayMilliseconds) :
    unfoldNegative (-(k * dayMilliseconds + r)) = -(k * dayMilliseconds) + r := by
  unfold dayMilliseconds at *
  by_cases hzero : k * 86400000 + r = 0
  · unfold unfoldNegative
    rw [if_neg (by omega)]
    omega
  · have hneg : -(k * 86400000 + r) < 0 := by omega
    unfold unfoldNegative dayMilliseconds
    rw [if_pos hneg, tmod_of_nonpos hneg.le]
    omega

theorem unfoldNegative_of_nonneg {n : ℤ} (h : 0 ≤ n) : unfoldNegative n = n :=
  if_neg (not_lt.mpr h)

/-- Turning around and back again changes nothing but the sign of what lies within a day before the
epoch: turned around, it lies behind the epoch. -/
theorem foldNegative_unfoldNegative (n : ℤ) :
    foldNegative (unfoldNegative n) = if -dayMilliseconds < n ∧ n < 0 then -n else n := by
  rcases le_or_gt 0 n with hn | hn
  · rw [unfoldNegative_of_nonneg hn, if_neg (by omega), foldNegative, if_neg (by omega)]
  · obtain ⟨k, r, hk, hr, rfl⟩ : ∃ k r : ℤ, 0 ≤ k ∧ (0 ≤ r ∧ r < dayMilliseconds) ∧
        n = -(k * dayMilliseconds + r) :=
      ⟨-n / dayMilliseconds, -n % dayMilliseconds, by unfold dayMilliseconds; omega⟩
    rw [unfoldNegative_neg hk hr, ← neg_mul, foldNegative_eq hr]
    unfold dayMilliseconds at *
    split <;> split <;> omega

theorem convertible_unfoldNegative {n : ℤ} :
    Convertible (foldNegative (unfoldNegative n)) ↔ Convertible n := by
  rw [foldNegative_unfoldNegative]
  unfold Convertible dayMilliseconds
  split <;> omega

/-! ## What is read -/

theorem milliseconds_ofMilliseconds (n : ℤ) :
    milliseconds (.ofMilliseconds (epochDays * dayMilliseconds + n)) = n := by
  have hepoch : (epochDays * dayMilliseconds + n) * 1000000 - epochDays * (86400 * 1000000000) =
      n * 1000000 := by
    unfold dayMilliseconds
    ring
  rw [milliseconds, DateTime.nanoseconds_ofMilliseconds, hepoch, Int.mul_tdiv_cancel _ (by decide)]

variable {x : Float} {v : ℚ} {t : DateTime}

theorem abs_le_of_between (h : -657435 < v ∧ v < 2958466) : |v| ≤ 2958466 :=
  abs_le.mpr ⟨by linarith [h.1], h.2.le⟩

/-- A serial between the bounds is read, as a date-time with whole milliseconds. -/
theorem toDateTime_of_between (hlow : lowest < x) (hhigh : x < highest) :
    ∃ v t, value? x = some v ∧ (-657435 < v ∧ v < 2958466) ∧ toDateTime x = .ok t ∧
      t.time.IsWhole ∧ milliseconds t = unfoldNegative (roundByHalf (product v)) := by
  obtain ⟨v, hv, hv1, hv2⟩ := exists_value_of_between value?_lowest value?_highest hlow hhigh
  refine ⟨v, _, hv, ⟨hv1, hv2⟩, if_pos ⟨hlow, hhigh⟩, TimeOfDay.isWhole_ofMilliseconds _, ?_⟩
  rw [milliseconds_ofMilliseconds, nearestMilliseconds_eq hv (abs_le_of_between ⟨hv1, hv2⟩)]

/-! ## The instant of a serial -/

/-- Milliseconds from the epoch to the instant that a serial denotes. -/
def instant (v : ℚ) : ℚ := (wholePart v + |v - wholePart v|) * 86400000

/-- A serial before the epoch that is rounded to a whole day further away from it. -/
def FillsDay (v : ℚ) : Prop := v < 0 ∧ product v ≤ (wholePart v - 1) * 86400000 + 1 / 2

theorem instant_of_nonneg (h : 0 ≤ v) : instant v = v * 86400000 := by
  rw [instant, wholePart, if_neg (not_lt.mpr h), abs_of_nonneg (by linarith [Int.floor_le v])]
  ring

theorem instant_of_neg (h : v < 0) : instant v = (-v - 2 * ⌊-v⌋) * 86400000 := by
  have hfloor := Int.floor_le (-v)
  rw [instant, wholePart, if_pos h, abs_of_nonpos (by push_cast; linarith)]
  push_cast
  ring

theorem fillsDay_iff (h : v < 0) :
    FillsDay v ↔ ((⌊-v⌋ + 1) * dayMilliseconds : ℤ) - 1 / 2 ≤ product (-v) := by
  rw [FillsDay, wholePart, if_pos h, product_neg]
  unfold dayMilliseconds
  push_cast
  constructor
  · rintro ⟨_, hle⟩
    linarith
  · intro hle
    exact ⟨h, by linarith⟩

/-- Rounding stays between the whole days on both sides. -/
theorem roundByHalf_product_bounds (h0 : 0 ≤ v) (hv : v < 2958466) :
    (⌊v⌋ * dayMilliseconds ≤ roundByHalf (product v) ∧
      roundByHalf (product v) ≤ (⌊v⌋ + 1) * dayMilliseconds) ∧
    ((⌊v⌋ + 1) * dayMilliseconds ≤ roundByHalf (product v) ↔
      ((⌊v⌋ + 1) * dayMilliseconds : ℤ) - 1 / 2 ≤ product v) := by
  have hfloor : 0 ≤ ⌊v⌋ := Int.floor_nonneg.mpr h0
  have hfloor' : ⌊v⌋ < 2958466 := Int.floor_lt.mpr (by exact_mod_cast hv)
  have hsmall := (abs_product_le (abs_le_of_between ⟨by linarith, hv⟩)).trans_lt
    (by norm_num : (255611462400000 : ℚ) < 2 ^ 48)
  have hround := abs_le.mp (abs_roundByHalf_sub_le (representable_product v) hsmall)
  have hcarry := carry_le (product v)
  norm_num at hcarry
  have hday : ∀ k : ℤ, 0 ≤ k ∧ k ≤ 2958466 → Representable (k * dayMilliseconds : ℤ) := fun k hk =>
    representable_intCast (by unfold dayMilliseconds; rw [abs_of_nonneg] <;> omega)
  have hlow : ((⌊v⌋ * dayMilliseconds : ℤ) : ℚ) ≤ product v := by
    refine (hday ⌊v⌋ (by omega)).le_nearest ?_
    unfold dayMilliseconds
    push_cast
    linarith [Int.floor_le v]
  have hhigh : product v ≤ (((⌊v⌋ + 1) * dayMilliseconds : ℤ) : ℚ) := by
    refine (hday (⌊v⌋ + 1) (by omega)).nearest_le ?_
    unfold dayMilliseconds
    push_cast
    linarith [Int.lt_floor_add_one v]
  refine ⟨⟨?_, ?_⟩, le_roundByHalf_iff (representable_product v) (lt_of_abs_lt hsmall) ?_⟩
  · have : ((⌊v⌋ * dayMilliseconds : ℤ) : ℚ) < (roundByHalf (product v) + 1 : ℤ) := by
      push_cast at hlow ⊢
      linarith
    exact Int.lt_add_one_iff.mp (by exact_mod_cast this)
  · have : (roundByHalf (product v) : ℚ) < ((⌊v⌋ + 1) * dayMilliseconds + 1 : ℤ) := by
      push_cast at hhigh ⊢
      linarith
    exact Int.lt_add_one_iff.mp (by exact_mod_cast this)
  · unfold dayMilliseconds
    omega

/-- A serial from the epoch on is read as the milliseconds that it is rounded to. -/
theorem abs_sub_instant_of_nonneg (h0 : 0 ≤ v) (hv : v < 2958466) :
    |(unfoldNegative (roundByHalf (product v)) : ℚ) - instant v| ≤ 1 / 2 + roundingError v := by
  obtain ⟨⟨hlow, -⟩, -⟩ := roundByHalf_product_bounds h0 hv
  have hnonneg : 0 ≤ roundByHalf (product v) :=
    le_trans (mul_nonneg (Int.floor_nonneg.mpr h0) (by decide)) hlow
  rw [unfoldNegative_of_nonneg hnonneg, instant_of_nonneg h0]
  exact abs_roundByHalf_product_sub_le (abs_le_of_between ⟨by linarith, hv⟩)

/-- Before the epoch the rest is turned around, as in the instant. -/
theorem abs_sub_instant_of_neg (hneg : v < 0) (hv : -657435 < v) (h : ¬ FillsDay v) :
    |(unfoldNegative (roundByHalf (product v)) : ℚ) - instant v| ≤ 1 / 2 + roundingError v := by
  rw [fillsDay_iff hneg] at h
  obtain ⟨⟨hlow, -⟩, hfills⟩ := roundByHalf_product_bounds (v := -v) (by linarith) (by linarith)
  have hfloor : 0 ≤ ⌊-v⌋ := Int.floor_nonneg.mpr (by linarith)
  have hround := abs_roundByHalf_product_sub_le (abs_le_of_between ⟨hv, by linarith⟩)
  obtain ⟨r, hr⟩ : ∃ r, r = roundByHalf (product (-v)) - ⌊-v⌋ * dayMilliseconds := ⟨_, rfl⟩
  have hrest : 0 ≤ r ∧ r < dayMilliseconds := by
    have hlt := not_le.mp (hfills.not.mpr h)
    rw [add_mul] at hlt
    omega
  have hsum : roundByHalf (product v) = -(⌊-v⌋ * dayMilliseconds + r) := by
    rw [hr, product_neg, roundByHalf_neg]
    ring
  have hinstant : (unfoldNegative (roundByHalf (product v)) : ℚ) - instant v =
      -((roundByHalf (product v) : ℚ) - v * 86400000) := by
    rw [hsum, unfoldNegative_neg hfloor hrest, instant_of_neg hneg]
    unfold dayMilliseconds
    push_cast
    ring
  rw [hinstant, abs_neg]
  exact hround

/-- A day that is filled is read as its midnight, counted away from the epoch. -/
theorem unfoldNegative_of_fillsDay (hv : -657435 < v) (h : FillsDay v) :
    unfoldNegative (roundByHalf (product v)) = (wholePart v - 1) * dayMilliseconds := by
  have hneg := h.1
  rw [fillsDay_iff hneg] at h
  obtain ⟨⟨-, hhigh⟩, hfills⟩ := roundByHalf_product_bounds (v := -v) (by linarith) (by linarith)
  have hfloor : 0 ≤ ⌊-v⌋ := Int.floor_nonneg.mpr (by linarith)
  have hround : roundByHalf (product v) = -((⌊-v⌋ + 1) * dayMilliseconds + 0) := by
    rw [add_zero, ← le_antisymm hhigh (hfills.mpr h), product_neg, roundByHalf_neg]
    ring
  rw [hround, unfoldNegative_neg (by omega) (by decide), wholePart, if_pos hneg]
  ring

/-- The midnight is a day or more away from the instant. -/
theorem lt_abs_sub_instant_of_fillsDay (hv : -657435 < v) (h : FillsDay v) :
    1 / 2 + roundingError v < |(unfoldNegative (roundByHalf (product v)) : ℚ) - instant v| := by
  have hsmall := roundingError_le (abs_le_of_between ⟨hv, by linarith [h.1]⟩)
  have hinstant : instant v - unfoldNegative (roundByHalf (product v)) =
      (1 + |v - wholePart v|) * 86400000 := by
    rw [unfoldNegative_of_fillsDay hv h, instant]
    unfold dayMilliseconds
    push_cast
    ring
  have hnonneg := abs_nonneg (v - wholePart v)
  rw [abs_sub_comm, hinstant, abs_of_pos (by linarith)]
  linarith

/-- Every serial between the bounds is read as a date-time with whole milliseconds. It is at most
half a millisecond away from the instant that the serial denotes, as far as the product and the sum
are exact, unless the serial fills its day: then it is the midnight before that day. -/
theorem toDateTime_near_instant (hlow : lowest < x) (hhigh : x < highest) :
    ∃ v t, value? x = some v ∧ toDateTime x = .ok t ∧ t.time.IsWhole ∧
      (|(milliseconds t : ℚ) - instant v| ≤ 1 / 2 + roundingError v ↔ ¬ FillsDay v) ∧
      (FillsDay v → milliseconds t = (wholePart v - 1) * dayMilliseconds) := by
  obtain ⟨v, t, hv, ⟨hv1, hv2⟩, ht, hwhole, hms⟩ := toDateTime_of_between hlow hhigh
  refine ⟨v, t, hv, ht, hwhole, ?_, ?_⟩
  · rw [hms]
    constructor
    · intro hnear hfills
      exact absurd hnear (not_le.mpr (lt_abs_sub_instant_of_fillsDay hv1 hfills))
    · intro hfills
      rcases le_or_gt 0 v with h0 | hneg
      · exact abs_sub_instant_of_nonneg h0 hv2
      · exact abs_sub_instant_of_neg hneg hv1 hfills
  · intro hfills
    rw [hms, unfoldNegative_of_fillsDay hv1 hfills]

/-- A day and a quarter, counted back. -/
theorem value?_negFiveQuarters : value? (-1.25 : Float) = some (-(5 / 4)) := by
  have hparts : parts (-1.25 : Float) = .finite true 5629499534213120 (-52) := by decide +kernel
  rw [value?, hparts, Parts.value?]
  norm_num

theorem product_negFiveQuarters : product (-(5 / 4)) = -108000000 := by
  have h := nearest_of_representable (representable_intCast (n := -108000000) (by norm_num))
  norm_num [product] at h ⊢
  exact h

/-- Six in the morning of the day before the epoch. -/
theorem toDateTime_near_instant_before_epoch :
    lowest < -1.25 ∧ (-1.25 : Float) < highest ∧
      ∃ t, toDateTime (-1.25) = .ok t ∧ milliseconds t = -64800000 := by
  have hlow : lowest < -1.25 := by decide +kernel
  have hhigh : (-1.25 : Float) < highest := by decide +kernel
  refine ⟨hlow, hhigh, ?_⟩
  obtain ⟨v, t, hv, ht, -, hnear, -⟩ := toDateTime_near_instant hlow hhigh
  obtain rfl := Option.some.inj (hv.symm.trans value?_negFiveQuarters)
  have hwhole : wholePart (-(5 / 4)) = -1 := by norm_num [wholePart]
  have hinstant : instant (-(5 / 4)) = -64800000 := by norm_num [instant, hwhole, abs_of_neg]
  have herror : roundingError (-(5 / 4)) = 0 := by
    norm_num [roundingError, product_negFiveQuarters, carry, almostHalf, abs_of_neg]
  have hclose := hnear.mpr (by norm_num [FillsDay, product_negFiveQuarters, hwhole])
  rw [hinstant, herror, abs_le] at hclose
  refine ⟨t, ht, ?_⟩
  have hlt : |milliseconds t + 64800000| < 1 := by
    have : |((milliseconds t + 64800000 : ℤ) : ℚ)| < 1 := by
      push_cast
      rw [abs_lt]
      constructor <;> linarith
    exact_mod_cast this
  have := Int.abs_lt_one_iff.mp hlt
  omega

/-- Less than a hundredth of a millisecond before the midnight that ends the day before the epoch:
what is read is the midnight two days before that. -/
theorem exists_midnight_too_early :
    ∃ (x : Float) (v : ℚ) (t : DateTime), lowest < x ∧ x < highest ∧ value? x = some v ∧
      -1 / 100 < instant v ∧ instant v < 0 ∧ toDateTime x = .ok t ∧
      t = .atMidnight ⟨1899, 12, 28, by decide, by decide⟩ ∧
      1 / 2 + roundingError v < |(milliseconds t : ℚ) - instant v| := by
  have hparts : parts (-1.9999999999 : Float) = .finite true 9007199254290632 (-52) := by
    decide +kernel
  have hmilliseconds : nearestMilliseconds (-1.9999999999) = -172800000 := by decide +kernel
  have hsmall := roundingError_le (v := -(9007199254290632 / 2 ^ 52)) (by norm_num [abs_of_neg])
  have hinstant : -1 / 100 < instant (-(9007199254290632 / 2 ^ 52)) ∧
      instant (-(9007199254290632 / 2 ^ 52)) < 0 := by
    norm_num [instant, wholePart, abs_of_neg]
  refine ⟨-1.9999999999, -(9007199254290632 / 2 ^ 52), _, by decide +kernel, by decide +kernel, ?_,
    hinstant.1, hinstant.2, if_pos (by decide +kernel), ?_, ?_⟩
  · rw [value?, hparts, Parts.value?]
    norm_num
  · rw [hmilliseconds]
    decide +kernel
  · rw [milliseconds_ofMilliseconds, hmilliseconds, show unfoldNegative (-172800000) = -172800000 by
      decide, lt_abs]
    refine .inr ?_
    push_cast
    linarith

/-! ## Reading twice -/

/-- A serial that is rounded to a bound of the serials. -/
def MeetsBound (v : ℚ) : Prop :=
  product v ≤ -657435 * 86400000 + 1 / 2 ∨ 2958466 * 86400000 - 1 / 2 ≤ product v

theorem convertible_roundByHalf_iff (hv : |v| ≤ 2958466) :
    Convertible (roundByHalf (product v)) ↔ ¬ MeetsBound v := by
  obtain ⟨hsmall, hsmall'⟩ := abs_lt.mp ((abs_product_le hv).trans_lt
    (by norm_num : (255611462400000 : ℚ) < 2 ^ 48))
  have hlow : -657435 * dayMilliseconds < roundByHalf (product v) ↔
      -657435 * 86400000 + 1 / 2 < product v := by
    have h := le_roundByHalf_iff (n := 657435 * dayMilliseconds) (representable_product v).neg
      (neg_lt.mp hsmall) (by decide)
    rw [roundByHalf_neg, le_neg] at h
    rw [← not_le, ← not_le, neg_mul, h]
    unfold dayMilliseconds
    push_cast
    constructor <;> intro hle <;> linarith
  have hhigh : roundByHalf (product v) < 2958466 * dayMilliseconds ↔
      product v < 2958466 * 86400000 - 1 / 2 := by
    have h := le_roundByHalf_iff (n := 2958466 * dayMilliseconds) (representable_product v)
      hsmall' (by decide)
    rw [← not_le, ← not_le, h]
    norm_num [dayMilliseconds]
  rw [Convertible, MeetsBound, not_or, not_le, not_le, hlow, hhigh]

theorem abs_roundByHalf_product_le (hv : |v| ≤ 2958466) :
    |foldNegative (unfoldNegative (roundByHalf (product v)))| ≤ 2 ^ 53 := by
  have hround := abs_roundByHalf_product_sub_le hv
  have hsmall := roundingError_le hv
  have hbound : |roundByHalf (product v)| ≤ 2 ^ 53 := by
    have : |(roundByHalf (product v) : ℚ)| ≤ (2 ^ 53 : ℤ) := by
      rw [abs_le] at hround hv ⊢
      push_cast
      constructor <;> linarith
    exact_mod_cast this
  rw [foldNegative_unfoldNegative]
  split
  · rwa [abs_neg]
  · exact hbound

/-- What is read of a serial. -/
theorem of_toDateTime (h : toDateTime x = .ok t) :
    ∃ v, value? x = some v ∧ (-657435 < v ∧ v < 2958466) ∧ t.time.IsWhole ∧
      milliseconds t = unfoldNegative (roundByHalf (product v)) := by
  obtain ⟨hlow, hhigh⟩ : lowest < x ∧ x < highest := by
    by_contra hout
    rw [toDateTime, if_neg hout] at h
    cases h
  obtain ⟨v, u, hv, hbetween, hu, hread⟩ := toDateTime_of_between hlow hhigh
  obtain rfl := Except.ok.inj (hu.symm.trans h)
  exact ⟨v, hv, hbetween, hread⟩

/-- The years of the serials are left only by rounding to a bound. -/
theorem year_mem_iff (h : toDateTime x = .ok t) (hv : value? x = some v) :
    (100 ≤ t.date.year ∧ t.date.year ≤ 9999) ↔ ¬ MeetsBound v := by
  obtain ⟨w, hw, hbetween, hwhole, hms⟩ := of_toDateTime h
  obtain rfl := Option.some.inj (hw.symm.trans hv)
  have hyears := convertible_iff hwhole
  rw [hms, convertible_unfoldNegative,
    convertible_roundByHalf_iff (abs_le_of_between hbetween)] at hyears
  exact hyears.symm

/-- A serial that is read as `t` lies between the bounds, and so does its reading, unless rounding
has met one of them. Then `t` is read again from its own serial; it is refused otherwise. -/
theorem toDateTime_stable (h : toDateTime x = .ok t) :
    ∃ v, value? x = some v ∧ t.time.IsWhole ∧
      (¬ MeetsBound v →
        (100 ≤ t.date.year ∧ t.date.year ≤ 9999) ∧ toDateTime (ofDateTime t) = .ok t) ∧
      (MeetsBound v → ¬ (100 ≤ t.date.year ∧ t.date.year ≤ 9999) ∧
        toDateTime (ofDateTime t) = .error (.serialOutOfRange (ofDateTime t))) := by
  obtain ⟨v, hv, hbetween, hwhole, hms⟩ := of_toDateTime h
  have hyears := year_mem_iff h hv
  refine ⟨v, hv, hwhole, fun hmeets => ?_, fun hmeets => ?_⟩
  · exact ⟨hyears.mpr hmeets, toDateTime_ofDateTime hwhole (hyears.mpr hmeets)⟩
  · have hout := hyears.not.mpr (not_not.mpr hmeets)
    refine ⟨hout, toDateTime_ofDateTime_outside hwhole ?_ hout⟩
    rw [hms]
    exact abs_roundByHalf_product_le (abs_le_of_between hbetween)

/-- The last millisecond of the day before the epoch, from a serial that is not its own. -/
theorem toDateTime_stable_before_epoch :
    ∃ t, toDateTime (-1.99999999) = .ok t ∧ t.date = ⟨1899, 12, 29, by decide, by decide⟩ ∧
      ofDateTime t ≠ -1.99999999 ∧ toDateTime (ofDateTime t) = .ok t := by
  have hparts : parts (-1.99999999 : Float) = .finite true 9007199209704996 (-52) := by
    decide +kernel
  have hread : toDateTime (-1.99999999) = .ok ⟨⟨1899, 12, 29, by decide, by decide⟩,
      .ofMilliseconds 86399999⟩ := by
    rw [toDateTime, if_pos (by decide +kernel)]
    exact congrArg Except.ok (by decide +kernel)
  obtain ⟨v, hv, -, hstable, -⟩ := toDateTime_stable hread
  refine ⟨_, hread, rfl, by decide +kernel, (hstable ?_).2⟩
  obtain rfl : v = -(9007199209704996 / 2 ^ 52) := by
    rw [value?, hparts, Parts.value?] at hv
    rw [← Option.some.inj hv]
    norm_num
  have hsmall := abs_le.mp (abs_product_le (v := -(9007199209704996 / 2 ^ 52))
    (by norm_num [abs_of_neg]))
  have herror := abs_le.mp (abs_product_sub_le (v := -(9007199209704996 / 2 ^ 52))
    (by norm_num [abs_of_neg]))
  norm_num [MeetsBound] at herror ⊢
  constructor <;> linarith

/-- The last serial before the upper bound is read as the midnight there: its serial is refused. -/
theorem exists_bound_met :
    ∃ (x : Float) (t : DateTime), lowest < x ∧ x < highest ∧ toDateTime x = .ok t ∧
      t = .atMidnight ⟨10000, 1, 1, by decide, by decide⟩ ∧
      toDateTime (ofDateTime t) = .error (.serialOutOfRange (ofDateTime t)) := by
  refine ⟨2958465.9999999995, _, by decide +kernel, by decide +kernel, if_pos (by decide +kernel),
    by decide +kernel, if_neg (by decide +kernel)⟩

end FormulaEngine.Serial
