import FormulaEngine.Calendar.Serial
import FormulaEngine.Proofs.Binary64.Halves
import FormulaEngine.Proofs.Binary64.Order
import FormulaEngine.Proofs.Binary64.Whole
import FormulaEngine.Proofs.Calendar

/-! # Serials lose nothing

A serial is a quotient that is rounded, and it is read by a product and a sum that are rounded as
well. The three errors together stay below half a millisecond, so that the milliseconds which the
serial was made of are found again, and with them the date-time. -/

namespace FormulaEngine.Serial

open Binary64

/-! ## Milliseconds -/

variable {x : Float} {v : ℚ}

theorem value?_dayMilliseconds : value? (Float.ofInt dayMilliseconds) = some 86400000 := by
  rw [value?_ofInt (by decide)]
  rfl

theorem value?_half : value? (0.5 : Float) = some (1 / 2) := by
  have hparts : parts (0.5 : Float) = .finite false (2 ^ 52) (-53) := by decide +kernel
  rw [value?, hparts, Parts.value?]
  norm_num

theorem value?_negHalf : value? (-0.5 : Float) = some (-(1 / 2)) := value?_neg value?_half

theorem value?_zero : value? (0 : Float) = some 0 :=
  (value?_ofNat (n := 0) (by norm_num)).trans (congrArg some Nat.cast_zero)

/-- A number of days in milliseconds, as the product is rounded. -/
def product (v : ℚ) : ℚ := nearest (v * 86400000)

theorem representable_product (v : ℚ) : Representable (product v) := representable_nearest _

theorem product_neg (v : ℚ) : product (-v) = -product v := by
  rw [product, neg_mul, nearest_neg, product]

theorem abs_product_le (hv : |v| ≤ 2958466) : |product v| ≤ 255611462400000 := by
  have hbound := (representable_intCast (n := 255611462400000) (by norm_num)).abs_nearest_le
    (v := v * 86400000) (by rw [abs_mul]; norm_num; linarith)
  exact_mod_cast hbound

theorem abs_product_sub_le (hv : |v| ≤ 2958466) : |product v - v * 86400000| ≤ 1 / 32 := by
  refine (abs_nearest_sub_le_of_lt (-4) (by norm_num) ?_).trans (by norm_num)
  rw [abs_mul]
  norm_num
  linarith

theorem product_nonneg (hv : 0 ≤ v) : 0 ≤ product v := nearest_nonneg (by linarith)

/-- The sum of the product and one half, on its side of zero, is rounded as well. -/
theorem value?_sum {half : Float} {h : ℚ} (hx : value? x = some v) (hv : |v| ≤ 2958466)
    (hhalf : value? half = some h) (hh : |h| ≤ 1 / 2) :
    value? (x * Float.ofInt dayMilliseconds + half) = some (nearest (product v + h)) ∧
      |nearest (product v + h)| ≤ (2 ^ 49 : ℤ) := by
  have hproduct : |v * 86400000| ≤ 2 ^ 48 := by
    rw [abs_mul]
    norm_num
    linarith
  have hp := (isRounded_mul hx value?_dayMilliseconds).value?_eq hproduct (by norm_num)
  have hsum : |product v + h| ≤ 2 ^ 49 := by
    have := abs_product_le hv
    have := abs_add_le (product v) h
    linarith
  refine ⟨(isRounded_add hp hhalf).value?_eq hsum (by norm_num), ?_⟩
  exact_mod_cast (representable_two_pow 49).abs_nearest_le hsum

/-- The milliseconds that are taken for a serial are found by adding one half to its product. -/
theorem nearestMilliseconds_eq (hx : value? x = some v) (hv : |v| ≤ 2958466) :
    nearestMilliseconds x = roundByHalf (product v) := by
  have hsign : x ≥ 0 ↔ 0 ≤ v := le_iff value?_zero hx
  unfold nearestMilliseconds
  rcases le_or_gt 0 v with hnonneg | hneg
  · obtain ⟨hs, habs⟩ := value?_sum hx hv value?_half (by norm_num)
    have hproduct := product_nonneg hnonneg
    rw [if_pos (hsign.mpr hnonneg), toInt64_of_abs_le hs habs (by decide), wholePart,
      if_neg (not_lt.mpr (nearest_nonneg (by linarith))), roundByHalf_of_nonneg hproduct]
  · obtain ⟨hs, habs⟩ := value?_sum hx hv value?_negHalf (by norm_num)
    have hproduct : 0 ≤ product (-v) := product_nonneg (by linarith)
    have hfold : nearest (product v + -(1 / 2)) = -nearest (product (-v) + 1 / 2) := by
      rw [product_neg, ← nearest_neg]
      congr 1
      ring
    have hpos : 0 < nearest (product (-v) + 1 / 2) :=
      lt_of_lt_of_le (by norm_num) ((representable_two_zpow (k := -1) (by norm_num)).le_nearest
        (by norm_num; linarith))
    rw [if_neg (mt hsign.mp (not_le.mpr hneg)), toInt64_of_abs_le hs habs (by decide), hfold,
      wholePart, if_pos (by linarith), neg_neg, ← roundByHalf_of_nonneg hproduct, product_neg,
      roundByHalf_neg, neg_neg]

/-- What the rounding of the product and of the sum may add to half a millisecond. -/
def roundingError (v : ℚ) : ℚ := |product v - v * 86400000| + carry (product v)

theorem roundingError_le (hv : |v| ≤ 2958466) : roundingError v ≤ 1 / 16 := by
  have hproduct := abs_product_sub_le hv
  have hcarry := carry_le (product v)
  unfold roundingError
  linarith

/-- The milliseconds are nearest to the serial, but for that error. -/
theorem abs_roundByHalf_product_sub_le (hv : |v| ≤ 2958466) :
    |(roundByHalf (product v) : ℚ) - v * 86400000| ≤ 1 / 2 + roundingError v := by
  have hround := abs_roundByHalf_sub_le (representable_product v)
    ((abs_product_le hv).trans_lt (by norm_num))
  have htriangle := abs_sub_le (roundByHalf (product v) : ℚ) (product v) (v * 86400000)
  unfold roundingError
  linarith

theorem abs_nearestMilliseconds_sub_le (hx : value? x = some v) (hv : |v| ≤ 2958466) :
    |(nearestMilliseconds x : ℚ) - v * 86400000| ≤ 9 / 16 := by
  have herror := abs_roundByHalf_product_sub_le hv
  have hsmall := roundingError_le hv
  rw [nearestMilliseconds_eq hx hv]
  linarith

/-! ## Quotients -/

variable {n : ℤ}

theorem value?_quotient (hn : |n| ≤ 2 ^ 53) :
    value? (Float.ofInt n / Float.ofInt dayMilliseconds) = some (nearest (n / 86400000)) := by
  have hnq : |(n : ℚ)| ≤ 2 ^ 53 := by exact_mod_cast hn
  have habs : |(n / 86400000 : ℚ)| ≤ 2 ^ 53 := by
    rw [abs_div, abs_of_pos (by norm_num : (0 : ℚ) < 86400000)]
    linarith [abs_nonneg (n : ℚ)]
  exact (isRounded_div (value?_ofInt hn) value?_dayMilliseconds (by norm_num)).value?_eq habs
    (by norm_num)

/-- The milliseconds that a serial is the quotient of lie strictly between two days. -/
def Convertible (n : ℤ) : Prop := -657435 * dayMilliseconds < n ∧ n < 2958466 * dayMilliseconds

theorem value?_lowest : value? lowest = some (-657435) :=
  value?_neg ((value?_ofNat (n := 657435) (by norm_num)).trans (congrArg some (by norm_num)))

theorem value?_highest : value? highest = some 2958466 :=
  (value?_ofNat (n := 2958466) (by norm_num)).trans (congrArg some (by norm_num))

/-- Rounding moves no quotient over a whole number or onto it. -/
theorem lt_nearest_quotient_iff {k : ℤ} (hk : |k| ≤ 2 ^ 22) :
    (k : ℚ) < nearest (n / 86400000) ↔ k * dayMilliseconds < n := by
  obtain ⟨hlow, hhigh⟩ := abs_le.mp hk
  unfold dayMilliseconds
  constructor
  · contrapose!
    intro hle
    have hle : (n : ℚ) ≤ k * 86400000 := by exact_mod_cast hle
    have hbound : (n / 86400000 : ℚ) ≤ (k : ℤ) := by linarith
    exact (representable_intCast (by omega)).nearest_le hbound
  · intro hlt
    -- next to the number the format has one that lies between it and any other quotient
    have hnext : Representable (k + 2 ^ (-27 : ℤ)) :=
      ⟨k * 2 ^ 27 + 1, -27, by rw [abs_le]; omega, by norm_num, by push_cast; ring⟩
    have hgap : (2 : ℚ) ^ (-27 : ℤ) ≤ 1 / 86400000 := by norm_num
    have hlt : (k * 86400000 + 1 : ℚ) ≤ n := by exact_mod_cast hlt
    have hnearest := hnext.le_nearest (show _ ≤ (n / 86400000 : ℚ) by linarith)
    linarith [two_zpow_pos (-27)]

@[inherit_doc lt_nearest_quotient_iff]
theorem nearest_quotient_lt_iff {k : ℤ} (hk : |k| ≤ 2 ^ 22) :
    nearest (n / 86400000) < (k : ℚ) ↔ n < k * dayMilliseconds := by
  have h := lt_nearest_quotient_iff (n := -n) (k := -k) (by rwa [abs_neg])
  rw [Int.cast_neg, Int.cast_neg, neg_div, nearest_neg, neg_lt_neg_iff] at h
  rw [h]
  unfold dayMilliseconds
  omega

/-- The bounds of the serials are kept as well. -/
theorem inRange_quotient_iff (hn : |n| ≤ 2 ^ 53) :
    (lowest < Float.ofInt n / Float.ofInt dayMilliseconds ∧
      Float.ofInt n / Float.ofInt dayMilliseconds < highest) ↔ Convertible n := by
  have hvalue := value?_quotient hn
  have hlow := lt_nearest_quotient_iff (n := n) (k := -657435) (by norm_num)
  have hhigh := nearest_quotient_lt_iff (n := n) (k := 2958466) (by norm_num)
  push_cast at hlow hhigh
  rw [lt_iff value?_lowest hvalue, lt_iff hvalue value?_highest, hlow, hhigh]
  rfl

/-- The milliseconds are found again. -/
theorem nearestMilliseconds_quotient (h : Convertible n) :
    nearestMilliseconds (Float.ofInt n / Float.ofInt dayMilliseconds) = n := by
  unfold Convertible dayMilliseconds at h
  have hvalue := value?_quotient (n := n) (abs_le.mpr (by omega))
  have hnq : |(n : ℚ)| ≤ 2958466 * 86400000 := by
    have : |n| ≤ 2958466 * 86400000 := abs_le.mpr (by omega)
    exact_mod_cast this
  have habs : |(n / 86400000 : ℚ)| ≤ ((2958466 : ℤ) : ℚ) := by
    rw [abs_div, abs_of_pos (by norm_num : (0 : ℚ) < 86400000), div_le_iff₀ (by norm_num)]
    exact_mod_cast hnq
  have hv := (representable_intCast (n := 2958466) (by norm_num)).abs_nearest_le habs
  have herror : |nearest (n / 86400000) - n / 86400000| ≤ 2 ^ (-31 : ℤ) / 2 :=
    abs_nearest_sub_le_of_lt (-31) (by norm_num) (habs.trans_lt (by norm_num))
  have hread := abs_nearestMilliseconds_sub_le hvalue (by exact_mod_cast hv)
  generalize nearestMilliseconds (Float.ofInt n / Float.ofInt dayMilliseconds) = m at hread
  have hnear : |((m - n : ℤ) : ℚ)| < 1 := by
    push_cast
    norm_num at herror
    rw [abs_le] at herror hread
    rw [abs_lt]
    constructor <;> linarith
  have hzero : |m - n| < 1 := by exact_mod_cast hnear
  have := Int.abs_lt_one_iff.mp hzero
  omega

/-! ## Date-times -/

/-- Before the epoch the time of day counts away from it. -/
theorem foldNegative_eq {d ms : ℤ} (h : 0 ≤ ms ∧ ms < dayMilliseconds) :
    foldNegative (d * dayMilliseconds + ms) =
      if d < 0 then d * dayMilliseconds - ms else d * dayMilliseconds + ms := by
  unfold dayMilliseconds at h
  unfold foldNegative
  by_cases hd : d < 0
  · have hneg : d * dayMilliseconds + ms < 0 := by unfold dayMilliseconds; omega
    rw [if_pos hd, tmod_of_nonpos hneg.le]
    unfold dayMilliseconds
    dsimp only
    split <;> omega
  · rw [if_neg hd, if_neg (by unfold dayMilliseconds; omega)]

variable {t : DateTime}

/-- Milliseconds from the epoch, as days and a time of day. -/
theorem milliseconds_eq (h : t.time.IsWhole) :
    milliseconds t = (t.date.toDays - epochDays) * dayMilliseconds + t.time.milliseconds := by
  have hnanoseconds : t.nanoseconds - epochDays * (86400 * 1000000000) =
      ((t.date.toDays - epochDays) * dayMilliseconds + t.time.milliseconds) * 1000000 := by
    rw [DateTime.nanoseconds, h.nanoseconds_eq]
    unfold dayMilliseconds
    push_cast
    ring
  rw [milliseconds, hnanoseconds, Int.mul_tdiv_cancel _ (by decide)]

theorem foldNegative_milliseconds (h : t.time.IsWhole) :
    ∃ d ms : ℤ, d = t.date.toDays - epochDays ∧ 0 ≤ ms ∧ ms < dayMilliseconds ∧
      foldNegative (milliseconds t) =
        if d < 0 then d * dayMilliseconds - ms else d * dayMilliseconds + ms := by
  have hlt := h.milliseconds_lt
  have hms : 0 ≤ (t.time.milliseconds : ℤ) ∧ (t.time.milliseconds : ℤ) < dayMilliseconds := by
    unfold dayMilliseconds
    unfold TimeOfDay.millisecondsPerDay at hlt
    omega
  exact ⟨_, _, rfl, hms.1, hms.2, by rw [milliseconds_eq h, foldNegative_eq hms]⟩

/-- The serials of the years that can be read are those between the bounds. -/
theorem convertible_iff (h : t.time.IsWhole) :
    Convertible (foldNegative (milliseconds t)) ↔ 100 ≤ t.date.year ∧ t.date.year ≤ 9999 := by
  have hlow := t.date.le_year_iff 100
  have hhigh := t.date.le_year_iff 10000
  rw [show Calendar.daysBeforeYear 100 = 36159 from rfl] at hlow
  rw [show Calendar.daysBeforeYear 10000 = 3652059 from rfl] at hhigh
  obtain ⟨d, ms, hd, hms, hms', hfold⟩ := foldNegative_milliseconds h
  rw [hfold]
  unfold Convertible dayMilliseconds at *
  unfold epochDays at hd
  split <;> omega

theorem abs_foldNegative_le (h : t.time.IsWhole) (hy : 1 ≤ t.date.year ∧ t.date.year ≤ 9999) :
    |foldNegative (milliseconds t)| ≤ 2 ^ 53 := by
  have hlow := t.date.le_year_iff 1
  have hhigh := t.date.le_year_iff 10000
  rw [show Calendar.daysBeforeYear 1 = 0 from rfl] at hlow
  rw [show Calendar.daysBeforeYear 10000 = 3652059 from rfl] at hhigh
  obtain ⟨d, ms, hd, hms, hms', hfold⟩ := foldNegative_milliseconds h
  rw [hfold, abs_le]
  unfold dayMilliseconds at *
  unfold epochDays at hd
  split <;> omega

/-- A date-time that can be read is read from its serial. -/
theorem toDateTime_ofDateTime (h : t.time.IsWhole) (hy : 100 ≤ t.date.year ∧ t.date.year ≤ 9999) :
    toDateTime (ofDateTime t) = .ok t := by
  have hconvertible := (convertible_iff h).mpr hy
  have hrange := (inRange_quotient_iff (abs_foldNegative_le h ⟨by omega, hy.2⟩)).mpr hconvertible
  have hmilliseconds : epochDays * dayMilliseconds + milliseconds t =
      t.date.toDays * TimeOfDay.millisecondsPerDay + t.time.milliseconds := by
    rw [milliseconds_eq h]
    unfold dayMilliseconds TimeOfDay.millisecondsPerDay
    push_cast
    ring
  unfold toDateTime ofDateTime
  rw [if_pos hrange, nearestMilliseconds_quotient hconvertible, unfoldNegative_foldNegative,
    hmilliseconds, DateTime.ofMilliseconds_eq h]

/-- No date-time of the years that can be read is lost, and no two of them have one serial. -/
theorem ofDateTime_lossless :
    (∀ t : DateTime, t.time.IsWhole → 100 ≤ t.date.year ∧ t.date.year ≤ 9999 →
      toDateTime (ofDateTime t) = .ok t) ∧
    Set.InjOn ofDateTime {t | t.time.IsWhole ∧ 100 ≤ t.date.year ∧ t.date.year ≤ 9999} := by
  refine ⟨fun t h hy => toDateTime_ofDateTime h hy, ?_⟩
  rintro t ⟨ht, hyt⟩ u ⟨hu, hyu⟩ heq
  have hread := toDateTime_ofDateTime ht hyt
  rw [heq, toDateTime_ofDateTime hu hyu] at hread
  exact (Except.ok.inj hread).symm

/-- The first and the last millisecond of the day before the epoch. -/
theorem ofDateTime_lossless_before_epoch :
    let first : DateTime := ⟨⟨1899, 12, 29, by decide, by decide⟩, .midnight⟩
    let last : DateTime := ⟨first.date, .ofMilliseconds 86399999⟩
    toDateTime (ofDateTime first) = .ok first ∧ toDateTime (ofDateTime last) = .ok last ∧
      ofDateTime first ≠ ofDateTime last :=
  ⟨ofDateTime_lossless.1 _ (by decide) (by decide), ofDateTime_lossless.1 _ (by decide) (by decide),
    fun h => absurd (ofDateTime_lossless.2 ⟨by decide, by decide⟩ ⟨by decide, by decide⟩ h)
      (by decide)⟩

/-- A leap second has the serial of the second after it, and is read as that second. -/
theorem exists_leap_second_lost :
    ∃ t u : DateTime, t.time.nanosecond % 1000000 = 0 ∧ u.time.IsWhole ∧
      (100 ≤ t.date.year ∧ t.date.year ≤ 9999) ∧ (100 ≤ u.date.year ∧ u.date.year ≤ 9999) ∧
      t ≠ u ∧ ofDateTime t = ofDateTime u ∧ toDateTime (ofDateTime t) = .ok u := by
  let t : DateTime := ⟨⟨2016, 12, 31, by decide, by decide⟩,
    ⟨23, 59, 59, 1000000000, by decide, by decide, by decide, by decide⟩⟩
  let u : DateTime := .atMidnight ⟨2017, 1, 1, by decide, by decide⟩
  have hserial : ofDateTime t = ofDateTime u := by
    have hmilliseconds : milliseconds t = milliseconds u := by decide
    rw [ofDateTime, ofDateTime, hmilliseconds]
  refine ⟨t, u, by decide, by decide, by decide, by decide, by decide, hserial, ?_⟩
  rw [hserial]
  exact toDateTime_ofDateTime (by decide) (by decide)

/-- The other years have serials that cannot be read. -/
theorem toDateTime_ofDateTime_outside (h : t.time.IsWhole)
    (hsmall : |foldNegative (milliseconds t)| ≤ 2 ^ 53)
    (hy : ¬ (100 ≤ t.date.year ∧ t.date.year ≤ 9999)) :
    toDateTime (ofDateTime t) = .error (.serialOutOfRange (ofDateTime t)) := by
  have hrange := (inRange_quotient_iff hsmall).not.mpr ((convertible_iff h).not.mpr hy)
  unfold toDateTime
  rw [if_neg]
  exact hrange

/-- The years before those are among them. -/
theorem toDateTime_ofDateTime_early (h : t.time.IsWhole)
    (hy : 1 ≤ t.date.year ∧ t.date.year < 100) :
    toDateTime (ofDateTime t) = .error (.serialOutOfRange (ofDateTime t)) :=
  toDateTime_ofDateTime_outside h (abs_foldNegative_le h ⟨hy.1, by omega⟩) (by omega)

end FormulaEngine.Serial
