import FormulaEngine.Proofs.Comparisons
import FormulaEngine.Proofs.Dates
import FormulaEngine.Proofs.Periods
import FormulaEngine.Proofs.Trees

/-! # Dates in the order of their serials

From the epoch on the serials of full seconds are in the order of time. Rounded to the format, two
of them are further apart than the band of five decimals or more, so that no comparison takes one
second for another one. -/

namespace FormulaEngine

open Binary64

/-! ## The order of time -/

/-- The day of serial zero. -/
def Serial.epoch : Date := ⟨1899, 12, 30, by decide, by decide⟩

theorem Serial.toDays_epoch : epoch.toDays = epochDays := by decide +kernel

/-- Days are counted in the order of their dates. -/
theorem Date.toDays_lt_iff {d e : Date} : d.toDays < e.toDays ↔
    d.year < e.year ∨ d.year = e.year ∧
      (d.month < e.month ∨ d.month = e.month ∧ d.day < e.day) := by
  have hle : (e.year < d.year ∨
      e.year = d.year ∧ (e.month < d.month ∨ e.month = d.month ∧ e.day ≤ d.day)) ↔
        e.toDays ≤ d.toDays := Date.le_iff_toDays
  omega

namespace TimeOfDay

/-- Full seconds since midnight. -/
def seconds (t : TimeOfDay) : ℤ := (t.hour * 60 + t.minute) * 60 + t.second

theorem seconds_mem (t : TimeOfDay) : 0 ≤ t.seconds ∧ t.seconds < 86400 := by
  have := t.hour_lt
  have := t.minute_lt
  have := t.second_lt
  unfold seconds
  omega

theorem isSecond (t : TimeOfDay) : IsSecond t.hour t.minute t.second := by
  have := t.hour_lt
  have := t.minute_lt
  have := t.second_lt
  exact ⟨by omega, by omega, by omega⟩

/-- The seconds follow the hands of the clock. -/
theorem seconds_lt_iff {t u : TimeOfDay} : t.seconds < u.seconds ↔
    t.hour < u.hour ∨ t.hour = u.hour ∧
      (t.minute < u.minute ∨ t.minute = u.minute ∧ t.second < u.second) := by
  have := t.minute_lt
  have := t.second_lt
  have := u.minute_lt
  have := u.second_lt
  unfold seconds
  omega

end TimeOfDay

namespace DateTime

variable {t u : DateTime}

/-- The numbers that a date-time is written with, from the year to the second. -/
def components (t : DateTime) : List ℤ :=
  [t.date.year, t.date.month, t.date.day, t.time.hour, t.time.minute, t.time.second]

/-- Full seconds since the epoch of the serials. -/
def seconds (t : DateTime) : ℤ := (t.date.toDays - Serial.epochDays) * 86400 + t.time.seconds

/-- Later in the list of components is later in time. -/
theorem components_lt_iff : t.components < u.components ↔ t.seconds < u.seconds := by
  have hdate := Date.toDays_lt_iff (d := t.date) (e := u.date)
  have hdate' := Date.toDays_lt_iff (d := u.date) (e := t.date)
  have htime := TimeOfDay.seconds_lt_iff (t := t.time) (u := u.time)
  have ht := t.time.seconds_mem
  have hu := u.time.seconds_mem
  simp only [components, seconds, List.cons_lt_cons_iff, List.lt_irrefl, and_false, or_false,
    Int.ofNat_lt, Int.natCast_inj]
  omega

/-- A full second of the years up to 9999, from the epoch of the serials on. -/
structure IsCounted (t : DateTime) : Prop where
  full : t.time.nanosecond = 0
  from_epoch : Serial.epoch ≤ t.date
  year_le : t.date.year ≤ 9999

namespace IsCounted

theorem eq_iff (ht : t.IsCounted) (hu : u.IsCounted) : t = u ↔ t.seconds = u.seconds := by
  refine ⟨congrArg seconds, fun h => ?_⟩
  have hlt := t.time.seconds_mem
  have hlt' := u.time.seconds_mem
  have hdate : t.date = u.date := Date.toDays_injective (by unfold seconds at h; omega)
  have htime : t.time.seconds = u.time.seconds := by
    rw [seconds, seconds, hdate] at h
    omega
  obtain ⟨date, hour, minute, second, nanosecond, h₁, h₂, h₃, h₄⟩ := t
  obtain ⟨date', hour', minute', second', nanosecond', h₁', h₂', h₃', h₄'⟩ := u
  obtain rfl : nanosecond = 0 := ht.full
  obtain rfl : nanosecond' = 0 := hu.full
  obtain rfl : date = date' := hdate
  simp only [TimeOfDay.seconds] at htime
  simp only [mk.injEq, TimeOfDay.mk.injEq, true_and, and_true]
  omega

theorem isDay (h : t.IsCounted) : IsDay t.date.year t.date.month t.date.day := by
  have hlow := Date.le_iff_toDays.mp h.from_epoch
  rw [Serial.toDays_epoch, Serial.epochDays] at hlow
  have hyear := t.date.le_year_iff 1
  rw [show Calendar.daysBeforeYear 1 = 0 from rfl] at hyear
  have hmonth := t.date.month_mem
  have hday := t.date.day_mem
  exact ⟨⟨by omega, h.year_le⟩, by omega, by rw [Int.toNat_natCast]; omega⟩

/-- The date-time is made of its components. -/
theorem ofComponents_components (h : t.IsCounted) :
    ofComponents t.date.year t.date.month t.date.day t.time.hour t.time.minute t.time.second =
      .ok t := by
  have hyear := h.isDay.year_mem
  have hfull := h.full
  obtain ⟨⟨year, month, day, hm, hd⟩, hour, minute, second, nanosecond, h₁, h₂, h₃, h₄⟩ := t
  obtain rfl : nanosecond = 0 := hfull
  have hdate : Date.ofComponents year month day = .ok ⟨year, month, day, hm, hd⟩ := by
    rw [Date.ofComponents, if_pos ⟨hyear.1, hyear.2, by omega, by omega⟩]
    simp only [Int.toNat_natCast, Date.of?, dif_pos (And.intro hm hd)]
  have htime : TimeOfDay.of? hour minute second 0 =
      some ⟨hour, minute, second, 0, h₁, h₂, h₃, h₄⟩ := dif_pos ⟨h₁, h₂, h₃, h₄⟩
  simp only [ofComponents, hdate, Except.bind, bind, Int.toNat_natCast, htime]
  exact if_pos ⟨by omega, by omega, by omega⟩

/-- Seconds are counted from zero to the end of the year 9999. -/
theorem seconds_mem (h : t.IsCounted) : 0 ≤ t.seconds ∧ t.seconds < 2958466 * 86400 := by
  have hlow := Date.le_iff_toDays.mp h.from_epoch
  have hhigh := t.date.le_year_iff 10000
  rw [show Calendar.daysBeforeYear 10000 = 3652059 from rfl] at hhigh
  rw [Serial.toDays_epoch] at hlow
  have hyear := h.year_le
  have htime := t.time.seconds_mem
  unfold seconds Serial.epochDays at *
  omega

theorem milliseconds_eq (h : t.IsCounted) : Serial.milliseconds t = 1000 * t.seconds := by
  have hwhole : t.time.IsWhole := by simp [TimeOfDay.IsWhole, h.full]
  have htime : (t.time.milliseconds : ℤ) = 1000 * t.time.seconds := by
    simp only [TimeOfDay.milliseconds, TimeOfDay.nanoseconds, h.full, TimeOfDay.seconds]
    omega
  rw [Serial.milliseconds_eq hwhole, htime, seconds, Serial.dayMilliseconds]
  ring

/-- What the serial is worth: the seconds in days, rounded. -/
theorem value?_ofDateTime (h : t.IsCounted) :
    value? (Serial.ofDateTime t) = some (nearest (t.seconds / 86400)) := by
  have hmem := h.seconds_mem
  have hfold : Serial.foldNegative (Serial.milliseconds t) = 1000 * t.seconds := by
    rw [h.milliseconds_eq, Serial.foldNegative, if_neg (by omega)]
  have hsmall : |1000 * t.seconds| ≤ 2 ^ 53 := by
    rw [abs_le]
    omega
  rw [Serial.ofDateTime, hfold, Serial.value?_quotient hsmall]
  push_cast
  congr 2
  ring

end IsCounted

end DateTime

/-! ## Seconds and bands -/

namespace Tolerance

/-- Serials of different seconds differ by more than this, however they are rounded. -/
def gap : ℚ := 3 * 2 ^ (-18 : ℤ)

theorem gap_le_sub {k l : ℤ} (hk : 0 ≤ k) (hkl : k < l) (hl : l < 2958466 * 86400) :
    gap ≤ nearest (l / 86400) - nearest (k / 86400) := by
  have herror : ∀ n : ℤ, 0 ≤ n → n < 2958466 * 86400 →
      |nearest (n / 86400) - n / 86400| ≤ 2 ^ (-31 : ℤ) / 2 := by
    intro n hn hlt
    have hn : (0 : ℚ) ≤ n := by exact_mod_cast hn
    have hlt : (n : ℚ) < 2958466 * 86400 := by exact_mod_cast hlt
    refine abs_nearest_sub_le_of_lt (-31) (by norm_num) ?_
    rw [abs_of_nonneg (by positivity), div_lt_iff₀ (by norm_num)]
    norm_num
    linarith
  have hstep : (k : ℚ) + 1 ≤ l := by exact_mod_cast hkl
  have hlow := abs_le.mp (herror k hk (by omega))
  have hhigh := abs_le.mp (herror l (by omega) hl)
  norm_num [gap] at *
  linarith

theorem gap_pos : 0 < gap := by norm_num [gap]

theorem representable_gap : Representable gap := ⟨3, -18, by norm_num, by norm_num, rfl⟩

/-- The band of five decimals is narrower, and so are those of more. -/
theorem bandValue_lt_gap {n : ℕ} (h : 5 ≤ n) : bandValue n < gap := by
  obtain ⟨v, hv, hv₁, -, hlower⟩ := near_naturalPower_ten (n := 5) (by norm_num)
  have hrepresentable : Representable (11 * 2 ^ (-20 : ℤ)) :=
    ⟨11, -20, by norm_num, by norm_num, by norm_num⟩
  have hquotient : 1 / v ≤ 11 * 2 ^ (-20 : ℤ) := by
    have hslack := slack_pow_le (n := 5) (by norm_num)
    rw [div_le_iff₀ (by linarith)]
    norm_num [slack] at *
    linarith
  calc bandValue n ≤ bandValue 5 := bandValue_antitone h
    _ ≤ unitValue 5 := bandValue_le_unitValue 5
    _ = nearest (1 / v) := unitValue_of_value? hv
    _ ≤ 11 * 2 ^ (-20 : ℤ) := hrepresentable.nearest_le hquotient
    _ < gap := by norm_num [gap]

variable {p : Tolerance} {t u : DateTime}

/-- The serials are in the order of the seconds. -/
theorem serial_lt_iff (ht : t.IsCounted) (hu : u.IsCounted) :
    Serial.ofDateTime t < Serial.ofDateTime u ↔ t.seconds < u.seconds := by
  rw [lt_iff ht.value?_ofDateTime hu.value?_ofDateTime]
  constructor
  · intro hlt
    by_contra hnot
    have hle : (u.seconds : ℚ) ≤ t.seconds := by exact_mod_cast not_lt.mp hnot
    have hmono : nearest (u.seconds / 86400) ≤ nearest (t.seconds / 86400) :=
      nearest_mono (by linarith)
    linarith
  · intro hlt
    have := gap_le_sub ht.seconds_mem.1 hlt hu.seconds_mem.2
    linarith [gap_pos]

/-- Only a second that is the same is in the band. -/
theorem equal_serials_iff (hp : 5 ≤ p.decimals.toNat ∧ p.decimals.toNat ≤ 300)
    (ht : t.IsCounted) (hu : u.IsCounted) :
    p.equal (Serial.ofDateTime t) (Serial.ofDateTime u) = true ↔ t = u := by
  have hband := bandValue_lt_gap hp.1
  rw [equal_iff (value?_band (by omega)) ht.value?_ofDateTime hu.value?_ofDateTime, ht.eq_iff hu]
  rcases lt_trichotomy t.seconds u.seconds with hlt | heq | hgt
  · have hgap := representable_gap.le_nearest
      (gap_le_sub ht.seconds_mem.1 hlt hu.seconds_mem.2)
    have habs := le_abs_self (nearest (nearest (u.seconds / 86400) - nearest (t.seconds / 86400)))
    rw [← neg_sub, nearest_neg, abs_neg]
    exact iff_of_false (by linarith) hlt.ne
  · rw [heq, sub_self, nearest_zero, abs_zero]
    exact iff_of_true (bandValue_nonneg _) rfl
  · have hgap := representable_gap.le_nearest
      (gap_le_sub hu.seconds_mem.1 hgt ht.seconds_mem.2)
    have habs := le_abs_self (nearest (nearest (t.seconds / 86400) - nearest (u.seconds / 86400)))
    exact iff_of_false (by linarith) hgt.ne'

end Tolerance

/-! ## Formulas -/

namespace Surroundings

variable {s : Surroundings} {t u : DateTime} {ts us : List Text}

/-- The serial is built from the components. -/
theorem result_todatetime (ht : t.IsCounted) (hts : s.DenoteWhole ts t.components) :
    (s.evalNumber (Text.call "todatetime".toList ts)).result = .ok (Serial.ofDateTime t) := by
  have hstandalone := hts.standalone
  obtain ⟨ey, em, ed⟩ := acceptsSmall_isDay.taken_eq (.inl ht.isDay)
  obtain ⟨eh, emi, esec⟩ := acceptsSmall_isSecond.taken_eq (.inl t.time.isSecond)
  obtain _ | ⟨hy, _ | ⟨hm, _ | ⟨hd, _ | ⟨hh, _ | ⟨hmi, _ | ⟨hsec, ⟨⟩⟩⟩⟩⟩⟩⟩ := hts
  refine result_of_calls Intrinsic.calls_todatetime hstandalone rfl ?_
  rw [Intrinsic.result_fromDateTimeParts (c := s.ambient) hy.value hm.value hd.value hh.value
    hmi.value hsec.value, ey, em, ed, eh, emi, esec, ht.ofComponents_components]
  rfl

/-- Comparing the serials of two full seconds compares the seconds in time, with five decimals or
more. -/
theorem compares_chronologically (hp : 5 ≤ s.tolerance.decimals.toNat)
    (hp' : s.tolerance.decimals.toNat ≤ 300) (ht : t.IsCounted) (hu : u.IsCounted)
    (hts : s.DenoteWhole ts t.components) (hus : s.DenoteWhole us u.components) :
    ∃ a b, (s.evalNumber (Text.call "todatetime".toList ts)).result = .ok a ∧
      (s.evalNumber (Text.call "todatetime".toList us)).result = .ok b ∧
      ∀ (n : ℕ) (x y : Tree .number), (s.evalNumber (x.print n)).result = .ok a →
        (s.evalNumber (y.print n)).result = .ok b → ∀ o : SpelledOperator,
          let holds := (s.evalNumber ((Tree.binary o x y).print n)).result = .ok 1
          (o.operator = .less → (holds ↔ t.components < u.components)) ∧
            (o.operator = .equal → (holds ↔ t = u)) ∧
            (o.operator = .greater → (holds ↔ u.components < t.components)) := by
  refine ⟨_, _, result_todatetime ht hts, result_todatetime hu hus, fun n x y hx hy o => ?_⟩
  have hequal := Tolerance.equal_serials_iff ⟨hp, hp'⟩ ht hu
  have hsame := ht.eq_iff hu
  simp only [result_printBinary o hx hy, Except.ok.injEq, DateTime.components_lt_iff]
  refine ⟨fun ho => ?_, fun ho => ?_, fun ho => ?_⟩
  · rw [ho, InfixOperator.apply, truthValue_eq_one, Tolerance.less, Bool.and_eq_true,
      decide_eq_true_eq, Tolerance.serial_lt_iff ht hu, Bool.not_eq_true', ← Bool.not_eq_true,
      hequal, hsame]
    omega
  · rw [ho, InfixOperator.apply, truthValue_eq_one]
    exact hequal
  · rw [ho, InfixOperator.apply, truthValue_eq_one, Tolerance.greater, Bool.and_eq_true,
      decide_eq_true_eq, gt_iff_lt, Tolerance.serial_lt_iff hu ht, Bool.not_eq_true',
      ← Bool.not_eq_true, hequal, hsame]
    omega

/-- The last second of a February without its leap day, and the first second of that day. -/
theorem compares_chronologically_leap_day :
    let s := initial {}
    ∃ a b, (s.evalNumber "todatetime(2024, 2, 28, 23, 59, 59)".toList).result = .ok a ∧
      (s.evalNumber "todatetime(2024, 2, 29, 0, 0, 0)".toList).result = .ok b ∧
      ∀ (n : ℕ) (x y : Tree .number), (s.evalNumber (x.print n)).result = .ok a →
        (s.evalNumber (y.print n)).result = .ok b → ∀ o : SpelledOperator, o.operator = .less →
          (s.evalNumber ((Tree.binary o x y).print n)).result = .ok 1 := by
  intro s
  let t : DateTime := ⟨⟨2024, 2, 28, by decide, by decide⟩,
    ⟨23, 59, 59, 0, by decide, by decide, by decide, by decide⟩⟩
  let u : DateTime := .atMidnight ⟨2024, 2, 29, by decide, by decide⟩
  have hts : s.DenoteWhole ["2024".toList, "2".toList, "28".toList, "23".toList, "59".toList,
      "59".toList] t.components :=
    .cons ⟨.of_marks (by decide) (by decide), by decide +kernel⟩ <|
    .cons ⟨.of_marks (by decide) (by decide), by decide +kernel⟩ <|
    .cons ⟨.of_marks (by decide) (by decide), by decide +kernel⟩ <|
    .cons ⟨.of_marks (by decide) (by decide), by decide +kernel⟩ <|
    .cons ⟨.of_marks (by decide) (by decide), by decide +kernel⟩ <|
    .cons ⟨.of_marks (by decide) (by decide), by decide +kernel⟩ <|
    .nil
  have hus : s.DenoteWhole ["2024".toList, "2".toList, "29".toList, "0".toList, "0".toList,
      "0".toList] u.components :=
    .cons ⟨.of_marks (by decide) (by decide), by decide +kernel⟩ <|
    .cons ⟨.of_marks (by decide) (by decide), by decide +kernel⟩ <|
    .cons ⟨.of_marks (by decide) (by decide), by decide +kernel⟩ <|
    .cons ⟨.of_marks (by decide) (by decide), by decide +kernel⟩ <|
    .cons ⟨.of_marks (by decide) (by decide), by decide +kernel⟩ <|
    .cons ⟨.of_marks (by decide) (by decide), by decide +kernel⟩ <|
    .nil
  obtain ⟨a, b, ha, hb, hcompares⟩ := compares_chronologically (t := t) (u := u) (by decide)
    (by decide) ⟨rfl, by decide, by decide⟩ ⟨rfl, by decide, by decide⟩ hts hus
  exact ⟨a, b, ha, hb, fun n x y hx hy o ho => ((hcompares n x y hx hy o).1 ho).mpr (by decide)⟩

end Surroundings

end FormulaEngine
