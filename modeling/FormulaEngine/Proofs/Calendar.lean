import FormulaEngine.Calendar.Components

/-! # Dates, their numbers and their components

A date is found again from its day number, and a date-time from its milliseconds, unless it has a
part of a millisecond or lies in a leap second. Components make a date exactly where they are those
of a day. -/

namespace FormulaEngine

namespace Calendar

theorem daysBeforeYear_le {y z : Int} (h : y ≤ z) : daysBeforeYear y ≤ daysBeforeYear z := by
  simp only [daysBeforeYear]
  omega

/-- The year of a day number is the only one that the number lies in. -/
theorem yearOf_eq {y n : Int} (hle : daysBeforeYear y ≤ n) (hlt : n < daysBeforeYear (y + 1)) :
    yearOf n = y := by
  obtain ⟨hle', hlt'⟩ := yearOf_bounds n
  rcases Int.lt_trichotomy (yearOf n) y with h | h | h
  · have := daysBeforeYear_le (show yearOf n + 1 ≤ y by omega)
    omega
  · exact h
  · have := daysBeforeYear_le (show y + 1 ≤ yearOf n by omega)
    omega

theorem monthLength_pos (leap : Bool) (month : Nat) : 1 ≤ monthLength leap month := by
  unfold monthLength
  repeat' split
  all_goals decide

theorem monthLength_le (leap : Bool) (month : Nat) : monthLength leap month ≤ 31 := by
  unfold monthLength
  repeat' split
  all_goals decide

/-- The days of a month lie in the year, and in no other month. -/
theorem monthOf_daysBeforeMonth (leap : Bool) {month day : Nat} (hm : 1 ≤ month ∧ month ≤ 12)
    (hd : 1 ≤ day ∧ day ≤ monthLength leap month) :
    daysBeforeMonth leap month + (day - 1) < yearLength leap ∧
      monthOf leap (daysBeforeMonth leap month + (day - 1)) = month := by
  have all : ∀ m < 12, ∀ d < 31, d + 1 ≤ monthLength leap (m + 1) →
      daysBeforeMonth leap (m + 1) + d < yearLength leap ∧
        monthOf leap (daysBeforeMonth leap (m + 1) + d) = m + 1 := by
    cases leap <;> decide +kernel
  have hlength := monthLength_le leap month
  have h := all (month - 1) (by omega) (day - 1) (by omega)
  rw [Nat.sub_add_cancel hm.1, Nat.sub_add_cancel hd.1] at h
  exact h hd.2

end Calendar

open Calendar

/-- A date is found again from its number. -/
theorem Date.ofDays_toDays (d : Date) : ofDays d.toDays = d := by
  obtain ⟨hinYear, hmonth⟩ := monthOf_daysBeforeMonth (isLeap d.year) d.month_mem d.day_mem
  have hyear : yearOf d.toDays = d.year := by
    refine yearOf_eq (by simp only [toDays]; omega) ?_
    rw [daysBeforeYear_succ]
    simp only [toDays]
    omega
  have hday := d.day_mem
  have hdays : (d.toDays - daysBeforeYear d.year).toNat =
      daysBeforeMonth (isLeap d.year) d.month + (d.day - 1) := by
    simp only [toDays]
    omega
  obtain ⟨year, month, day, hm, hd⟩ := d
  simp only [ofDays, hyear, hdays, hmonth, Date.mk.injEq, true_and]
  omega

theorem Date.toDays_bounds (d : Date) :
    daysBeforeYear d.year ≤ d.toDays ∧ d.toDays < daysBeforeYear (d.year + 1) := by
  have hinYear := (monthOf_daysBeforeMonth (isLeap d.year) d.month_mem d.day_mem).1
  rw [daysBeforeYear_succ]
  simp only [toDays]
  omega

/-- Day numbers tell whether a year has begun. -/
theorem Date.le_year_iff (d : Date) (y : Int) : y ≤ d.year ↔ daysBeforeYear y ≤ d.toDays := by
  have hbounds := d.toDays_bounds
  constructor
  · intro h
    have := daysBeforeYear_le h
    omega
  · intro h
    rcases Int.lt_or_le d.year y with hlt | hge
    · have := daysBeforeYear_le (show d.year + 1 ≤ y by omega)
      omega
    · exact hge

/-- A whole number of milliseconds after midnight, not in a leap second. -/
def TimeOfDay.IsWhole (t : TimeOfDay) : Prop :=
  t.nanosecond < 1000000000 ∧ t.nanosecond % 1000000 = 0

instance (t : TimeOfDay) : Decidable t.IsWhole := inferInstanceAs (Decidable (_ ∧ _))

theorem TimeOfDay.isWhole_midnight : midnight.IsWhole := by decide

theorem TimeOfDay.isWhole_ofMilliseconds (n : Nat) : (ofMilliseconds n).IsWhole := by
  simp only [IsWhole, ofMilliseconds]
  omega

/-- Milliseconds since midnight. -/
def TimeOfDay.milliseconds (t : TimeOfDay) : Nat := t.nanoseconds / 1000000

variable {t : TimeOfDay}

theorem TimeOfDay.IsWhole.nanoseconds_eq (h : t.IsWhole) :
    t.nanoseconds = t.milliseconds * 1000000 := by
  obtain ⟨_, hmod⟩ := h
  simp only [milliseconds, nanoseconds]
  omega

theorem TimeOfDay.IsWhole.milliseconds_lt (h : t.IsWhole) :
    t.milliseconds < millisecondsPerDay := by
  obtain ⟨hlt, _⟩ := h
  have := t.hour_lt
  have := t.minute_lt
  have := t.second_lt
  simp only [milliseconds, nanoseconds, millisecondsPerDay]
  omega

theorem TimeOfDay.IsWhole.ofMilliseconds_milliseconds (h : t.IsWhole) :
    ofMilliseconds t.milliseconds = t := by
  obtain ⟨hlt, hmod⟩ := h
  obtain ⟨hour, minute, second, nanosecond, hh, hm, hs, hn⟩ := t
  simp only [ofMilliseconds, milliseconds, nanoseconds, TimeOfDay.mk.injEq] at *
  omega

/-- A date-time is found again from its milliseconds. -/
theorem DateTime.ofMilliseconds_eq {t : DateTime} (h : t.time.IsWhole) :
    ofMilliseconds (t.date.toDays * TimeOfDay.millisecondsPerDay + t.time.milliseconds) = t := by
  have hlt := h.milliseconds_lt
  have hdays : (t.date.toDays * TimeOfDay.millisecondsPerDay + t.time.milliseconds) /
      TimeOfDay.millisecondsPerDay = t.date.toDays := by
    simp only [TimeOfDay.millisecondsPerDay] at *
    omega
  have htime : ((t.date.toDays * TimeOfDay.millisecondsPerDay + t.time.milliseconds) %
      TimeOfDay.millisecondsPerDay).toNat = t.time.milliseconds := by
    simp only [TimeOfDay.millisecondsPerDay] at *
    omega
  rw [ofMilliseconds, hdays, htime, Date.ofDays_toDays, h.ofMilliseconds_milliseconds]

/-! ## Components -/

/-- The components of a day of the years 1 to 9999. -/
structure IsDay (year month day : Int) : Prop where
  year_mem : 1 ≤ year ∧ year ≤ 9999
  month_mem : 1 ≤ month ∧ month ≤ 12
  day_mem : 1 ≤ day ∧ day ≤ monthLength (isLeap year) month.toNat

/-- The components of a full second of a day. -/
structure IsSecond (hour minute second : Int) : Prop where
  hour_mem : 0 ≤ hour ∧ hour < 24
  minute_mem : 0 ≤ minute ∧ minute < 60
  second_mem : 0 ≤ second ∧ second < 60

instance (year month day : Int) : Decidable (IsDay year month day) :=
  decidable_of_iff (_ ∧ _ ∧ _) ⟨fun ⟨y, m, d⟩ => ⟨y, m, d⟩, fun ⟨y, m, d⟩ => ⟨y, m, d⟩⟩

instance (hour minute second : Int) : Decidable (IsSecond hour minute second) :=
  decidable_of_iff (_ ∧ _ ∧ _) ⟨fun ⟨h, m, s⟩ => ⟨h, m, s⟩, fun ⟨h, m, s⟩ => ⟨h, m, s⟩⟩

/-- A date has these components. -/
def Date.Has (t : Date) (year month day : Int) : Prop :=
  t.year = year ∧ t.month = month ∧ t.day = day

theorem Date.ofComponents_eq_ok {y m d : Int} (h : IsDay y m d) :
    ∃ t : Date, ofComponents y m d = .ok t ∧ t.Has y m d := by
  obtain ⟨hy, hm, hd⟩ := h
  have hday : (1 ≤ m.toNat ∧ m.toNat ≤ 12) ∧
      1 ≤ d.toNat ∧ d.toNat ≤ monthLength (isLeap y) m.toNat := by omega
  refine ⟨⟨y, m.toNat, d.toNat, hday.1, hday.2⟩, ?_, rfl, ?_, ?_⟩
  · simp only [ofComponents, of?, dif_pos hday, if_pos (show _ ∧ _ ∧ _ ∧ _ from
      ⟨hy.1, hy.2, hm.1, hd.1⟩)]
  · exact Int.toNat_of_nonneg (by omega)
  · exact Int.toNat_of_nonneg (by omega)

theorem Date.ofComponents_eq_error {y m d : Int} (h : ¬ IsDay y m d) :
    ofComponents y m d = .error (.noSuchDate y m d) := by
  unfold ofComponents
  split
  · rename_i hbounds
    have hday : ¬ ((1 ≤ m.toNat ∧ m.toNat ≤ 12) ∧
        1 ≤ d.toNat ∧ d.toNat ≤ monthLength (isLeap y) m.toNat) := by
      intro hday
      exact h ⟨by omega, by omega, by omega⟩
    rw [of?, dif_neg hday]
  · rfl

theorem DateTime.ofComponents_eq_ok {y m d h mi s : Int} (hday : IsDay y m d)
    (htime : IsSecond h mi s) :
    ∃ t : DateTime, ofComponents y m d h mi s = .ok t ∧ t.date.Has y m d ∧ t.time.IsWhole := by
  obtain ⟨date, hdate, hhas⟩ := Date.ofComponents_eq_ok hday
  obtain ⟨hh, hmi, hs⟩ := htime
  have hsecond : h.toNat < 24 ∧ mi.toNat < 60 ∧ s.toNat < 60 ∧ 0 < 2000000000 := by omega
  refine ⟨⟨date, ⟨h.toNat, mi.toNat, s.toNat, 0, hsecond.1, hsecond.2.1, hsecond.2.2.1,
    hsecond.2.2.2⟩⟩, ?_, hhas, by simp [TimeOfDay.IsWhole]⟩
  rw [ofComponents, hdate]
  show (if _ then _ else _) = _
  rw [if_pos ⟨hh.1, hmi.1, hs.1⟩, TimeOfDay.of?, dif_pos hsecond]

theorem DateTime.ofComponents_eq_error {y m d h mi s : Int}
    (hinvalid : ¬ (IsDay y m d ∧ IsSecond h mi s)) :
    ∃ e, ofComponents y m d h mi s = .error e := by
  by_cases hday : IsDay y m d
  · obtain ⟨date, hdate, _⟩ := Date.ofComponents_eq_ok hday
    refine ⟨.noSuchTime h mi s, ?_⟩
    rw [ofComponents, hdate]
    show (if _ then _ else _) = _
    split
    · rename_i hnonneg
      have hsecond : ¬ (h.toNat < 24 ∧ mi.toNat < 60 ∧ s.toNat < 60 ∧ 0 < 2000000000) := by
        intro hsecond
        exact hinvalid ⟨hday, by omega, by omega, by omega⟩
      rw [TimeOfDay.of?, dif_neg hsecond]
    · rfl
  · exact ⟨_, by rw [ofComponents, Date.ofComponents_eq_error hday]; rfl⟩

end FormulaEngine
