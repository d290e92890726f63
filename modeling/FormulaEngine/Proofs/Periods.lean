import FormulaEngine.Proofs.Calendar

/-! # Weeks and months

The days of a week, whichever day it begins with, are the seven from its start on, and the days of a
month those from its first to its last. A month ends where the next one begins. Every month has the
days that are looked for in it, so the date itself, which stands in for a missing one, is never
taken. -/

namespace FormulaEngine

namespace Calendar

/-- Every fourth year is a leap year, but of the full centuries only every fourth. -/
def IsLeapYear (year : Int) : Prop := 4 ∣ year ∧ (100 ∣ year → 400 ∣ year)

instance (year : Int) : Decidable (IsLeapYear year) := inferInstanceAs (Decidable (_ ∧ _))

/-- The lengths of the months of a year. -/
def monthLengths (year : Int) : List Nat :=
  [31, if IsLeapYear year then 29 else 28, 31, 30, 31, 30, 31, 31, 30, 31, 30, 31]

theorem isLeap_iff {year : Int} : isLeap year = true ↔ IsLeapYear year := by
  simp only [isLeap, IsLeapYear, Bool.or_eq_true, Bool.and_eq_true, beq_iff_eq, bne_iff_ne, ne_eq]
  omega

theorem getElem?_monthLengths (year : Int) {month : Nat} (hm : 1 ≤ month ∧ month ≤ 12) :
    (monthLengths year)[month - 1]? = some (monthLength (isLeap year) month) := by
  have hleap : monthLengths year =
      [31, if isLeap year then 29 else 28, 31, 30, 31, 30, 31, 31, 30, 31, 30, 31] := by
    simp only [monthLengths, isLeap_iff]
  have all : ∀ leap : Bool, ∀ m < 12,
      [31, if leap then 29 else 28, 31, 30, 31, 30, 31, 31, 30, 31, 30, 31][m]? =
        some (monthLength leap (m + 1)) := by
    decide
  have hmonth := all (isLeap year) (month - 1) (by omega)
  rw [Nat.sub_add_cancel hm.1] at hmonth
  rw [hleap, hmonth]

theorem daysBeforeMonth_succ (leap : Bool) {month : Nat} (h : 1 ≤ month) :
    daysBeforeMonth leap (month + 1) = daysBeforeMonth leap month + monthLength leap month := by
  obtain ⟨m, rfl⟩ := Nat.exists_eq_add_of_le' h
  rfl

theorem daysBeforeMonth_mono (leap : Bool) {m n : Nat} (hm : 1 ≤ m) (h : m ≤ n) :
    daysBeforeMonth leap m ≤ daysBeforeMonth leap n := by
  induction h with
  | refl => exact Nat.le_refl _
  | step h ih =>
    rw [daysBeforeMonth_succ leap (Nat.le_trans hm h)]
    omega

/-- The last month ends with the year. -/
theorem daysBeforeMonth_december (leap : Bool) :
    daysBeforeMonth leap 12 + monthLength leap 12 = yearLength leap := by
  cases leap <;> rfl

end Calendar

namespace Date

open Calendar

variable {d e : Date} {first : Weekday}

theorem toDays_injective (h : d.toDays = e.toDays) : d = e := by
  rw [← ofDays_toDays d, h, ofDays_toDays]

/-! ## The order of dates -/

/-- Dates in order: by their years, then by their months, then by their days. -/
instance : LE Date where
  le d e := d.year < e.year ∨
    d.year = e.year ∧ (d.month < e.month ∨ d.month = e.month ∧ d.day ≤ e.day)

instance (d e : Date) : Decidable (d ≤ e) := inferInstanceAs (Decidable (_ ∨ _))

theorem toDays_lt_of_year_lt (h : d.year < e.year) : d.toDays < e.toDays := by
  have hyear := daysBeforeYear_le (show d.year + 1 ≤ e.year by omega)
  have := d.toDays_bounds
  have := e.toDays_bounds
  omega

theorem toDays_lt_of_month_lt (hyear : d.year = e.year) (h : d.month < e.month) :
    d.toDays < e.toDays := by
  have hmono := daysBeforeMonth_mono (isLeap d.year) (m := d.month + 1) (by omega) h
  rw [daysBeforeMonth_succ _ d.month_mem.1] at hmono
  have := d.day_mem
  simp only [toDays, ← hyear]
  omega

theorem toDays_le_iff_of_month_eq (hyear : d.year = e.year) (hmonth : d.month = e.month) :
    d.toDays ≤ e.toDays ↔ d.day ≤ e.day := by
  have := d.day_mem
  have := e.day_mem
  simp only [toDays, ← hyear, ← hmonth]
  omega

/-- The numbers of the days follow the order of the dates. -/
theorem le_iff_toDays : d ≤ e ↔ d.toDays ≤ e.toDays := by
  show (d.year < e.year ∨ d.year = e.year ∧
    (d.month < e.month ∨ d.month = e.month ∧ d.day ≤ e.day)) ↔ _
  rcases Int.lt_trichotomy d.year e.year with hyear | hyear | hyear
  · have := toDays_lt_of_year_lt hyear
    omega
  · rcases Nat.lt_trichotomy d.month e.month with hmonth | hmonth | hmonth
    · have := toDays_lt_of_month_lt hyear hmonth
      omega
    · have := toDays_le_iff_of_month_eq hyear hmonth
      omega
    · have := toDays_lt_of_month_lt hyear.symm hmonth
      omega
  · have := toDays_lt_of_year_lt hyear
    omega

/-! ## Weeks -/

theorem toNat_weekday (d : Date) : (d.weekday.toNat : Int) = d.toDays % 7 := by
  rw [weekday, Weekday.toNat_nth]
  omega

theorem weekday_eq_iff : d.weekday = first ↔ d.toDays % 7 = first.toNat := by
  rw [← toNat_weekday, Int.natCast_inj]
  constructor
  · exact congrArg Weekday.toNat
  · intro h
    rw [← Weekday.nth_toNat d.weekday, h, Weekday.nth_toNat]

/-- The start of a week is as many days back as there are from the first weekday to this one. -/
theorem toDays_startOfWeek (d : Date) (first : Weekday) :
    (d.startOfWeek first).toDays = d.toDays - (d.toDays - first.toNat) % 7 := by
  have hweekday := toNat_weekday d
  have hlt := first.toNat_lt
  rw [startOfWeek, toDays_ofDays]
  omega

/-- It is the only day with the first weekday among the date and the six days before it. -/
theorem eq_startOfWeek_iff :
    e = d.startOfWeek first ↔ e.weekday = first ∧ d.toDays - 6 ≤ e.toDays ∧ e ≤ d := by
  have hstart := toDays_startOfWeek d first
  have hlt := first.toNat_lt
  rw [weekday_eq_iff, le_iff_toDays]
  constructor
  · rintro rfl
    omega
  · intro h
    exact toDays_injective (by omega)

/-- The dates with the same start of the week are the seven from it on. -/
theorem startOfWeek_eq_iff : e.startOfWeek first = d.startOfWeek first ↔
    d.startOfWeek first ≤ e ∧ e.toDays ≤ (d.startOfWeek first).toDays + 6 := by
  have hd := toDays_startOfWeek d first
  have he := toDays_startOfWeek e first
  rw [le_iff_toDays]
  constructor
  · intro h
    rw [h] at he
    omega
  · intro h
    exact toDays_injective (by omega)

theorem startOfWeek_mono (h : d ≤ e) : d.startOfWeek first ≤ e.startOfWeek first := by
  rw [le_iff_toDays] at *
  rw [toDays_startOfWeek, toDays_startOfWeek]
  omega

/-! ## Months -/

/-- The first day of the following month. -/
def followingMonth (d : Date) : Date :=
  if h : d.month = 12 then ⟨d.year + 1, 1, 1, by decide, Nat.le_refl 1, monthLength_pos _ _⟩
  else ⟨d.year, d.month + 1, 1, by have := d.month_mem; omega, Nat.le_refl 1, monthLength_pos _ _⟩

/-- The day after a date. -/
def next (d : Date) : Date := ofDays (d.toDays + 1)

theorem withDay?_eq_some {day : Nat} (h : 1 ≤ day ∧ day ≤ monthLength (isLeap d.year) d.month) :
    d.withDay? day = some ⟨d.year, d.month, day, d.month_mem, h⟩ :=
  dif_pos ⟨d.month_mem, h⟩

/-- Every month has a first day. -/
theorem firstOfMonth_eq (d : Date) :
    d.firstOfMonth = ⟨d.year, d.month, 1, d.month_mem, Nat.le_refl 1, monthLength_pos _ _⟩ := by
  rw [firstOfMonth, withDay?_eq_some ⟨Nat.le_refl 1, monthLength_pos _ _⟩, Option.getD_some]

theorem toDays_firstOfMonth (d : Date) :
    d.firstOfMonth.toDays = daysBeforeYear d.year + daysBeforeMonth (isLeap d.year) d.month := by
  simp [firstOfMonth_eq, toDays]

theorem toDays_followingMonth (d : Date) :
    d.followingMonth.toDays = d.firstOfMonth.toDays + monthLength (isLeap d.year) d.month := by
  rw [toDays_firstOfMonth, followingMonth]
  split
  · rename_i hmonth
    have hyear := daysBeforeYear_succ d.year
    have hdecember := daysBeforeMonth_december (isLeap d.year)
    have hjanuary : daysBeforeMonth (isLeap (d.year + 1)) 1 = 0 := rfl
    rw [hmonth]
    simp only [toDays]
    omega
  · have hmonth := daysBeforeMonth_succ (isLeap d.year) d.month_mem.1
    simp only [toDays]
    omega

theorem of?_first {year : Int} {month : Nat} (h : 1 ≤ month ∧ month ≤ 12) :
    of? year month 1 = some ⟨year, month, 1, h, Nat.le_refl 1, monthLength_pos _ _⟩ :=
  dif_pos ⟨h, Nat.le_refl 1, monthLength_pos _ _⟩

/-- The first day of a month is followed by that of the next one, up to the last December. -/
theorem addMonth?_firstOfMonth (hd : d.year ≤ lastYear) :
    d.firstOfMonth.addMonth? =
      if d.year = lastYear ∧ d.month = 12 then none else some d.followingMonth := by
  have hmonth := d.month_mem
  have hfirst (year : Int) (month : Nat) : min 1 (monthLength (isLeap year) month) = 1 :=
    Nat.min_eq_left (monthLength_pos _ _)
  rw [firstOfMonth_eq, addMonth?]
  dsimp only
  rw [hfirst, followingMonth]
  by_cases hdecember : d.month = 12
  · rw [if_pos hdecember, dif_pos hdecember, hdecember]
    by_cases hlast : d.year = lastYear
    · rw [if_neg (by omega), if_pos ⟨hlast, rfl⟩]
    · rw [if_pos (by omega), if_neg (fun h => hlast h.1)]
      exact of?_first _
  · rw [if_neg hdecember, dif_neg hdecember, if_pos hd, if_neg (fun h => hdecember h.2)]
    have hmod : d.month % 12 = d.month := Nat.mod_eq_of_lt (by omega)
    rw [hmod]
    exact of?_first _

/-- The days to the first of the following month are those of the month, and the last month that
nothing follows has as many as are assumed for it. -/
theorem monthDays_eq (hd : d.year ≤ lastYear) :
    d.monthDays = monthLength (isLeap d.year) d.month := by
  rw [monthDays, addMonth?_firstOfMonth hd]
  by_cases hlast : d.year = lastYear ∧ d.month = 12
  · rw [if_pos hlast, hlast.2]
    rfl
  · have hlength := toDays_followingMonth d
    rw [if_neg hlast]
    dsimp only
    omega

/-- Every month has a last day. -/
theorem lastOfMonth_eq (hd : d.year ≤ lastYear) :
    d.lastOfMonth = ⟨d.year, d.month, monthLength (isLeap d.year) d.month, d.month_mem,
      monthLength_pos _ _, Nat.le_refl _⟩ := by
  rw [lastOfMonth, monthDays_eq hd, withDay?_eq_some ⟨monthLength_pos _ _, Nat.le_refl _⟩,
    Option.getD_some]

theorem next_lastOfMonth (hd : d.year ≤ lastYear) : d.lastOfMonth.next = d.followingMonth := by
  have hlength := monthLength_pos (isLeap d.year) d.month
  refine toDays_injective ?_
  rw [next, toDays_ofDays, toDays_followingMonth, toDays_firstOfMonth, lastOfMonth_eq hd]
  simp only [toDays]
  omega

theorem firstOfMonth_le (d : Date) : d.firstOfMonth ≤ d := by
  rw [firstOfMonth_eq]
  exact .inr ⟨rfl, .inr ⟨rfl, d.day_mem.1⟩⟩

theorem le_lastOfMonth (hd : d.year ≤ lastYear) : d ≤ d.lastOfMonth := by
  rw [lastOfMonth_eq hd]
  exact .inr ⟨rfl, .inr ⟨rfl, d.day_mem.2⟩⟩

/-- A week starts on the one day with the first weekday among a date and the six days before it; the
seven days from there on share it, and it follows the order of the dates. A month is that of the
date, from its first day to the last one before the following month, and is as long as the calendar
has it. -/
theorem week_and_month (d : Date) (first : Weekday) (hd : d.year ≤ lastYear) :
    (∀ e, e = d.startOfWeek first ↔
      e.weekday = first ∧ d.toDays - 6 ≤ e.toDays ∧ e ≤ d) ∧
    (∀ e, e.startOfWeek first = d.startOfWeek first ↔
      d.startOfWeek first ≤ e ∧ e.toDays ≤ (d.startOfWeek first).toDays + 6) ∧
    (∀ e, d ≤ e → d.startOfWeek first ≤ e.startOfWeek first) ∧
    (d.firstOfMonth.Has d.year d.month 1 ∧ d.lastOfMonth.Has d.year d.month d.monthDays) ∧
    (d.firstOfMonth ≤ d ∧ d ≤ d.lastOfMonth ∧ d.lastOfMonth.next = d.followingMonth) ∧
    (monthLengths d.year)[d.month - 1]? = some d.monthDays := by
  refine ⟨fun e => eq_startOfWeek_iff, fun e => startOfWeek_eq_iff, fun e => startOfWeek_mono,
    ⟨?_, ?_⟩, ⟨firstOfMonth_le d, le_lastOfMonth hd, next_lastOfMonth hd⟩, ?_⟩
  · rw [firstOfMonth_eq]
    exact ⟨rfl, rfl, rfl⟩
  · rw [lastOfMonth_eq hd, monthDays_eq hd]
    exact ⟨rfl, rfl, rfl⟩
  · rw [monthDays_eq hd]
    exact getElem?_monthLengths d.year d.month_mem

/-- The last days of the February of a leap year, in weeks that begin on Sunday. -/
theorem week_and_month_leap_february :
    let d : Date := ⟨2024, 2, 29, by decide, by decide⟩
    let e : Date := ⟨2024, 3, 3, by decide, by decide⟩
    d ≤ e ∧ d.startOfWeek .sunday = ⟨2024, 2, 25, by decide, by decide⟩ ∧
      d.startOfWeek .sunday ≤ e.startOfWeek .sunday ∧
      d.lastOfMonth.next = ⟨2024, 3, 1, by decide, by decide⟩ ∧ d.monthDays = 29 := by
  intro d e
  have hle : d ≤ e := by decide
  obtain ⟨hstart, -, hmono, -, ⟨-, -, hnext⟩, hlength⟩ := week_and_month d .sunday (by decide)
  exact ⟨hle, ((hstart _).mpr (by decide)).symm, hmono e hle, hnext.trans (by decide),
    (Option.some.inj hlength).symm⟩

/-! ## Boundaries of boundaries -/

theorem startOfWeek_startOfWeek (d : Date) (first : Weekday) :
    (d.startOfWeek first).startOfWeek first = d.startOfWeek first := by
  have hstart := toDays_startOfWeek d first
  rw [startOfWeek_eq_iff, le_iff_toDays]
  omega

theorem year_firstOfMonth (d : Date) : d.firstOfMonth.year = d.year := by rw [firstOfMonth_eq]

theorem firstOfMonth_firstOfMonth (d : Date) : d.firstOfMonth.firstOfMonth = d.firstOfMonth := by
  rw [firstOfMonth_eq d, firstOfMonth_eq]

theorem year_lastOfMonth (hd : d.year ≤ lastYear) : d.lastOfMonth.year = d.year := by
  rw [lastOfMonth_eq hd]

theorem lastOfMonth_lastOfMonth (hd : d.year ≤ lastYear) :
    d.lastOfMonth.lastOfMonth = d.lastOfMonth := by
  rw [lastOfMonth_eq hd, lastOfMonth_eq]
  exact hd

theorem year_le_of_le (h : d ≤ e) : d.year ≤ e.year := by
  rcases h with h | ⟨h, -⟩
  · exact Int.le_of_lt h
  · exact Int.le_of_eq h

theorem startOfWeek_le (d : Date) (first : Weekday) : d.startOfWeek first ≤ d :=
  (eq_startOfWeek_iff.mp rfl).2.2

end Date

end FormulaEngine
