import FormulaEngine.Proofs.Dates
import FormulaEngine.Proofs.Instants
import FormulaEngine.Proofs.Periods

/-! # Functions that go to the boundary of a week or a month

They give the serial of a date, which is not checked. It can be read again, and is its own boundary,
unless the week begins before the first day whose serial can be read. -/

namespace FormulaEngine

open Binary64

namespace Intrinsic

theorem calls_startoftheweek : Calls "startoftheweek".toList (.one startOfWeek) :=
  ⟨by decide, by decide, by rfl⟩

theorem calls_startofthemonth : Calls "startofthemonth".toList (.one startOfMonth) :=
  ⟨by decide, by decide, by rfl⟩

theorem calls_endofthemonth : Calls "endofthemonth".toList (.one endOfMonth) :=
  ⟨by decide, by decide, by rfl⟩

end Intrinsic

namespace Surroundings

open Intrinsic (Calls)

variable {s : Surroundings} {name z : Text} {x : Float} {d : Date}

/-- A serial that is read is the serial of a date. -/
theorem exists_toDate (hz : s.Denotes z x) (hname : name ∈ componentNames)
    (h : ∃ c, (s.evalNumber (Text.call name [z])).result = .ok c) :
    ∃ t, Serial.toDateTime x = .ok t := by
  obtain ⟨c, hc⟩ := h
  obtain ⟨g, hg⟩ := exists_isDated hz hname
  unfold IsDated Serial.toDate at hg
  cases ht : Serial.toDateTime x with
  | ok t => exact ⟨t, rfl⟩
  | error e =>
    rw [ht, hc] at hg
    cases hg

/-- The call of `name` on `z` has the value `y`. Every component can be read from it, and `name`
itself leaves it as it is, however it is written: the call is one such text. -/
structure SettlesAt (s : Surroundings) (name z : Text) (y : Float) : Prop where
  value : (s.evalNumber (Text.call name [z])).result = .ok y
  readable : ∀ w, s.Denotes w y → ∀ part ∈ componentNames,
    ∃ c, (s.evalNumber (Text.call part [w])).result = .ok c
  fixed : ∀ w, s.Denotes w y → (s.evalNumber (Text.call name [w])).result = .ok y

/-- The call of `name` on `z` has the value `y`, from which nothing can be read, and which `name`
itself refuses. -/
structure StrandsAt (s : Surroundings) (name z : Text) (y : Float) : Prop where
  value : (s.evalNumber (Text.call name [z])).result = .ok y
  unreadable : ∀ w, s.Denotes w y → ∀ part ∈ name :: componentNames,
    s.RefusesDate part (Text.call part [w])

section

variable {g : Context Text → Date → Date}

theorem value_of_toDate (hz : s.Denotes z x) (hd : Serial.toDate x = .ok d)
    (h : Calls name (.one fun c x => do return Serial.ofDate (g c (← Intrinsic.dateOf c x)))) :
    (s.evalNumber (Text.call name [z])).result = .ok (Serial.ofDate (g s.ambient d)) := by
  have hdated := isDated_of_date (g := fun c t => Serial.ofDate (g c t)) hz h
  rw [hd] at hdated
  exact hdated

theorem toDate_ofDate (hy : 100 ≤ d.year ∧ d.year ≤ 9999) :
    Serial.toDate (Serial.ofDate d) = .ok d := by
  have hread := Serial.toDateTime_ofDateTime (t := .atMidnight d) TimeOfDay.isWhole_midnight hy
  rw [Serial.toDate, Serial.ofDate, hread]
  rfl

/-- A boundary in the years that can be read, and which is its own boundary. -/
theorem settlesAt_of_toDate (hz : s.Denotes z x) (hd : Serial.toDate x = .ok d)
    (h : Calls name (.one fun c x => do return Serial.ofDate (g c (← Intrinsic.dateOf c x))))
    (hy : 100 ≤ (g s.ambient d).year ∧ (g s.ambient d).year ≤ 9999)
    (hfixed : g s.ambient (g s.ambient d) = g s.ambient d) :
    s.SettlesAt name z (Serial.ofDate (g s.ambient d)) := by
  refine ⟨value_of_toDate hz hd h, fun w hw part hpart => ?_, fun w hw => ?_⟩
  · obtain ⟨f, hf⟩ := exists_isDated hw hpart
    rw [toDate_ofDate hy] at hf
    exact ⟨_, hf⟩
  · have hvalue := value_of_toDate hw (toDate_ofDate hy) h
    rwa [hfixed] at hvalue

/-- A boundary before the years that can be read. -/
theorem strandsAt_of_toDate (hz : s.Denotes z x) (hd : Serial.toDate x = .ok d)
    (h : Calls name (.one fun c x => do return Serial.ofDate (g c (← Intrinsic.dateOf c x))))
    (hy : 1 ≤ (g s.ambient d).year ∧ (g s.ambient d).year < 100) :
    s.StrandsAt name z (Serial.ofDate (g s.ambient d)) := by
  have hread := Serial.toDateTime_ofDateTime_early (t := .atMidnight (g s.ambient d))
    TimeOfDay.isWhole_midnight hy
  have hdate : Serial.toDate (Serial.ofDate (g s.ambient d)) =
      .error (.serialOutOfRange (Serial.ofDate (g s.ambient d))) := by
    rw [Serial.toDate, Serial.ofDate, hread]
    rfl
  refine ⟨value_of_toDate hz hd h, fun w hw part hpart => ?_⟩
  rcases List.mem_cons.mp hpart with rfl | hpart
  · have hdated := isDated_of_date (g := fun c t => Serial.ofDate (g c t)) hw h
    rw [hdate] at hdated
    exact hdated.refusesDate
  · obtain ⟨f, hf⟩ := exists_isDated hw hpart
    rw [hdate] at hf
    exact hf.refusesDate

end

/-- The start of a week of the first year that can be read lies in a year that can be built. -/
theorem year_startOfWeek_pos (hy : 100 ≤ d.year) (first : Weekday) :
    1 ≤ (d.startOfWeek first).year := by
  have hstart := d.toDays_startOfWeek first
  rw [Date.le_year_iff, show Calendar.daysBeforeYear 100 = 36159 from rfl] at hy
  rw [Date.le_year_iff, show Calendar.daysBeforeYear 1 = 0 from rfl]
  omega

/-- A serial that is read as a date of the years that can be read, and so one that rounding does not
take to a bound, has boundaries that can be read again and do not move any more. Only the start of a
week that begins before those years is left as a serial that is refused. -/
theorem boundaries_settle {v : ℚ} (hz : s.Denotes z x) (hv : value? x = some v)
    (hbound : ¬ Serial.MeetsBound v)
    (hread : ∃ c, (s.evalNumber (Text.call "getday".toList [z])).result = .ok c) :
    ∃ d, Serial.toDate x = .ok d ∧
      s.SettlesAt "startofthemonth".toList z (Serial.ofDate d.firstOfMonth) ∧
      s.SettlesAt "endofthemonth".toList z (Serial.ofDate d.lastOfMonth) ∧
      if 100 ≤ (d.startOfWeek s.firstDay).year then
        s.SettlesAt "startoftheweek".toList z (Serial.ofDate (d.startOfWeek s.firstDay))
      else s.StrandsAt "startoftheweek".toList z (Serial.ofDate (d.startOfWeek s.firstDay)) := by
  obtain ⟨t, ht⟩ := exists_toDate hz (by simp [componentNames]) hread
  have hy := (Serial.year_mem_iff ht hv).mpr hbound
  have hd : Serial.toDate x = .ok t.date := by rw [Serial.toDate, ht]; rfl
  have hle := Date.year_le_of_le (t.date.startOfWeek_le s.firstDay)
  have hlast : t.date.year ≤ Date.lastYear := hy.2.trans (by decide)
  have hfirst : 100 ≤ t.date.firstOfMonth.year ∧ t.date.firstOfMonth.year ≤ 9999 := by
    rwa [Date.year_firstOfMonth]
  have hend : 100 ≤ t.date.lastOfMonth.year ∧ t.date.lastOfMonth.year ≤ 9999 := by
    rwa [Date.year_lastOfMonth hlast]
  refine ⟨t.date, hd, ?_, ?_, ?_⟩
  · exact settlesAt_of_toDate (g := fun _ d => d.firstOfMonth) hz hd Intrinsic.calls_startofthemonth
      hfirst (Date.firstOfMonth_firstOfMonth _)
  · exact settlesAt_of_toDate (g := fun _ d => d.lastOfMonth) hz hd Intrinsic.calls_endofthemonth
      hend (Date.lastOfMonth_lastOfMonth hlast)
  · split
    · rename_i hyear
      exact settlesAt_of_toDate (g := fun c d => d.startOfWeek c.firstDay) hz hd
        Intrinsic.calls_startoftheweek ⟨hyear, hle.trans hy.2⟩ (Date.startOfWeek_startOfWeek _ _)
    · rename_i hyear
      exact strandsAt_of_toDate (g := fun c d => d.startOfWeek c.firstDay) hz hd
        Intrinsic.calls_startoftheweek
        ⟨year_startOfWeek_pos hy.1 _, not_le.mp hyear⟩

/-- Six in the morning of the Friday before the epoch, whose week begins on Christmas Day. -/
theorem boundaries_settle_before_epoch :
    let s := initial {}
    let start := Text.call "startoftheweek".toList ["-1.25".toList]
    s.Denotes "-1.25".toList (-1.25) ∧ ¬ Serial.MeetsBound (-(5 / 4)) ∧
      (s.evalNumber (Text.call "getday".toList ["-1.25".toList])).result = .ok (Float.ofNat 29) ∧
      (s.evalNumber start).result = .ok (Float.ofInt (-5)) ∧
      (s.evalNumber (Text.call "startoftheweek".toList [start])).result = .ok (Float.ofInt (-5)) ∧
      ∃ c, (s.evalNumber (Text.call "getweek".toList [start])).result = .ok c := by
  intro s start
  have hz : s.Denotes "-1.25".toList (-1.25) :=
    ⟨.of_marks (by decide) (by decide), by decide +kernel⟩
  have hbound : ¬ Serial.MeetsBound (-(5 / 4)) := by
    norm_num [Serial.MeetsBound, Serial.product_negFiveQuarters]
  have hday : (s.evalNumber (Text.call "getday".toList ["-1.25".toList])).result =
      .ok (Float.ofNat 29) := by
    decide +kernel
  have hdate : Serial.toDate (-1.25) = .ok ⟨1899, 12, 29, by decide, by decide⟩ := by
    rw [Serial.toDate, Serial.toDateTime, if_pos (by decide +kernel)]
    exact congrArg Except.ok (by decide +kernel)
  obtain ⟨d, hd, -, -, hweek⟩ :=
    boundaries_settle hz Serial.value?_negFiveQuarters hbound ⟨_, hday⟩
  obtain rfl := Except.ok.inj (hd.symm.trans hdate)
  rw [if_pos (by decide)] at hweek
  have hserial : Serial.ofDate (Date.startOfWeek ⟨1899, 12, 29, by decide, by decide⟩ s.firstDay) =
      Float.ofInt (-5) := by
    decide +kernel
  rw [hserial] at hweek
  have hstart : s.Denotes start (Float.ofInt (-5)) :=
    ⟨.call Intrinsic.calls_startoftheweek.isName (by simpa using hz.standalone), hweek.value⟩
  exact ⟨hz, hbound, hday, hweek.value, hweek.fixed start hstart,
    hweek.readable start hstart _ (by simp [componentNames])⟩

/-- The first day whose serial can be read is a Friday: its week begins on a day that is refused. -/
theorem exists_week_not_read :
    ((initial {}).evalNumber "getday(todate(100,1,1))".toList).result = .ok (Float.ofNat 1) ∧
    ((initial {}).evalNumber "startoftheweek(todate(100,1,1))".toList).result =
      .ok (Float.ofInt (-657438)) ∧
    ((initial {}).evalNumber "getday(startoftheweek(todate(100,1,1)))".toList).result.mapError
      (·.kind) = .error .invalidDate ∧
    ((initial {}).evalNumber
      "startoftheweek(startoftheweek(todate(100,1,1)))".toList).result.mapError (·.kind) =
        .error .invalidDate :=
  ⟨by decide +kernel, by decide +kernel, by decide +kernel, by decide +kernel⟩

end Surroundings

end FormulaEngine
