import FormulaEngine.Proofs.Calls
import FormulaEngine.Proofs.Runs
import FormulaEngine.Proofs.Serials

/-! # Dates that are built and read

A date is built from whole components, and only from those of a day of the years 1 to 9999. Its
serial can be read from the year 100 on: then the components are found again. -/

namespace FormulaEngine

open Binary64

namespace DateError

theorem kind_toFormulaError (e : DateError) : e.toFormulaError.kind = .invalidDate := by
  cases e <;> rfl

theorem function?_toFormulaError (e : DateError) : e.toFormulaError.function? = none := by
  cases e <;> rfl

end DateError

/-! ## Whole components -/

/-- What is taken for a component that is the number `n`, or as near to it as the format allows. -/
def taken (n : ℤ) : ℤ := nearestInt64 (Float.ofInt n)

variable {y m d h mi sec : ℤ}

/-- No component is accepted that is so large that another one could be taken for it. -/
def AcceptsSmall (P : ℤ → ℤ → ℤ → Prop) : Prop :=
  ∀ a b c, P a b c → |a| < 2 ^ 53 ∧ |b| < 2 ^ 53 ∧ |c| < 2 ^ 53

theorem acceptsSmall_isDay : AcceptsSmall IsDay := by
  intro y m d hday
  have hlength := Calendar.monthLength_le (Calendar.isLeap y) m.toNat
  obtain ⟨hy, hm, hd⟩ := hday
  simp only [abs_lt]
  omega

theorem acceptsSmall_isSecond : AcceptsSmall IsSecond := by
  intro h mi sec hsecond
  obtain ⟨hh, hmi, hsec⟩ := hsecond
  simp only [abs_lt]
  omega

namespace AcceptsSmall

variable {P : ℤ → ℤ → ℤ → Prop} {a b c : ℤ}

/-- Accepted components are taken as they are, and are taken for no others. -/
theorem taken_eq (hP : AcceptsSmall P) (h : P a b c ∨ P (taken a) (taken b) (taken c)) :
    taken a = a ∧ taken b = b ∧ taken c = c := by
  have hsmall := h.imp (hP _ _ _) (hP _ _ _)
  exact ⟨nearestInt64_ofInt_of_small (hsmall.imp (·.1) (·.1)),
    nearestInt64_ofInt_of_small (hsmall.imp (·.2.1) (·.2.1)),
    nearestInt64_ofInt_of_small (hsmall.imp (·.2.2) (·.2.2))⟩

theorem taken_iff (hP : AcceptsSmall P) : P (taken a) (taken b) (taken c) ↔ P a b c := by
  constructor <;> intro h
  · obtain ⟨ha, hb, hc⟩ := hP.taken_eq (.inr h)
    rwa [ha, hb, hc] at h
  · obtain ⟨ha, hb, hc⟩ := hP.taken_eq (.inl h)
    rwa [ha, hb, hc]

end AcceptsSmall

/-! ## Functions on dates -/

namespace Intrinsic

variable {A α β : Type} {c : Context A}

theorem result_dated_map (r : Except DateError α) (g : α → β) :
    (do return g (← dated r) : Run β).result = (r.map g).mapError DateError.toFormulaError := by
  cases r <;> rfl

/-- What is read from a date that a serial means. -/
theorem result_dateOf_map {x : A} {v : Float} (hx : (c.number x).result = .ok v) (g : Date → β) :
    (do return g (← dateOf c x) : Run β).result =
      ((Serial.toDate v).map g).mapError DateError.toFormulaError := by
  have hdate : (dateOf c x).result = (dated (Serial.toDate v)).result :=
    Run.result_bind_of_ok hx _
  rw [← result_dated_map, Run.result_bind_congr hdate]

theorem result_wholeOf {x : A} {n : ℤ} (hx : (c.number x).result = .ok (Float.ofInt n)) :
    (wholeOf c x).result = .ok (taken n) :=
  Run.result_bind_of_ok hx _

theorem result_fromDateParts {xy xm xd : A} (hy : (c.number xy).result = .ok (Float.ofInt y))
    (hm : (c.number xm).result = .ok (Float.ofInt m))
    (hd : (c.number xd).result = .ok (Float.ofInt d)) :
    (fromDateParts c xy xm xd).result =
      ((Date.ofComponents (taken y) (taken m) (taken d)).map Serial.ofDate).mapError
        DateError.toFormulaError := by
  rw [← result_dated_map, fromDateParts, Run.result_bind_of_ok (result_wholeOf hy),
    Run.result_bind_of_ok (result_wholeOf hm), Run.result_bind_of_ok (result_wholeOf hd)]

theorem result_fromDateTimeParts {xy xm xd xh xmi xs : A}
    (hy : (c.number xy).result = .ok (Float.ofInt y))
    (hm : (c.number xm).result = .ok (Float.ofInt m))
    (hd : (c.number xd).result = .ok (Float.ofInt d))
    (hh : (c.number xh).result = .ok (Float.ofInt h))
    (hmi : (c.number xmi).result = .ok (Float.ofInt mi))
    (hs : (c.number xs).result = .ok (Float.ofInt sec)) :
    (fromDateTimeParts c xy xm xd xh xmi xs).result =
      ((DateTime.ofComponents (taken y) (taken m) (taken d) (taken h) (taken mi) (taken sec)).map
        Serial.ofDateTime).mapError DateError.toFormulaError := by
  rw [← result_dated_map, fromDateTimeParts, Run.result_bind_of_ok (result_wholeOf hy),
    Run.result_bind_of_ok (result_wholeOf hm), Run.result_bind_of_ok (result_wholeOf hd),
    Run.result_bind_of_ok (result_wholeOf hh), Run.result_bind_of_ok (result_wholeOf hmi),
    Run.result_bind_of_ok (result_wholeOf hs)]

theorem calls_todate : Calls "todate".toList (.three fromDateParts) :=
  ⟨by decide, by decide, by rfl⟩

theorem calls_todatetime : Calls "todatetime".toList (.six fromDateTimeParts) :=
  ⟨by decide, by decide, by rfl⟩

theorem calls_getyear : Calls "getyear".toList (.one yearOf) :=
  ⟨by decide, by decide, by rfl⟩

theorem calls_getmonth : Calls "getmonth".toList (.one monthOf) :=
  ⟨by decide, by decide, by rfl⟩

theorem calls_getday : Calls "getday".toList (.one dayOf) :=
  ⟨by decide, by decide, by rfl⟩

theorem calls_getweek : Calls "getweek".toList (.one weekOf) :=
  ⟨by decide, by decide, by rfl⟩

end Intrinsic

namespace Surroundings

open Intrinsic (Calls)

/-- A text that can be an argument as it is, and has this value there. -/
structure Denotes (s : Surroundings) (t : Text) (x : Float) : Prop where
  standalone : t.Standalone
  value : (s.evalNumber t).result = .ok x

/-- Texts that denote these whole numbers, as far as the format allows. -/
def DenoteWhole (s : Surroundings) : List Text → List ℤ → Prop :=
  List.Forall₂ fun t n => s.Denotes t (Float.ofInt n)

/-- The formula fails, and the function is blamed for a date that there is not. -/
def RefusesDate (s : Surroundings) (name formula : Text) : Prop :=
  ∃ e, (s.evalNumber formula).result = .error e ∧
    e.kind = .invalidDate ∧ e.function? = some name

/-- What the functions say that read components from the serial `x`. -/
def ReadsDate (s : Surroundings) (x : Float) (year month day : Float) : Prop :=
  ∀ z, s.Denotes z x →
    (s.evalNumber (Text.call "getyear".toList [z])).result = .ok year ∧
    (s.evalNumber (Text.call "getmonth".toList [z])).result = .ok month ∧
    (s.evalNumber (Text.call "getday".toList [z])).result = .ok day

/-- They refuse to read the serial `x`. -/
def RefusesToRead (s : Surroundings) (x : Float) : Prop :=
  ∀ z, s.Denotes z x → ∀ name ∈ ["getyear".toList, "getmonth".toList, "getday".toList],
    s.RefusesDate name (Text.call name [z])

/-- The formula, a call of `name`, has a serial exactly for valid components, and from the serial
the date can be read if it does not come before the year 100. -/
structure BuildsDate (s : Surroundings) (name formula : Text) (valid : Prop)
    (y m d : ℤ) : Prop where
  succeeds_iff : (∃ x, (s.evalNumber formula).result = .ok x) ↔ valid
  refuses : ¬ valid → s.RefusesDate name formula
  reads : ∀ x, (s.evalNumber formula).result = .ok x → 100 ≤ y →
    s.ReadsDate x (Float.ofInt y) (Float.ofInt m) (Float.ofInt d)
  refusesToRead : ∀ x, (s.evalNumber formula).result = .ok x → y < 100 → s.RefusesToRead x

variable {s : Surroundings} {name formula z : Text} {x : Float} {t : DateTime}

theorem DenoteWhole.standalone {ts : List Text} {ns : List ℤ} (h : s.DenoteWhole ts ns) :
    ∀ t ∈ ts, t.Standalone := by
  induction h with
  | nil => exact fun t ht => nomatch ht
  | cons ht _ ih => exact List.forall_mem_cons.mpr ⟨ht.standalone, ih⟩

/-- The result of a call of `name` that comes from the calendar. -/
def IsDated (s : Surroundings) (name formula : Text) (r : Except DateError Float) : Prop :=
  (s.evalNumber formula).result = (r.mapError DateError.toFormulaError).mapError (·.blamedOn name)

theorem IsDated.refusesDate {e : DateError} (h : s.IsDated name formula (.error e)) :
    s.RefusesDate name formula := by
  refine ⟨_, h, e.kind_toFormulaError, ?_⟩
  show (e.toFormulaError.function?).or (some name) = some name
  rw [e.function?_toFormulaError, Option.none_or]

/-- A function of the date that a serial means. -/
theorem isDated_of_date (hz : s.Denotes z x) {g : Context Text → Date → Float}
    (h : Calls name (.one fun c x => do return g c (← Intrinsic.dateOf c x))) :
    s.IsDated name (Text.call name [z]) ((Serial.toDate x).map (g s.ambient)) := by
  unfold IsDated
  rw [evalNumber_of_calls h (by simpa using hz.standalone) rfl,
    ← Intrinsic.result_dateOf_map hz.value]
  rfl

theorem isDated_components (hz : s.Denotes z x) :
    s.IsDated "getyear".toList (Text.call "getyear".toList [z])
      ((Serial.toDate x).map fun t => Float.ofInt t.year) ∧
    s.IsDated "getmonth".toList (Text.call "getmonth".toList [z])
      ((Serial.toDate x).map fun t => Float.ofNat t.month) ∧
    s.IsDated "getday".toList (Text.call "getday".toList [z])
      ((Serial.toDate x).map fun t => Float.ofNat t.day) :=
  ⟨isDated_of_date hz Intrinsic.calls_getyear, isDated_of_date hz Intrinsic.calls_getmonth,
    isDated_of_date hz Intrinsic.calls_getday⟩

/-- The functions that read a component from a serial. -/
def componentNames : List Text :=
  ["getyear".toList, "getmonth".toList, "getday".toList, "getweek".toList]

theorem exists_isDated (hz : s.Denotes z x) (hname : name ∈ componentNames) :
    ∃ g : Date → Float, s.IsDated name (Text.call name [z]) ((Serial.toDate x).map g) := by
  obtain ⟨hyear, hmonth, hday⟩ := isDated_components hz
  simp only [componentNames, List.mem_cons, List.not_mem_nil, or_false] at hname
  rcases hname with rfl | rfl | rfl | rfl
  · exact ⟨_, hyear⟩
  · exact ⟨_, hmonth⟩
  · exact ⟨_, hday⟩
  · exact ⟨_, isDated_of_date hz Intrinsic.calls_getweek⟩

/-- A serial that means a date is read as that date. -/
theorem readsDate_of_toDateTime (h : Serial.toDateTime x = .ok t) (hhas : t.date.Has y m d) :
    s.ReadsDate x (Float.ofInt y) (Float.ofInt m) (Float.ofInt d) := by
  obtain ⟨rfl, rfl, rfl⟩ := hhas
  intro z hz
  have hdate : Serial.toDate x = .ok t.date := by rw [Serial.toDate, h]; rfl
  have hread := isDated_components hz
  rw [hdate] at hread
  exact hread

theorem refusesToRead_of_toDateTime {e : DateError} (h : Serial.toDateTime x = .error e) :
    s.RefusesToRead x := by
  intro z hz name hname
  have hdate : Serial.toDate x = .error e := by rw [Serial.toDate, h]; rfl
  obtain ⟨g, hg⟩ := exists_isDated hz (List.mem_append_left ["getweek".toList] hname)
  rw [hdate] at hg
  exact hg.refusesDate

/-- A call builds dates if it gives the serials of the date-times that valid components make. -/
theorem buildsDate_of_isDated {r : Except DateError DateTime} {valid : Prop}
    (h : s.IsDated name formula (r.map Serial.ofDateTime))
    (hvalid : valid → (1 ≤ y ∧ y ≤ 9999) ∧ ∃ t, r = .ok t ∧ t.date.Has y m d ∧ t.time.IsWhole)
    (hinvalid : ¬ valid → ∃ e, r = .error e) : s.BuildsDate name formula valid y m d := by
  by_cases hv : valid
  · obtain ⟨hy, t, rfl, hhas, hwhole⟩ := hvalid hv
    have hyear := hhas.1
    have hserial : (s.evalNumber formula).result = .ok (Serial.ofDateTime t) := h
    refine ⟨iff_of_true ⟨_, hserial⟩ hv, fun hn => absurd hv hn, fun x hx h100 => ?_,
      fun x hx h100 => ?_⟩
    · obtain rfl := Except.ok.inj (hserial.symm.trans hx)
      exact readsDate_of_toDateTime (Serial.toDateTime_ofDateTime hwhole (by omega)) hhas
    · obtain rfl := Except.ok.inj (hserial.symm.trans hx)
      exact refusesToRead_of_toDateTime (Serial.toDateTime_ofDateTime_early hwhole (by omega))
  · obtain ⟨e, rfl⟩ := hinvalid hv
    have hnone : ∀ x, (s.evalNumber formula).result ≠ .ok x := fun x hx =>
      nomatch (Eq.symm h).trans hx
    exact ⟨iff_of_false (fun ⟨x, hx⟩ => hnone x hx) hv, fun _ => IsDated.refusesDate h,
      fun x hx => absurd hx (hnone x), fun x hx => absurd hx (hnone x)⟩

theorem buildsDate_todate {date : List Text} (hdate : s.DenoteWhole date [y, m, d]) :
    s.BuildsDate "todate".toList (Text.call "todate".toList date) (IsDay y m d) y m d := by
  have hstandalone := hdate.standalone
  obtain _ | ⟨hy, _ | ⟨hm, _ | ⟨hd, ⟨⟩⟩⟩⟩ := hdate
  refine buildsDate_of_isDated
    (r := (Date.ofComponents (taken y) (taken m) (taken d)).map .atMidnight) ?_ ?_ ?_
  · unfold IsDated
    rw [evalNumber_of_calls Intrinsic.calls_todate hstandalone rfl, Run.result_blamedOn,
      Intrinsic.result_fromDateParts (c := s.ambient) hy.value hm.value hd.value]
    cases Date.ofComponents (taken y) (taken m) (taken d) <;> rfl
  · intro hday
    obtain ⟨ey, em, ed⟩ := acceptsSmall_isDay.taken_eq (.inl hday)
    obtain ⟨t, ht, hhas⟩ := Date.ofComponents_eq_ok hday
    exact ⟨hday.year_mem, .atMidnight t, by rw [ey, em, ed, ht]; rfl, hhas,
      TimeOfDay.isWhole_midnight⟩
  · intro hday
    exact ⟨_, by rw [Date.ofComponents_eq_error (acceptsSmall_isDay.taken_iff.not.mpr hday)]; rfl⟩

theorem buildsDate_todatetime {date time : List Text} (hdate : s.DenoteWhole date [y, m, d])
    (htime : s.DenoteWhole time [h, mi, sec]) :
    s.BuildsDate "todatetime".toList (Text.call "todatetime".toList (date ++ time))
      (IsDay y m d ∧ IsSecond h mi sec) y m d := by
  have hstandalone : ∀ t ∈ date ++ time, t.Standalone :=
    List.forall_mem_append.mpr ⟨hdate.standalone, htime.standalone⟩
  obtain _ | ⟨hy, _ | ⟨hm, _ | ⟨hd, ⟨⟩⟩⟩⟩ := hdate
  obtain _ | ⟨hh, _ | ⟨hmi, _ | ⟨hsec, ⟨⟩⟩⟩⟩ := htime
  refine buildsDate_of_isDated (r := DateTime.ofComponents (taken y) (taken m) (taken d)
    (taken h) (taken mi) (taken sec)) ?_ ?_ ?_
  · unfold IsDated
    rw [evalNumber_of_calls Intrinsic.calls_todatetime hstandalone rfl, Run.result_blamedOn,
      Intrinsic.result_fromDateTimeParts (c := s.ambient) hy.value hm.value hd.value hh.value
        hmi.value hsec.value]
  · rintro ⟨hday, hsecond⟩
    obtain ⟨ey, em, ed⟩ := acceptsSmall_isDay.taken_eq (.inl hday)
    obtain ⟨eh, emi, esec⟩ := acceptsSmall_isSecond.taken_eq (.inl hsecond)
    obtain ⟨t, ht, hhas, hwhole⟩ := DateTime.ofComponents_eq_ok hday hsecond
    exact ⟨hday.year_mem, t, by rw [ey, em, ed, eh, emi, esec, ht], hhas, hwhole⟩
  · intro hinvalid
    exact DateTime.ofComponents_eq_error
      ((acceptsSmall_isDay.taken_iff.and acceptsSmall_isSecond.taken_iff).not.mpr hinvalid)

/-- What can be built are the days of the years 1 to 9999, at midnight or at a full second, and what
is built from the year 100 on can be read. -/
theorem built_iff_isDay_and_read (s : Surroundings) {date : List Text}
    (hdate : s.DenoteWhole date [y, m, d]) :
    s.BuildsDate "todate".toList (Text.call "todate".toList date) (IsDay y m d) y m d ∧
    ∀ {h mi sec : ℤ} {time : List Text}, s.DenoteWhole time [h, mi, sec] →
      s.BuildsDate "todatetime".toList (Text.call "todatetime".toList (date ++ time))
        (IsDay y m d ∧ IsSecond h mi sec) y m d :=
  ⟨buildsDate_todate hdate, fun htime => buildsDate_todatetime hdate htime⟩

/-- Six in the morning of the day before the epoch. -/
theorem built_iff_isDay_and_read_before_epoch :
    let s := initial {}
    let built := Text.call "todatetime".toList
      ["1899".toList, "12".toList, "29".toList, "6".toList, "0".toList, "0".toList]
    ∃ x, (s.evalNumber built).result = .ok x ∧
      (s.evalNumber (Text.call "getyear".toList [built])).result = .ok (Float.ofInt 1899) ∧
      (s.evalNumber (Text.call "getmonth".toList [built])).result = .ok (Float.ofInt 12) ∧
      (s.evalNumber (Text.call "getday".toList [built])).result = .ok (Float.ofInt 29) := by
  intro s built
  have hdate : s.DenoteWhole ["1899".toList, "12".toList, "29".toList] [1899, 12, 29] :=
    .cons ⟨.of_marks (by decide) (by decide), by decide +kernel⟩
      (.cons ⟨.of_marks (by decide) (by decide), by decide +kernel⟩
        (.cons ⟨.of_marks (by decide) (by decide), by decide +kernel⟩ .nil))
  have htime : s.DenoteWhole ["6".toList, "0".toList, "0".toList] [6, 0, 0] :=
    .cons ⟨.of_marks (by decide) (by decide), by decide +kernel⟩
      (.cons ⟨.of_marks (by decide) (by decide), by decide +kernel⟩
        (.cons ⟨.of_marks (by decide) (by decide), by decide +kernel⟩ .nil))
  have h := (built_iff_isDay_and_read s hdate).2 htime
  obtain ⟨x, hx⟩ := h.succeeds_iff.mpr (by decide)
  refine ⟨x, hx, h.reads x hx (by decide) built ⟨?_, hx⟩⟩
  exact .call Intrinsic.calls_todatetime.isName
    (List.forall_mem_append.mpr ⟨hdate.standalone, htime.standalone⟩)

/-- The last day before the year 100 can be built, and its year cannot be read. -/
theorem exists_built_not_read :
    IsDay 99 12 31 ∧
    ((initial {}).evalNumber "todate(99,12,31)".toList).result = .ok (Float.ofInt (-657435)) ∧
    ((initial {}).evalNumber "getyear(todate(99,12,31))".toList).result.mapError (·.kind) =
      .error .invalidDate :=
  ⟨by decide, by decide +kernel, by decide +kernel⟩

end Surroundings

end FormulaEngine
