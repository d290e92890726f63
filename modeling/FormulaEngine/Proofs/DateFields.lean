import FormulaEngine.Proofs.Dates
import FormulaEngine.Proofs.Decimal.Notation

/-! # Dates that are read from texts

A text that matches a picture supplies fields, one after the other. Here the date-time that is made
of them is held against every single field. It agrees with all of them, unless the picture asks for
a date and a time and the text supplies only one of the two in full: then the other one is made up.
Which characters a specifier takes for its field is not questioned. -/

namespace FormulaEngine

namespace DateFormat

/-! ## What a text supplies -/

/-- What is known stays known. -/
def Kept {α : Type} (o o' : Option α) : Prop := ∀ v ∈ o, v ∈ o'

theorem Kept.refl {α : Type} (o : Option α) : Kept o o := fun _ hv => hv

theorem Kept.trans {α : Type} {o o' o'' : Option α} (h : Kept o o') (h' : Kept o' o'') :
    Kept o o'' := fun v hv => h' v (h v hv)

theorem kept_none {α : Type} (o : Option α) : Kept none o := fun _ hv => nomatch hv

theorem agree_none {α : Type} [DecidableEq α] (v : α) : agree none v = some (some v) :=
  if_pos (.inl rfl)

theorem kept_of_agree {α : Type} [DecidableEq α] {old o : Option α} {new : α}
    (h : agree old new = some o) : Kept old o ∧ o = some new := by
  obtain ⟨rfl, hold⟩ := agree_eq_some h
  exact ⟨fun v hv => by rw [hold v hv]; rfl, rfl⟩

/-- The fields of a date and of a time of day that `f` has are those of `g`. -/
structure Fields.Within (f g : Fields) : Prop where
  year : Kept f.year g.year
  yearOfCentury : Kept f.yearOfCentury g.yearOfCentury
  month : Kept f.month g.month
  day : Kept f.day g.day
  weekday : Kept f.weekday g.weekday
  half : Kept f.half g.half
  hourOfHalf : Kept f.hourOfHalf g.hourOfHalf
  minute : Kept f.minute g.minute
  second : Kept f.second g.second
  nanosecond : Kept f.nanosecond g.nanosecond

theorem Fields.Within.refl (f : Fields) : f.Within f := by
  constructor <;> exact Kept.refl _

theorem Fields.Within.trans {f g k : Fields} (h : f.Within g) (h' : g.Within k) : f.Within k where
  year := h.year.trans h'.year
  yearOfCentury := h.yearOfCentury.trans h'.yearOfCentury
  month := h.month.trans h'.month
  day := h.day.trans h'.day
  weekday := h.weekday.trans h'.weekday
  half := h.half.trans h'.half
  hourOfHalf := h.hourOfHalf.trans h'.hourOfHalf
  minute := h.minute.trans h'.minute
  second := h.second.trans h'.second
  nanosecond := h.nanosecond.trans h'.nanosecond

/-- What the specifiers take off a text, each by itself. -/
def supplied : List PatternItem → Text → List Fields
  | .char c :: items, t =>
    if isBlank c then supplied items (Text.trimStart t) else supplied items (t.drop 1)
  | .specifier s :: items, t =>
    match s.take? {} t with
    | some (g, rest) => g :: supplied items rest
    | none => []
  | _, _ => []

variable {s : Specifier} {f f' : Fields} {t t' : Text} {items : List PatternItem}

/-- A specifier takes the same off a text whatever is known already, and adds it to that. -/
theorem take?_within (h : s.take? f t = some (f', t')) :
    ∃ g, s.take? {} t = some (g, t') ∧ g.Within f' ∧ f.Within f' := by
  cases s <;>
    simp only [Specifier.take?, Option.bind_eq_bind, Option.bind_eq_some_iff, Prod.exists,
      Option.pure_def, Option.some.injEq, Prod.mk.injEq] at h ⊢
  case hour =>
    obtain ⟨n, rest, hn, o, ho, o', ho', rfl, rfl⟩ := h
    obtain ⟨hhalf, rfl⟩ := kept_of_agree ho
    obtain ⟨hhour, rfl⟩ := kept_of_agree ho'
    refine ⟨_, ⟨n, rest, hn, _, agree_none _, _, agree_none _, rfl, rfl⟩, ?_, ?_⟩ <;>
      constructor <;> first | exact Kept.refl _ | exact kept_none _ | assumption
  all_goals
    obtain ⟨v, rest, hv, o, ho, rfl, rfl⟩ := h
    obtain ⟨hkept, rfl⟩ := kept_of_agree ho
    refine ⟨_, ⟨v, rest, hv, _, agree_none _, rfl, rfl⟩, ?_, ?_⟩ <;>
      constructor <;> first | exact Kept.refl _ | exact kept_none _ | assumption

/-- Nothing that was supplied gets lost. -/
theorem within_of_mem_supplied (h : matchItems? f items t = some f') :
    f.Within f' ∧ ∀ g ∈ supplied items t, g.Within f' := by
  fun_induction matchItems? f items t with
  | case1 f t hend => exact Option.some.inj h ▸ ⟨.refl f, fun g hg => nomatch hg⟩
  | case3 f c items t hblank ih => simpa only [supplied, if_pos hblank] using ih h
  | case4 f items c rest hblank ih =>
    simpa only [supplied, if_neg hblank, List.drop_succ_cons, List.drop_zero] using ih h
  | case7 f s items t g rest htake ih =>
    obtain ⟨g', hg', hwithin, hold⟩ := take?_within htake
    obtain ⟨hnew, hall⟩ := ih h
    simp only [supplied, hg']
    exact ⟨hold.trans hnew, List.forall_mem_cons.mpr ⟨hwithin.trans hnew, hall⟩⟩
  | case2 | case5 | case6 | case8 | case9 => cases h

/-- What the specifiers among the items preserve, matching the items preserves. -/
theorem matchItems?_preserves {P : Fields → Prop}
    (hP : ∀ s, .specifier s ∈ items → ∀ f f' t t', s.take? f t = some (f', t') → P f → P f')
    (hf : P f) (h : matchItems? f items t = some f') : P f' := by
  fun_induction matchItems? f items t with
  | case1 f t hend => exact Option.some.inj h ▸ hf
  | case3 f c items t hblank ih | case4 f items c rest hblank ih =>
    exact ih (fun s hs => hP s (List.mem_cons_of_mem _ hs)) hf h
  | case7 f s items t g rest htake ih =>
    exact ih (fun s hs => hP s (List.mem_cons_of_mem _ hs))
      (hP s List.mem_cons_self _ _ _ _ htake hf) h
  | case2 | case5 | case6 | case8 | case9 => cases h

/-! ## Which fields a picture asks for -/

/-- The field belongs to a date. -/
def Specifier.isDate : Specifier → Bool
  | year | yearOfCentury | month | monthShort | monthName | day | weekdayShort | weekdayName => true
  | _ => false

/-- The field belongs to a time of day. -/
def Specifier.isTime : Specifier → Bool
  | hour | hourOfHalf | minute | second | milliseconds | microseconds | nanoseconds | half => true
  | _ => false

/-- The item is a specifier of such a field. -/
def PatternItem.asks (p : Specifier → Bool) : PatternItem → Bool
  | specifier s => p s
  | _ => false

/-- One of the items asks for such a field. -/
def Asks (p : Specifier → Bool) (items : List PatternItem) : Prop := ∃ i ∈ items, i.asks p = true

instance (p : Specifier → Bool) (items : List PatternItem) : Decidable (Asks p items) :=
  inferInstanceAs (Decidable (∃ i ∈ items, _))

/-- No field of a date is known. -/
structure Fields.NoDate (f : Fields) : Prop where
  year : f.year = none
  yearOfCentury : f.yearOfCentury = none
  month : f.month = none
  day : f.day = none
  weekday : f.weekday = none

/-- No field of a time of day is known. -/
structure Fields.NoTime (f : Fields) : Prop where
  half : f.half = none
  hourOfHalf : f.hourOfHalf = none
  minute : f.minute = none
  second : f.second = none
  nanosecond : f.nanosecond = none

theorem take?_noDate (hs : s.isDate = false) (h : s.take? f t = some (f', t')) (hf : f.NoDate) :
    f'.NoDate := by
  cases s <;> first | contradiction | skip
  all_goals
    simp only [Specifier.take?, Option.bind_eq_bind, Option.bind_eq_some_iff, Prod.exists,
      Option.pure_def, Option.some.injEq, Prod.mk.injEq] at h
  case hour =>
    obtain ⟨_, _, _, _, _, _, _, rfl, _⟩ := h
    exact ⟨hf.year, hf.yearOfCentury, hf.month, hf.day, hf.weekday⟩
  all_goals
    obtain ⟨_, _, _, _, _, rfl, _⟩ := h
    exact ⟨hf.year, hf.yearOfCentury, hf.month, hf.day, hf.weekday⟩

theorem take?_noTime (hs : s.isTime = false) (h : s.take? f t = some (f', t')) (hf : f.NoTime) :
    f'.NoTime := by
  cases s <;> first | contradiction | skip
  all_goals
    simp only [Specifier.take?, Option.bind_eq_bind, Option.bind_eq_some_iff, Prod.exists,
      Option.pure_def, Option.some.injEq, Prod.mk.injEq] at h
    obtain ⟨_, _, _, _, _, rfl, _⟩ := h
    exact ⟨hf.half, hf.hourOfHalf, hf.minute, hf.second, hf.nanosecond⟩

theorem noDate_of_not_asks (hn : ¬ Asks Specifier.isDate items)
    (h : matchItems? {} items t = some f) : f.NoDate :=
  matchItems?_preserves
    (fun _ hs _ _ _ _ => take?_noDate (Bool.eq_false_iff.mpr fun hd => hn ⟨_, hs, hd⟩))
    ⟨rfl, rfl, rfl, rfl, rfl⟩ h

theorem noTime_of_not_asks (hn : ¬ Asks Specifier.isTime items)
    (h : matchItems? {} items t = some f) : f.NoTime :=
  matchItems?_preserves
    (fun _ hs _ _ _ _ => take?_noTime (Bool.eq_false_iff.mpr fun hd => hn ⟨_, hs, hd⟩))
    ⟨rfl, rfl, rfl, rfl, rfl⟩ h

/-! ## Bounds -/

/-- A hundred years make a century, twelve hours half a day, and a fraction is less than a
second. -/
structure Fields.Bounded (f : Fields) : Prop where
  yearOfCentury : ∀ c ∈ f.yearOfCentury, c < 100
  hourOfHalf : ∀ h ∈ f.hourOfHalf, h < 12
  nanosecond : ∀ n ∈ f.nanosecond, n < 1000000000

theorem takeInRange?_le {low high n : ℕ} (h : takeInRange? low high t = some (n, t')) :
    n ≤ high := by
  unfold takeInRange? at h
  split at h
  · split at h
    · rename_i hmem
      cases h
      exact hmem.2
    · cases h
  · cases h

theorem takeFraction?_lt {places n : Nat} {t' : Text} (hplaces : places ≤ 9)
    (h : takeFraction? places t = some (n, t')) : n < 1000000000 := by
  obtain ⟨⟨m, rest⟩, hm, heq⟩ := Option.map_eq_some_iff.mp h
  obtain ⟨rfl, rfl⟩ := Prod.mk.inj heq
  simp only [takeNumber?] at hm
  split at hm
  · cases hm
  · obtain ⟨rfl, -⟩ := Prod.mk.inj (Option.some.inj hm)
    have hlt := Decimal.digitsValue_lt (t := (t.take places).takeWhile Char.isDigit)
      fun c hc => List.mem_takeWhile_imp hc
    have hlength : ((t.take places).takeWhile Char.isDigit).length ≤ places :=
      ((List.takeWhile_prefix _).length_le).trans (List.length_take_le _ _)
    calc Decimal.digitsValue ((t.take places).takeWhile Char.isDigit) * 10 ^ (9 - places)
        < 10 ^ places * 10 ^ (9 - places) :=
          Nat.mul_lt_mul_of_pos_right
            (hlt.trans_le (Nat.pow_le_pow_right (by decide) hlength)) (Nat.pow_pos (by decide))
      _ = 1000000000 := by rw [← pow_add, Nat.add_sub_cancel' hplaces]; rfl

theorem take?_bounded (h : s.take? f t = some (f', t')) (hf : f.Bounded) : f'.Bounded := by
  cases s <;>
    simp only [Specifier.take?, Option.bind_eq_bind, Option.bind_eq_some_iff, Prod.exists,
      Option.pure_def, Option.some.injEq, Prod.mk.injEq] at h
  case yearOfCentury =>
    obtain ⟨c, _, hc, o, ho, rfl, _⟩ := h
    obtain ⟨-, rfl⟩ := kept_of_agree ho
    exact ⟨by simpa using Nat.lt_succ_of_le (takeInRange?_le hc), hf.hourOfHalf, hf.nanosecond⟩
  case hour =>
    obtain ⟨n, _, _, _, _, o, ho, rfl, _⟩ := h
    obtain ⟨-, rfl⟩ := kept_of_agree ho
    exact ⟨hf.yearOfCentury, by simpa using Nat.mod_lt n (by decide : 12 > 0), hf.nanosecond⟩
  case hourOfHalf =>
    obtain ⟨n, _, _, o, ho, rfl, _⟩ := h
    obtain ⟨-, rfl⟩ := kept_of_agree ho
    exact ⟨hf.yearOfCentury, by simpa using Nat.mod_lt n (by decide : 12 > 0), hf.nanosecond⟩
  case milliseconds | microseconds | nanoseconds =>
    obtain ⟨n, _, hn, o, ho, rfl, _⟩ := h
    obtain ⟨-, rfl⟩ := kept_of_agree ho
    exact ⟨hf.yearOfCentury, hf.hourOfHalf, by simpa using takeFraction?_lt (by decide) hn⟩
  all_goals
    obtain ⟨_, _, _, _, _, rfl, _⟩ := h
    exact ⟨hf.yearOfCentury, hf.hourOfHalf, hf.nanosecond⟩

theorem bounded_of_matchItems? (h : matchItems? {} items t = some f) : f.Bounded :=
  matchItems?_preserves (fun _ _ _ _ _ _ => take?_bounded) (by constructor <;> simp) h

/-! ## Agreement -/

/-- The date has every field of a date that is known. -/
structure Fields.AgreesWithDate (f : Fields) (d : Date) : Prop where
  year : ∀ y ∈ f.year, d.year = y
  yearOfCentury : ∀ c ∈ f.yearOfCentury, d.year % 100 = c
  month : ∀ m ∈ f.month, d.month = m
  day : ∀ n ∈ f.day, d.day = n
  weekday : ∀ w ∈ f.weekday, d.weekday = w

/-- The time has every field of a time of day that is known. A leap second has number 60. -/
structure Fields.AgreesWithTime (f : Fields) (t : TimeOfDay) : Prop where
  half : ∀ h ∈ f.half, t.hour / 12 = h
  hourOfHalf : ∀ h ∈ f.hourOfHalf, t.hour % 12 = h
  minute : ∀ m ∈ f.minute, t.minute = m
  second : ∀ n ∈ f.second, t.second + t.nanosecond / 1000000000 = n
  nanosecond : ∀ n ∈ f.nanosecond, t.nanosecond % 1000000000 = n

namespace Fields

variable {g : Fields} {d today : Date} {time : TimeOfDay} {dt : DateTime}

theorem AgreesWithDate.mono (h : f.AgreesWithDate d) (hg : g.Within f) : g.AgreesWithDate d where
  year y hy := h.year y (hg.year y hy)
  yearOfCentury c hc := h.yearOfCentury c (hg.yearOfCentury c hc)
  month m hm := h.month m (hg.month m hm)
  day n hn := h.day n (hg.day n hn)
  weekday w hw := h.weekday w (hg.weekday w hw)

theorem AgreesWithTime.mono (h : f.AgreesWithTime time) (hg : g.Within f) :
    g.AgreesWithTime time where
  half n hn := h.half n (hg.half n hn)
  hourOfHalf n hn := h.hourOfHalf n (hg.hourOfHalf n hn)
  minute n hn := h.minute n (hg.minute n hn)
  second n hn := h.second n (hg.second n hn)
  nanosecond n hn := h.nanosecond n (hg.nanosecond n hn)

theorem NoDate.agrees (h : f.NoDate) (d : Date) : f.AgreesWithDate d := by
  constructor <;> simp [h.year, h.yearOfCentury, h.month, h.day, h.weekday]

theorem NoTime.agrees (h : f.NoTime) (t : TimeOfDay) : f.AgreesWithTime t := by
  constructor <;> simp [h.half, h.hourOfHalf, h.minute, h.second, h.nanosecond]

theorem NoDate.date?_eq_none (h : f.NoDate) : f.date? = none := by
  simp [date?, fullYear?, h.year, h.yearOfCentury]

theorem NoTime.time?_eq_none (h : f.NoTime) : f.time? = none := by
  simp [time?, h.half]

theorem fullYear?_eq_some {y : ℤ} (hf : f.Bounded) (h : f.fullYear? = some y) :
    (∀ z ∈ f.year, y = z) ∧ ∀ c ∈ f.yearOfCentury, y % 100 = c := by
  have hbound := hf.yearOfCentury
  unfold fullYear? at h
  split at h
  · rename_i z hyear hcentury
    simp_all
  · rename_i z c hyear hcentury
    split at h
    · rename_i hagree
      simp_all
    · cases h
  · rename_i c hyear hcentury
    have hc := hbound c hcentury
    obtain rfl := Option.some.inj h
    simp only [hyear, hcentury, Option.mem_def, reduceCtorEq, false_implies, implies_true,
      Option.some.injEq, forall_eq', true_and]
    split <;> omega
  · cases h

/-- A date is made of a full year, a month and a day, and it has them. -/
theorem date?_eq_some (hf : f.Bounded) (h : f.date? = some d) :
    f.AgreesWithDate d ∧ f.fullYear? = some d.year ∧ f.month = some d.month ∧
      f.day = some d.day := by
  simp only [date?, Option.bind_eq_bind, Option.bind_eq_some_iff] at h
  obtain ⟨y, hy, m, hm, n, hn, h⟩ := h
  split at h
  · obtain ⟨date, hdate, h⟩ := Option.bind_eq_some_iff.mp h
    split at h
    · rename_i hweekday
      obtain rfl := Option.some.inj h
      unfold Date.of? at hdate
      split at hdate
      · obtain rfl := Option.some.inj hdate
        obtain ⟨hyear, hcentury⟩ := fullYear?_eq_some hf hy
        refine ⟨⟨hyear, hcentury, by simp [hm], by simp [hn], fun w hw => ?_⟩, hy, hm, hn⟩
        rcases hweekday with hnone | hsome
        · simp [hnone] at hw
        · exact Option.some.inj (hsome.symm.trans hw)
      · cases hdate
    · cases h
  · cases h

theorem components_of_of? {h m n k : ℕ} (ht : TimeOfDay.of? h m n k = some time) :
    time.hour = h ∧ time.minute = m ∧ time.second = n ∧ time.nanosecond = k := by
  unfold TimeOfDay.of? at ht
  split at ht
  · obtain rfl := Option.some.inj ht
    exact ⟨rfl, rfl, rfl, rfl⟩
  · cases ht

/-- A time of day is made of a half, an hour of it and a minute, and it has them. -/
theorem time?_eq_some (hf : f.Bounded) (h : f.time? = some time) :
    f.AgreesWithTime time ∧ f.half = some (time.hour / 12) ∧
      f.hourOfHalf = some (time.hour % 12) ∧ f.minute = some time.minute := by
  simp only [time?, Option.bind_eq_bind, Option.bind_eq_some_iff] at h
  obtain ⟨half, hhalf, hour, hhour, minute, hminute, h⟩ := h
  have h12 := hf.hourOfHalf hour hhour
  have hnano : f.nanosecond.getD 0 < 1000000000 := by
    cases hn : f.nanosecond with
    | none => decide
    | some n => exact hf.nanosecond n hn
  split at h
  · cases h
  · rename_i hfraction
    suffices hs : time.hour = half * 12 + hour ∧ time.minute = minute ∧
        time.second + time.nanosecond / 1000000000 = f.second.getD 0 ∧
        time.nanosecond % 1000000000 = f.nanosecond.getD 0 by
      obtain ⟨hh, hmin, hsec, hnan⟩ := hs
      have hdiv : time.hour / 12 = half := by omega
      have hmod : time.hour % 12 = hour := by omega
      exact ⟨⟨by simp [hhalf, hdiv], by simp [hhour, hmod], by simp [hminute, hmin],
        fun n hn => by simp [hsec, Option.mem_def.mp hn],
        fun n hn => by simp [hnan, Option.mem_def.mp hn]⟩,
        by rw [hdiv, hhalf], by rw [hmod, hhour], by rw [hmin, hminute]⟩
    split at h
    · rename_i hleap
      obtain ⟨hh, hmin, hsec, hnan⟩ := components_of_of? h
      refine ⟨hh, hmin, ?_, ?_⟩ <;> omega
    · obtain ⟨hh, hmin, hsec, hnan⟩ := components_of_of? h
      refine ⟨hh, hmin, ?_, ?_⟩ <;> omega

/-- Items that ask for a date and for a time get both of them from the fields, or neither. -/
def Paired (f : Fields) (items : List PatternItem) : Prop :=
  Asks Specifier.isDate items → Asks Specifier.isTime items → (f.date? = none ↔ f.time? = none)

instance (f : Fields) (items : List PatternItem) : Decidable (f.Paired items) :=
  inferInstanceAs (Decidable (_ → _ → (_ ↔ _)))

end Fields

/-- A date-time does justice to a text: it agrees with every field that is supplied; if there is a
field of a date among the items, the text supplies the whole date, and otherwise it is today; if
there is a field of a time among them, the text supplies hour and minute, and otherwise it is
midnight. -/
structure Fulfils (items : List PatternItem) (t : Text) (f : Fields) (today : Date)
    (dt : DateTime) : Prop where
  agreesWithDate : ∀ g ∈ supplied items t, g.AgreesWithDate dt.date
  agreesWithTime : ∀ g ∈ supplied items t, g.AgreesWithTime dt.time
  date : Asks Specifier.isDate items → f.fullYear? = some dt.date.year ∧
    f.month = some dt.date.month ∧ f.day = some dt.date.day
  today : ¬ Asks Specifier.isDate items → dt.date = today
  time : Asks Specifier.isTime items → f.half = some (dt.time.hour / 12) ∧
    f.hourOfHalf = some (dt.time.hour % 12) ∧ f.minute = some dt.time.minute
  midnight : ¬ Asks Specifier.isTime items → dt.time = .midnight

variable {today : Date} {dt : DateTime}

theorem asks_of_date? (h : matchItems? {} items t = some f) (hd : f.date? ≠ none) :
    Asks Specifier.isDate items := by
  by_contra hn
  exact hd (noDate_of_not_asks hn h).date?_eq_none

theorem asks_of_time? (h : matchItems? {} items t = some f) (ht : f.time? ≠ none) :
    Asks Specifier.isTime items := by
  by_contra hn
  exact ht (noTime_of_not_asks hn h).time?_eq_none

theorem fulfils_of_dateTime? (h : matchItems? {} items t = some f) (hp : f.Paired items)
    (hdt : f.dateTime? today = some dt) : Fulfils items t f today dt := by
  have hf := bounded_of_matchItems? h
  have hwithin := (within_of_mem_supplied h).2
  unfold Fields.dateTime? at hdt
  split at hdt
  · rename_i d time hd ht
    obtain rfl := Option.some.inj hdt
    obtain ⟨hagreed, hdate⟩ := Fields.date?_eq_some hf hd
    obtain ⟨hagreet, htime⟩ := Fields.time?_eq_some hf ht
    exact ⟨fun g hg => hagreed.mono (hwithin g hg), fun g hg => hagreet.mono (hwithin g hg),
      fun _ => hdate, fun hn => absurd (asks_of_date? h (by simp [hd])) hn,
      fun _ => htime, fun hn => absurd (asks_of_time? h (by simp [ht])) hn⟩
  · rename_i d hd ht
    obtain rfl := Option.some.inj hdt
    obtain ⟨hagreed, hdate⟩ := Fields.date?_eq_some hf hd
    have hasks := asks_of_date? h (by simp [hd])
    have hnot : ¬ Asks Specifier.isTime items := fun hn => by
      simp [(hp hasks hn).mpr ht] at hd
    have hagreet := (noTime_of_not_asks hnot h).agrees TimeOfDay.midnight
    exact ⟨fun g hg => hagreed.mono (hwithin g hg), fun g hg => hagreet.mono (hwithin g hg),
      fun _ => hdate, fun hn => absurd hasks hn, fun hn => absurd hn hnot, fun _ => rfl⟩
  · rename_i time hd ht
    obtain rfl := Option.some.inj hdt
    obtain ⟨hagreet, htime⟩ := Fields.time?_eq_some hf ht
    have hasks := asks_of_time? h (by simp [ht])
    have hnot : ¬ Asks Specifier.isDate items := fun hn => by
      simp [(hp hn hasks).mp hd] at ht
    have hagreed := (noDate_of_not_asks hnot h).agrees today
    exact ⟨fun g hg => hagreed.mono (hwithin g hg), fun g hg => hagreet.mono (hwithin g hg),
      fun hn => absurd hn hnot, fun _ => rfl, fun _ => htime, fun hn => absurd hasks hn⟩
  · cases hdt

theorem read_eq_ok {picture text : Text} (h : read picture text today = .ok dt) :
    ∃ f, matchItems? {} (patternItems (patternOf picture)) (Text.trim text) = some f ∧
      f.dateTime? today = some dt := by
  unfold read at h
  dsimp only at h
  split at h
  · rename_i t ht
    obtain rfl := Except.ok.inj h
    exact Option.bind_eq_some_iff.mp ht
  · cases h

end DateFormat

/-! ## Formulas -/

namespace Intrinsic

theorem calls_stringtodatetime : Calls "stringtodatetime".toList (.two fromText) :=
  ⟨by decide, by decide, by rfl⟩

theorem result_fromText {A : Type} {c : Context A} {x y : A} {picture t : Text}
    (hx : (c.text x).result = .ok picture) (hy : (c.text y).result = .ok t) :
    (fromText c x y).result =
      ((DateFormat.read picture t c.today).map Serial.ofDateTime).mapError
        DateError.toFormulaError := by
  rw [← result_dated_map, fromText, Run.result_bind_of_ok hx, Run.result_bind_of_ok hy]

end Intrinsic

namespace Surroundings

open DateFormat

variable {s : Surroundings} {a b picture text : Text}

/-- A call that reads a date-time gives what the calendar makes of the two texts. -/
theorem isDated_stringtodatetime (ha : a.Standalone) (hb : b.Standalone)
    (hpicture : (s.evalText a).result = .ok picture) (htext : (s.evalText b).result = .ok text) :
    s.IsDated "stringtodatetime".toList (Text.call "stringtodatetime".toList [a, b])
      ((read picture text s.now.date).map Serial.ofDateTime) := by
  unfold IsDated
  rw [evalNumber_of_calls Intrinsic.calls_stringtodatetime (by simp [ha, hb]) rfl,
    Run.result_blamedOn, Intrinsic.result_fromText (c := s.ambient) hpicture htext]
  rfl

/-- Reading a date-time succeeds or is refused. Where it succeeds, the text supplies the fields of a
date-time, and the result does justice to them, unless the picture asks for a date and a time and
the fields make only one of the two. So, with the same exception, it is refused when no day agrees
with the fields of a date. -/
theorem stringtodatetime_fulfils (s : Surroundings) (ha : a.Standalone) (hb : b.Standalone)
    (hpicture : (s.evalText a).result = .ok picture) (htext : (s.evalText b).result = .ok text) :
    let formula := Text.call "stringtodatetime".toList [a, b]
    let items := patternItems (patternOf picture)
    let t := Text.trim text
    ((∃ v, (s.evalNumber formula).result = .ok v) ∨
      s.RefusesDate "stringtodatetime".toList formula) ∧
    (∀ v, (s.evalNumber formula).result = .ok v → ∃ f dt, matchItems? {} items t = some f ∧
      v = Serial.ofDateTime dt ∧ (f.Paired items → Fulfils items t f s.now.date dt)) ∧
    (∀ f, matchItems? {} items t = some f → f.Paired items →
      (∀ d : Date, ∃ g ∈ supplied items t, ¬ g.AgreesWithDate d) →
      s.RefusesDate "stringtodatetime".toList formula) := by
  intro formula items t
  have hdated := isDated_stringtodatetime ha hb hpicture htext
  have hsucceeds : ∀ v, (s.evalNumber formula).result = .ok v → ∃ f dt,
      matchItems? {} items t = some f ∧ v = Serial.ofDateTime dt ∧
        (f.Paired items → Fulfils items t f s.now.date dt) := by
    intro v hv
    cases hread : read picture text s.now.date with
    | error e =>
      rw [hread] at hdated
      exact nomatch (Eq.symm hdated).trans hv
    | ok dt =>
      rw [hread] at hdated
      obtain ⟨f, hf, hdt⟩ := read_eq_ok hread
      exact ⟨f, dt, hf, (Except.ok.inj ((Eq.symm hdated).trans hv)).symm,
        fun hp => fulfils_of_dateTime? hf hp hdt⟩
  have htotal : (∃ v, (s.evalNumber formula).result = .ok v) ∨
      s.RefusesDate "stringtodatetime".toList formula := by
    cases hread : read picture text s.now.date with
    | error e =>
      rw [hread] at hdated
      exact .inr hdated.refusesDate
    | ok dt =>
      rw [hread] at hdated
      exact .inl ⟨_, hdated⟩
  refine ⟨htotal, hsucceeds, fun f hf hp himpossible => htotal.resolve_left ?_⟩
  rintro ⟨v, hv⟩
  obtain ⟨f', dt, hf', -, hfulfils⟩ := hsucceeds v hv
  obtain rfl := Option.some.inj (hf.symm.trans hf')
  obtain ⟨g, hg, hnot⟩ := himpossible dt.date
  exact hnot ((hfulfils hp).agreesWithDate g hg)

/-- The day 31 and the month 2 are not those of any date. -/
theorem exists_not_agreesWithDate {gs : List Fields} (hday : { day := some 31 } ∈ gs)
    (hmonth : { month := some 2 } ∈ gs) (d : Date) : ∃ g ∈ gs, ¬ g.AgreesWithDate d := by
  by_contra h
  push Not at h
  have h31 : d.day = 31 := (h _ hday).day 31 rfl
  have h2 : d.month = 2 := (h _ hmonth).month 2 rfl
  have hlast := d.day_mem.2
  rw [h31, h2] at hlast
  generalize Calendar.isLeap d.year = leap at hlast
  cases leap <;> exact absurd hlast (by decide)

/-- The thirty-first of February is refused. -/
theorem stringtodatetime_fulfils_february :
    (initial {}).RefusesDate "stringtodatetime".toList
      (Text.call "stringtodatetime".toList
        ['\'' :: ("dd/MM/yyyy".toList ++ ['\'']), '\'' :: ("31/02/2024".toList ++ ['\''])]) := by
  have hpicture : ((initial {}).evalText ('\'' :: ("dd/MM/yyyy".toList ++ ['\'']))).result =
      .ok "dd/MM/yyyy".toList := by decide +kernel
  have htext : ((initial {}).evalText ('\'' :: ("31/02/2024".toList ++ ['\'']))).result =
      .ok "31/02/2024".toList := by decide +kernel
  have h := stringtodatetime_fulfils (initial {}) (.quoted (by decide) (by decide))
    (.quoted (by decide) (by decide)) hpicture htext
  exact h.2.2 { year := some 2024, month := some 2, day := some 31 } (by decide +kernel)
    (by decide +kernel) (exists_not_agreesWithDate (by decide +kernel) (by decide +kernel))

/-- Next to a time of day, a day that does not exist is read as today. -/
theorem exists_impossible_day_read :
    ((initial {}).evalNumber
        "stringtodatetime('dd/MM/yyyy HH:mm','31/02/2024 10:00')".toList).result =
      .ok (Serial.ofDateTime ⟨(initial {}).now.date, .ofMilliseconds 36000000⟩) ∧
    ∀ d : Date, ∃ g ∈ supplied (patternItems (patternOf "dd/MM/yyyy HH:mm".toList))
      "31/02/2024 10:00".toList, ¬ g.AgreesWithDate d :=
  ⟨by decide +kernel, exists_not_agreesWithDate (by decide +kernel) (by decide +kernel)⟩

end Surroundings

end FormulaEngine
