import FormulaEngine.Proofs.DateFields
import FormulaEngine.Proofs.Patterns

/-! # Complete pictures

A picture is complete when it shows every component of a date-time once. Literals in quotes may
stand between the components, and hold what they like: digits, percent signs, letters of fields,
blanks. What such a picture writes of a date-time is read by it as the same date-time. Components
have a fixed width, so none of them takes digits of its neighbours; and blanks match any number of
blanks, so it does not matter that the text is trimmed and the picture is not. -/

namespace FormulaEngine

/-- No fraction of a second. A leap second that has just begun counts, too. -/
def TimeOfDay.IsWholeSecond (t : TimeOfDay) : Prop :=
  t.nanosecond = 0 ∨ t.second = 59 ∧ t.nanosecond = 1000000000

instance (t : TimeOfDay) : Decidable t.IsWholeSecond := inferInstanceAs (Decidable (_ ∨ _))

/-! ## Numbers of a fixed width -/

/-- Decimal digits, with zeros in front up to a width. -/
def Text.padded (width n : ℕ) : Text :=
  List.replicate (width - (Text.ofNat n).length) '0' ++ Text.ofNat n

namespace Decimal

theorem digits_padded (width n : ℕ) : Digits (Text.padded width n) :=
  (digits_zeros _).append (digits_ofNat n)

theorem digitsValue_padded (width n : ℕ) : digitsValue (Text.padded width n) = n := by
  rw [Text.padded, digitsValue_zeros_append, digitsValue_ofNat]

theorem length_padded {width n : ℕ} (hwidth : 0 < width) (hn : n < 10 ^ width) :
    (Text.padded width n).length = width := by
  have hlength : (Text.ofNat n).length ≤ width :=
    (Nat.length_toDigits_le_iff (by decide) hwidth).mpr hn
  rw [Text.padded, List.length_append, List.length_replicate]
  omega

end Decimal

theorem isBlank_of_isDigit {c : Char} (h : c.isDigit = true) : isBlank c = false := by
  have all : ∀ c ∈ "0123456789".toList, isBlank c = false := by decide
  exact all c (mem_digits_of_isDigit h)

namespace DateFormat

open Decimal

section

variable {width n : ℕ}

/-- A number is taken off a text with all the digits that it has room for. -/
theorem takeNumber?_padded {fewest : ℕ} (hwidth : 0 < width) (hfewest : fewest ≤ width)
    (hn : n < 10 ^ width) (rest : Text) :
    takeNumber? fewest width (Text.padded width n ++ rest) = some (n, rest) := by
  have hlength := length_padded hwidth hn
  have htake : (Text.padded width n ++ rest).take width = Text.padded width n :=
    List.take_left' hlength
  have hdigits : (Text.padded width n).takeWhile Char.isDigit = Text.padded width n :=
    List.takeWhile_eq_self_iff.mpr (digits_padded width n)
  simp only [takeNumber?, htake, hdigits, hlength, if_neg (not_lt.mpr hfewest),
    List.drop_left' hlength, digitsValue_padded]

/-- A number does not begin with a blank or a sign. -/
theorem exists_padded_append (hwidth : 0 < width) (hn : n < 10 ^ width) (rest : Text) :
    ∃ d tail, Text.padded width n ++ rest = d :: tail ∧ d.isDigit = true := by
  have hlength := length_padded hwidth hn
  have hdigits := digits_padded width n
  cases h : Text.padded width n with
  | nil =>
    rw [h] at hlength
    exact absurd hlength.symm hwidth.ne'
  | cons d tail =>
    rw [h] at hdigits
    exact ⟨d, tail ++ rest, rfl, hdigits d List.mem_cons_self⟩

theorem trimStart_padded (hwidth : 0 < width) (hn : n < 10 ^ width) (rest : Text) :
    Text.trimStart (Text.padded width n ++ rest) = Text.padded width n ++ rest := by
  obtain ⟨d, tail, heq, hd⟩ := exists_padded_append hwidth hn rest
  rw [heq, Text.trimStart_cons_of_not (isBlank_of_isDigit hd)]

theorem takeInRange?_padded {low high : ℕ} (hlow : low ≤ n) (hhigh : n ≤ high) (hn : high < 100)
    (rest : Text) : takeInRange? low high (Text.padded 2 n ++ rest) = some (n, rest) := by
  have hlt : n < 10 ^ 2 := by omega
  rw [takeInRange?, trimStart_padded (by decide) hlt,
    takeNumber?_padded (by decide) (by decide) hlt]
  exact if_pos ⟨hlow, hhigh⟩

theorem takeYear?_padded (hn : n < 10 ^ 4) (rest : Text) :
    takeYear? (Text.padded 4 n ++ rest) = some ((n : ℤ), rest) := by
  have hnumber : takeNumber? 1 4 (Text.padded 4 n ++ rest) = some (n, rest) :=
    takeNumber?_padded (by decide) (by decide) hn rest
  obtain ⟨d, tail, heq, hd⟩ := exists_padded_append (by decide) hn rest
  rw [takeYear?, trimStart_padded (by decide) hn]
  rw [heq] at hnumber ⊢
  dsimp only
  split
  · rename_i h
    cases h
    exact absurd hd (by decide)
  · rename_i h
    cases h
    exact absurd hd (by decide)
  · rw [hnumber]
    refine Option.filter_eq_some_iff.mpr ⟨rfl, ?_⟩
    simp
    omega

end

/-! ## Components -/

variable {f g : Fields} {t : DateTime} {items : List PatternItem}

/-- What a complete picture shows of a date-time. -/
inductive Component where
  | year
  | month
  | day
  | hour
  | minute
  | second
  deriving DecidableEq, Repr

namespace Component

def letter : Component → Char
  | year => 'y'
  | month => 'M'
  | day => 'd'
  | hour => 'H'
  | minute => 'm'
  | second => 's'

def width : Component → ℕ
  | year => 4
  | month | day | hour | minute | second => 2

def specifier : Component → Specifier
  | year => .year
  | month => .month
  | day => .day
  | hour => .hour
  | minute => .minute
  | second => .second

/-- Its number. A leap second has number 60. -/
def value (t : DateTime) : Component → ℕ
  | year => t.date.year.toNat
  | month => t.date.month
  | day => t.date.day
  | hour => t.time.hour
  | minute => t.time.minute
  | second => t.time.second + t.time.nanosecond / 1000000000

/-- How it is written. -/
def render (t : DateTime) (c : Component) : Text := Text.padded c.width (c.value t)

theorem width_pos (c : Component) : 0 < c.width := by cases c <;> decide

theorem letter_injective {c c' : Component} (h : c.letter = c'.letter) : c = c' := by
  revert h
  cases c <;> cases c' <;> decide

theorem isFieldLetter_letter (c : Component) : isFieldLetter c.letter = true := by
  cases c <;> decide

theorem fieldSpecifier_letter (c : Component) :
    fieldSpecifier c.letter c.width = some c.specifier := by
  cases c <;> rfl

theorem value_lt (hy : t.date.year ≤ 9999) (c : Component) : c.value t < 10 ^ c.width := by
  have hmonth := t.date.month_mem
  have hday := t.date.day_mem.2.trans (Calendar.monthLength_le _ _)
  have hhour := t.time.hour_lt
  have hminute := t.time.minute_lt
  have hsecond := t.time.second_lt
  have hnano := t.time.nanosecond_lt
  cases c <;> simp only [value, width] <;> omega

/-- The fields with what the component supplies. -/
def fill (t : DateTime) (f : Fields) : Component → Fields
  | year => { f with year := some t.date.year }
  | month => { f with month := some t.date.month }
  | day => { f with day := some t.date.day }
  | hour => { f with half := some (t.time.hour / 12), hourOfHalf := some (t.time.hour % 12) }
  | minute => { f with minute := some t.time.minute }
  | second => { f with second := some (t.time.second + t.time.nanosecond / 1000000000) }

/-- The fields have what the component supplies. -/
def Known (t : DateTime) (f : Fields) : Component → Prop
  | year => f.year = some t.date.year
  | month => f.month = some t.date.month
  | day => f.day = some t.date.day
  | hour => f.half = some (t.time.hour / 12) ∧ f.hourOfHalf = some (t.time.hour % 12)
  | minute => f.minute = some t.time.minute
  | second => f.second = some (t.time.second + t.time.nanosecond / 1000000000)

theorem known_fill (c : Component) : c.Known t (c.fill t f) := by
  cases c <;> first | rfl | exact ⟨rfl, rfl⟩

theorem Known.fill {c : Component} (h : c.Known t f) (c' : Component) :
    c.Known t (c'.fill t f) := by
  cases c <;> cases c' <;> first | exact h | rfl | exact ⟨rfl, rfl⟩

end Component

/-- No field that is known differs from the date-time's. -/
structure Fields.Agrees (f : Fields) (t : DateTime) : Prop where
  date : f.AgreesWithDate t.date
  time : f.AgreesWithTime t.time

theorem Fields.agrees_empty (t : DateTime) : Fields.Agrees {} t :=
  ⟨NoDate.agrees ⟨rfl, rfl, rfl, rfl, rfl⟩ _, NoTime.agrees ⟨rfl, rfl, rfl, rfl, rfl⟩ _⟩

theorem Fields.Agrees.fill (h : f.Agrees t) (c : Component) : (c.fill t f).Agrees t := by
  obtain ⟨⟨hyear, hcentury, hmonth, hday, hweekday⟩, hhalf, hhour, hminute, hsecond, hnano⟩ := h
  cases c <;> refine ⟨⟨?_, ?_, ?_, ?_, ?_⟩, ?_, ?_, ?_, ?_, ?_⟩ <;>
    first | assumption | exact fun v hv => Option.some.inj hv

theorem agree_of_forall {α : Type} [DecidableEq α] {old : Option α} {new : α}
    (h : ∀ v ∈ old, new = v) : agree old new = some (some new) := by
  refine if_pos ?_
  cases old with
  | none => exact .inl rfl
  | some v => exact .inr (congrArg some (h v rfl).symm)

/-- A component that is written is taken off again, whatever follows it. -/
theorem Component.take?_render (c : Component) (hf : f.Agrees t)
    (hy : 1 ≤ t.date.year ∧ t.date.year ≤ 9999) (rest : Text) :
    c.specifier.take? f (c.render t ++ rest) = some (c.fill t f, rest) := by
  obtain ⟨⟨hyear, -, hmonth, hday, -⟩, hhalf, hhour, hminute, hsecond, -⟩ := hf
  have hlength := Calendar.monthLength_le (Calendar.isLeap t.date.year) t.date.month
  have hsecond_lt := t.time.second_lt
  have hnano_lt := t.time.nanosecond_lt
  cases c with
  | year =>
    have hvalue := year.value_lt hy.2
    have htake := takeYear?_padded hvalue rest
    rw [value, Int.toNat_of_nonneg (by omega)] at htake
    simp [specifier, Specifier.take?, render, width, value, htake, agree_of_forall hyear, fill]
  | month =>
    have htake := takeInRange?_padded t.date.month_mem.1 t.date.month_mem.2 (by decide) rest
    simp [specifier, Specifier.take?, render, width, value, htake, agree_of_forall hmonth, fill]
  | day =>
    have htake := takeInRange?_padded t.date.day_mem.1 (t.date.day_mem.2.trans hlength) (by decide)
      rest
    simp [specifier, Specifier.take?, render, width, value, htake, agree_of_forall hday, fill]
  | hour =>
    have htake := takeInRange?_padded (Nat.zero_le _) (Nat.le_of_lt_succ t.time.hour_lt)
      (by decide) rest
    simp [specifier, Specifier.take?, render, width, value, htake, agree_of_forall hhalf,
      agree_of_forall hhour, fill]
  | minute =>
    have htake := takeInRange?_padded (Nat.zero_le _) (Nat.le_of_lt_succ t.time.minute_lt)
      (by decide) rest
    simp [specifier, Specifier.take?, render, width, value, htake, agree_of_forall hminute, fill]
  | second =>
    have hle : t.time.second + t.time.nanosecond / 1000000000 ≤ 60 := by omega
    have htake := takeInRange?_padded (Nat.zero_le _) hle (by decide) rest
    simp [specifier, Specifier.take?, render, width, value, htake, agree_of_forall hsecond, fill]

/-! ## Blanks -/

/-- Blanks in front of what the specifier takes are skipped. -/
def Specifier.SkipsBlanks (s : Specifier) : Prop :=
  ∀ f t, s.take? f (Text.trimStart t) = s.take? f t

theorem Component.skipsBlanks (c : Component) : c.specifier.SkipsBlanks := by
  intro f t
  cases c <;>
    simp only [specifier, Specifier.take?, takeYear?, takeInRange?, Text.trimStart_trimStart]

/-- A text that matches does so without the blanks in front of it. -/
theorem matchItems?_trimStart {text : Text} (hitems : ∀ s, .specifier s ∈ items → s.SkipsBlanks)
    (h : matchItems? f items text = some g) :
    matchItems? f items (Text.trimStart text) = some g := by
  cases items with
  | nil =>
    cases text with
    | nil => exact h
    | cons d rest => cases h
  | cons i items =>
    cases i with
    | char c =>
      by_cases hc : isBlank c = true
      · simpa only [matchItems?, if_pos hc, Text.trimStart_trimStart] using h
      · cases text with
        | nil => exact h
        | cons d rest =>
          have hd : d = c := by
            by_contra hne
            simp [matchItems?, hc, hne] at h
          rwa [Text.trimStart_cons_of_not (by simpa [hd] using hc)]
    | specifier s => simpa only [matchItems?, hitems s List.mem_cons_self _ text] using h
    | invalid => cases h

/-- A literal matches itself, also when blanks at the end of the text have been taken away. -/
theorem matchItems?_literal {content rest : Text}
    (hitems : ∀ s, .specifier s ∈ items → s.SkipsBlanks)
    (h : matchItems? f items (Text.trimEnd rest) = some g) :
    matchItems? f (content.map .char ++ items) (Text.trimEnd (content ++ rest)) = some g := by
  induction content with
  | nil => exact h
  | cons c content ih =>
    have hskip : ∀ s, .specifier s ∈ content.map PatternItem.char ++ items → s.SkipsBlanks :=
      fun s hs => hitems s ((List.mem_append.mp hs).resolve_left (by simp))
    rw [List.map_cons, List.cons_append, List.cons_append]
    by_cases hc : isBlank c = true
    · simp only [matchItems?, if_pos hc, Text.trimStart_trimEnd_cons hc]
      exact matchItems?_trimStart hskip ih
    · have hend : Text.trimEnd (c :: (content ++ rest)) = c :: Text.trimEnd (content ++ rest) :=
        Text.trimEnd_append_cons (by simpa using hc) [] _
      rw [hend]
      simpa only [matchItems?, if_neg hc, if_true] using ih

/-! ## Parts -/

/-- A part of a picture: the run of letters for a component, or a literal between quotes. -/
inductive PicturePart where
  | component (c : Component)
  | quoted (content : Text) (free : '\'' ∉ content)

namespace PicturePart

/-- How the part stands in a picture. -/
def picture : PicturePart → Text
  | component c => List.replicate c.width c.letter
  | quoted content _ => '\'' :: (content ++ ['\''])

/-- What the part writes of a date-time. -/
def render (t : DateTime) : PicturePart → Text
  | component c => c.render t
  | quoted content _ => content

def components : PicturePart → List Component
  | component c => [c]
  | quoted _ _ => []

def unit : PicturePart → PictureUnit
  | component c => .field c.letter c.width
  | quoted content _ => .literal content

theorem items_component (c : Component) : (component c).unit.items = [.specifier c.specifier] := by
  simp only [unit, PictureUnit.items, c.fieldSpecifier_letter]

variable {parts : List PicturePart}

theorem skipsBlanks_of_mem {s : Specifier}
    (h : .specifier s ∈ parts.flatMap fun p => p.unit.items) : s.SkipsBlanks := by
  obtain ⟨p, -, hs⟩ := List.mem_flatMap.mp h
  cases p with
  | component c =>
    rw [items_component, List.mem_singleton] at hs
    exact PatternItem.specifier.inj hs ▸ c.skipsBlanks
  | quoted content free => simp [unit, PictureUnit.items] at hs

/-- A letter begins only a part with its component. -/
theorem head?_flatMap_picture {c : Component} (h : c ∉ parts.flatMap components) :
    (parts.flatMap picture).head? ≠ some c.letter := by
  cases parts with
  | nil => exact nofun
  | cons p parts =>
    rw [List.flatMap_cons] at h ⊢
    cases p with
    | component c' =>
      have hhead : (component c').picture.head? = some c'.letter := by cases c' <;> rfl
      rw [List.head?_append, hhead, Option.some_or]
      intro hletter
      have hc := Component.letter_injective (Option.some.inj hletter)
      exact h (by simp [components, hc])
    | quoted content free =>
      intro hletter
      have hquote : '\'' = c.letter := Option.some.inj hletter
      exact absurd hquote (by cases c <;> decide)

/-- As long as no component occurs twice, the parts are the units of the picture. -/
theorem pictureUnits_flatMap_picture (h : (parts.flatMap components).Nodup) :
    pictureUnits (parts.flatMap picture) = parts.map unit := by
  induction parts with
  | nil => rw [List.flatMap_nil, pictureUnits, List.map_nil]
  | cons p parts ih =>
    rw [List.flatMap_cons] at h
    rw [List.flatMap_cons, List.map_cons, ← ih h.of_append_right]
    cases p with
    | component c =>
      have hnot : c ∉ parts.flatMap components := (List.nodup_cons.mp h).1
      have hwidth : c.width = c.width - 1 + 1 := (Nat.succ_pred_eq_of_pos c.width_pos).symm
      simp only [picture, unit]
      rw [hwidth]
      exact pictureUnits_run c.isFieldLetter_letter _ (head?_flatMap_picture hnot)
    | quoted content free =>
      rw [picture, List.cons_append, List.append_assoc]
      exact pictureUnits_closed (.inl rfl) free _

/-- What the parts write matches them. Then every component among them is known, and whatever is
known is as in the date-time. -/
theorem exists_matchItems? (parts : List PicturePart)
    (hy : 1 ≤ t.date.year ∧ t.date.year ≤ 9999) (hf : f.Agrees t) :
    ∃ g, matchItems? f (parts.flatMap fun p => p.unit.items)
        (Text.trimEnd (parts.flatMap (render t))) = some g ∧ g.Agrees t ∧
      ∀ c : Component, c ∈ parts.flatMap components ∨ c.Known t f → c.Known t g := by
  induction parts generalizing f with
  | nil => exact ⟨f, rfl, hf, fun c hc => hc.resolve_left nofun⟩
  | cons p parts ih =>
    simp only [List.flatMap_cons]
    cases p with
    | component c =>
      obtain ⟨g, hg, hagrees, hknown⟩ := ih (hf.fill c)
      refine ⟨g, ?_, hagrees, fun c' hc' => hknown c' ?_⟩
      · have hblank : ∀ d ∈ c.render t, isBlank d = false := fun d hd =>
          isBlank_of_isDigit (digits_padded _ _ d hd)
        rw [items_component, render, Text.trimEnd_append hblank, List.singleton_append, matchItems?,
          c.take?_render hf hy]
        exact hg
      · rcases hc' with hmem | hold
        · rcases List.mem_cons.mp hmem with rfl | hmem
          · exact .inr (Component.known_fill c')
          · exact .inl hmem
        · exact .inr (hold.fill c)
    | quoted content free =>
      obtain ⟨g, hg, hagrees, hknown⟩ := ih hf
      exact ⟨g, matchItems?_literal (fun s => skipsBlanks_of_mem) hg, hagrees, hknown⟩

end PicturePart

/-! ## Date-times of fields -/

namespace Fields

/-- A year, a month and a day make the date that agrees with the fields. -/
theorem date?_of_known (h : f.Agrees t) (hy : 1 ≤ t.date.year ∧ t.date.year ≤ 9999)
    (hyear : f.year = some t.date.year) (hmonth : f.month = some t.date.month)
    (hday : f.day = some t.date.day) : f.date? = some t.date := by
  have hfull : f.fullYear? = some t.date.year := by
    rw [fullYear?, hyear]
    cases hcentury : f.yearOfCentury with
    | none => rfl
    | some c => exact if_pos ⟨by omega, h.date.yearOfCentury c hcentury⟩
  have hof : Date.of? t.date.year t.date.month t.date.day = some t.date :=
    dif_pos ⟨t.date.month_mem, t.date.day_mem⟩
  have hweekday : f.weekday = none ∨ f.weekday = some t.date.weekday := by
    cases hw : f.weekday with
    | none => exact .inl rfl
    | some w => exact .inr (congrArg some (h.date.weekday w hw).symm)
  simp only [date?, hfull, hmonth, hday, hof, Option.bind_eq_bind, Option.bind_some]
  rw [if_pos (by omega)]
  exact if_pos hweekday

/-- Half a day, an hour of it, a minute and a second make the time that agrees with the fields. -/
theorem time?_of_known (h : f.Agrees t) (hs : t.time.IsWholeSecond)
    (hhour : f.half = some (t.time.hour / 12) ∧ f.hourOfHalf = some (t.time.hour % 12))
    (hminute : f.minute = some t.time.minute)
    (hsecond : f.second = some (t.time.second + t.time.nanosecond / 1000000000)) :
    f.time? = some t.time := by
  have hnano : f.nanosecond.getD 0 = 0 := by
    cases hn : f.nanosecond with
    | none => rfl
    | some n =>
      have hagree := h.time.nanosecond n hn
      rcases hs with hzero | ⟨-, hleap⟩
      · simp [← hagree, hzero]
      · simp [← hagree, hleap]
  have hdivide : t.time.hour / 12 * 12 + t.time.hour % 12 = t.time.hour := Nat.div_add_mod' _ _
  have hof : TimeOfDay.of? t.time.hour t.time.minute t.time.second t.time.nanosecond =
      some t.time :=
    dif_pos ⟨t.time.hour_lt, t.time.minute_lt, t.time.second_lt, t.time.nanosecond_lt⟩
  simp only [time?, hhour.1, hhour.2, hminute, hsecond, hnano, hdivide, Option.bind_eq_bind,
    Option.bind_some, Option.isNone_some, Bool.false_eq_true, and_false, if_false, Option.getD_some]
  rcases hs with hzero | ⟨hlast, hleap⟩
  · rw [hzero] at hof ⊢
    rw [Nat.zero_div, Nat.add_zero, if_neg t.time.second_lt.ne, hof]
  · rw [hlast, hleap] at hof ⊢
    exact hof

end Fields

/-! ## Complete pictures -/

/-- A picture that shows every component once. -/
structure CompletePicture where
  parts : List PicturePart
  complete : ∀ c, (parts.flatMap PicturePart.components).count c = 1

namespace CompletePicture

def text (p : CompletePicture) : Text := p.parts.flatMap PicturePart.picture

def render (p : CompletePicture) (t : DateTime) : Text := p.parts.flatMap (PicturePart.render t)

theorem items_eq (p : CompletePicture) :
    patternItems (patternOf p.text) = p.parts.flatMap fun p => p.unit.items := by
  have hnodup : (p.parts.flatMap PicturePart.components).Nodup :=
    List.nodup_iff_count_le_one.mpr fun c => (p.complete c).le
  rw [patternItems_patternOf, text, PicturePart.pictureUnits_flatMap_picture hnodup,
    List.flatMap_map]

/-- A complete picture reads the date-time that it has written, whatever day it is. -/
theorem read_render (p : CompletePicture) (hy : 1 ≤ t.date.year ∧ t.date.year ≤ 9999)
    (hs : t.time.IsWholeSecond) (today : Date) : read p.text (p.render t) today = .ok t := by
  obtain ⟨f, hf, hagrees, hknown⟩ :=
    PicturePart.exists_matchItems? p.parts hy (Fields.agrees_empty t)
  have hall : ∀ c : Component, c.Known t f := fun c =>
    hknown c (.inl (List.count_pos_iff.mp (by rw [p.complete c]; exact one_pos)))
  have hmatch : matchItems? {} (patternItems (patternOf p.text)) (Text.trim (p.render t)) =
      some f := by
    rw [p.items_eq, Text.trim_eq_trimStart_trimEnd]
    exact matchItems?_trimStart (fun s => PicturePart.skipsBlanks_of_mem) hf
  have hdate := Fields.date?_of_known hagrees hy (hall .year) (hall .month) (hall .day)
  have htime := Fields.time?_of_known hagrees hs (hall .hour) (hall .minute) (hall .second)
  simp only [read, hmatch, Option.bind_some, Fields.dateTime?, hdate, htime]

/-- Components without anything between them, behind and in front of literals with blanks, digits, a
percent sign and letters of fields. -/
theorem read_render_adjacent :
    read "' 7%'ssmm'd 'HHddMMyyyy' H '".toList " 7%0559d 2329020004 H ".toList
        ⟨2024, 1, 15, by decide, by decide⟩ =
      .ok ⟨⟨4, 2, 29, by decide, by decide⟩,
        ⟨23, 59, 5, 0, by decide, by decide, by decide, by decide⟩⟩ := by
  let p : CompletePicture := ⟨[.quoted " 7%".toList (by decide), .component .second,
    .component .minute, .quoted "d ".toList (by decide), .component .hour, .component .day,
    .component .month, .component .year, .quoted " H ".toList (by decide)],
    fun c => by cases c <;> decide⟩
  let t : DateTime := ⟨⟨4, 2, 29, by decide, by decide⟩,
    ⟨23, 59, 5, 0, by decide, by decide, by decide, by decide⟩⟩
  have htext : p.text = "' 7%'ssmm'd 'HHddMMyyyy' H '".toList := by decide +kernel
  have hrender : p.render t = " 7%0559d 2329020004 H ".toList := by decide +kernel
  rw [← htext, ← hrender]
  exact p.read_render (by decide) (by decide) _

end CompletePicture

end DateFormat

end FormulaEngine
