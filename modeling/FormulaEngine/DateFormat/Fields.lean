import FormulaEngine.Calendar.Weekday
import FormulaEngine.DateFormat.Pattern
import FormulaEngine.Decimal.Numeral
import FormulaEngine.Text.Blank

/-! Matching a text with the items of a pattern. Each specifier takes its value off the front of the
text, if it is in range; a field that occurs twice must have the same value both times. -/

namespace FormulaEngine.DateFormat

/-- The fields that a text has supplied. -/
structure Fields where
  year : Option Int := none
  yearOfCentury : Option Nat := none
  month : Option Nat := none
  day : Option Nat := none
  weekday : Option Weekday := none
  /-- 0 before noon and 1 after. -/
  half : Option Nat := none
  hourOfHalf : Option Nat := none
  minute : Option Nat := none
  second : Option Nat := none
  nanosecond : Option Nat := none
  /-- Seconds east of Greenwich. -/
  offset : Option Int := none
  deriving DecidableEq

/-- A field with a value, unless it has another value already. -/
def agree {α : Type} [DecidableEq α] (old : Option α) (new : α) : Option (Option α) :=
  if old = none ∨ old = some new then some (some new) else none

theorem agree_eq_some {α : Type} [DecidableEq α] {old : Option α} {new : α} {o : Option α}
    (h : agree old new = some o) : o = some new ∧ ∀ v, old = some v → v = new := by
  unfold agree at h
  split at h
  · rename_i hold
    refine ⟨(Option.some.inj h).symm, fun v hv => ?_⟩
    rcases hold with hn | hs
    · simp [hn] at hv
    · exact Option.some.inj (hv.symm.trans hs)
  · contradiction

/-- The number that a text begins with, of at least `fewest` and at most `most` digits. -/
def takeNumber? (fewest most : Nat) (t : Text) : Option (Nat × Text) :=
  let digits := (t.take most).takeWhile Char.isDigit
  if digits.length < fewest then none
  else some (Decimal.digitsValue digits, t.drop digits.length)

/-- One or two digits behind any blanks, for a number in a range. -/
def takeInRange? (low high : Nat) (t : Text) : Option (Nat × Text) :=
  match takeNumber? 1 2 (Text.trimStart t) with
  | some (n, rest) => if low ≤ n ∧ n ≤ high then some (n, rest) else none
  | none => none

/-- A year behind any blanks: up to four digits, or a sign and any number of them. -/
def takeYear? (t : Text) : Option (Int × Text) :=
  let signed (sign : Int) (t : Text) : Option (Int × Text) :=
    (takeNumber? 1 t.length t).map fun (n, rest) => (sign * n, rest)
  let year : Option (Int × Text) :=
    match Text.trimStart t with
    | '-' :: rest => signed (-1) rest
    | '+' :: rest => signed 1 rest
    | t => (takeNumber? 1 4 t).map fun (n, rest) => (Int.ofNat n, rest)
  year.filter fun (y, _) => -0x80000000 ≤ y ∧ y < 0x80000000

/-- The number of the first of the lower-case names whose three first letters begin the text. With
`whole` the rest of the name is taken too, if it is there. -/
def takeName? (names : List Text) (whole : Bool) (t : Text) : Option (Nat × Text) :=
  (names.findIdx? (·.take 3 == Text.foldCase (t.take 3))).map fun i =>
    let tail := (names.getD i []).drop 3
    let rest := t.drop 3
    if whole && Text.foldCase (rest.take tail.length) == tail then (i, rest.drop tail.length)
    else (i, rest)

def monthNames : List Text := [
  "january".toList, "february".toList, "march".toList, "april".toList, "may".toList,
  "june".toList, "july".toList, "august".toList, "september".toList, "october".toList,
  "november".toList, "december".toList]

def weekdayNames : List Text := Weekday.all.map fun d => Text.foldCase d.name.toList

/-- `am` or `pm`, in any case. -/
def takeHalf? (t : Text) : Option (Nat × Text) :=
  let word := Text.foldCase (t.take 2)
  if word = "am".toList then some (0, t.drop 2)
  else if word = "pm".toList then some (1, t.drop 2)
  else none

/-- A sign and hours and minutes of two digits each, with colons and blanks between them. -/
def takeOffset? (t : Text) : Option (Int × Text) := do
  let (sign, t) ←
    match Text.trimStart t with
    | '+' :: rest => some ((1 : Int), rest)
    | '-' :: rest => some (-1, rest)
    | '−' :: rest => some (-1, rest)
    | _ => none
  let (hours, t) ← takeNumber? 2 2 t
  let (minutes, t) ← takeNumber? 2 2 (t.dropWhile fun c => c == ':' || isBlank c)
  if minutes < 60 then some (sign * (hours * 3600 + minutes * 60 : Nat), t) else none

/-- The fraction of a second in `places` digits, as nanoseconds. -/
def takeFraction? (places : Nat) (t : Text) : Option (Nat × Text) :=
  (takeNumber? places places t).map fun (n, rest) => (n * Nat.pow 10 (9 - places), rest)

/-- The fields and the rest of the text behind a specifier. -/
def Specifier.take? (s : Specifier) (f : Fields) (t : Text) : Option (Fields × Text) :=
  match s with
  | year => do
    let (y, t) ← takeYear? t
    return ({ f with year := ← agree f.year y }, t)
  | yearOfCentury => do
    let (y, t) ← takeInRange? 0 99 t
    return ({ f with yearOfCentury := ← agree f.yearOfCentury y }, t)
  | month => do
    let (m, t) ← takeInRange? 1 12 t
    return ({ f with month := ← agree f.month m }, t)
  | monthShort => do
    let (i, t) ← takeName? monthNames false t
    return ({ f with month := ← agree f.month (i + 1) }, t)
  | monthName => do
    let (i, t) ← takeName? monthNames true t
    return ({ f with month := ← agree f.month (i + 1) }, t)
  | day => do
    let (d, t) ← takeInRange? 1 31 t
    return ({ f with day := ← agree f.day d }, t)
  | weekdayShort => do
    let (i, t) ← takeName? weekdayNames false t
    return ({ f with weekday := ← agree f.weekday (.nth i) }, t)
  | weekdayName => do
    let (i, t) ← takeName? weekdayNames true t
    return ({ f with weekday := ← agree f.weekday (.nth i) }, t)
  | hour => do
    let (h, t) ← takeInRange? 0 23 t
    return ({ f with
      half := ← agree f.half (h / 12), hourOfHalf := ← agree f.hourOfHalf (h % 12) }, t)
  | hourOfHalf => do
    let (h, t) ← takeInRange? 1 12 t
    return ({ f with hourOfHalf := ← agree f.hourOfHalf (h % 12) }, t)
  | minute => do
    let (m, t) ← takeInRange? 0 59 t
    return ({ f with minute := ← agree f.minute m }, t)
  | second => do
    let (s, t) ← takeInRange? 0 60 t
    return ({ f with second := ← agree f.second s }, t)
  | milliseconds => do
    let (n, t) ← takeFraction? 3 t
    return ({ f with nanosecond := ← agree f.nanosecond n }, t)
  | microseconds => do
    let (n, t) ← takeFraction? 6 t
    return ({ f with nanosecond := ← agree f.nanosecond n }, t)
  | nanoseconds => do
    let (n, t) ← takeFraction? 9 t
    return ({ f with nanosecond := ← agree f.nanosecond n }, t)
  | half => do
    let (h, t) ← takeHalf? t
    return ({ f with half := ← agree f.half h }, t)
  | offset => do
    let (o, t) ← takeOffset? t
    return ({ f with offset := ← agree f.offset o }, t)

/-- The fields that a text supplies, if all of it matches the items. A blank in the pattern matches
any run of blanks, also an empty one; any other character matches itself. -/
def matchItems? (f : Fields) : List PatternItem → Text → Option Fields
  | [], t => if t.isEmpty then some f else none
  | .char c :: items, t =>
    if isBlank c then matchItems? f items (Text.trimStart t)
    else
      match t with
      | d :: rest => if d = c then matchItems? f items rest else none
      | [] => none
  | .specifier s :: items, t =>
    match s.take? f t with
    | some (f, t) => matchItems? f items t
    | none => none
  | .invalid :: _, _ => none

end FormulaEngine.DateFormat
