import FormulaEngine.DateFormat.Specifier

/-! Pictures are formats such as `dd/MM/yyyy HH:mm`, in which runs of a letter stand for fields. A
picture is cut into units from the left, and every unit has a pattern of its own, so that nothing
in a literal can turn into a field. -/

namespace FormulaEngine.DateFormat

/-- A unit of a picture: a run of one field letter, or characters that stand for themselves. -/
inductive PictureUnit where
  | field (letter : Char) (count : Nat)
  | literal (content : Text)
  deriving DecidableEq, Repr

def isFieldLetter (c : Char) : Bool := "yMdHhmsfFtzK".toList.contains c

/-- What a run of a field letter asks for; longer runs ask for more. -/
def fieldSpecifier (letter : Char) (count : Nat) : Option Specifier :=
  match letter with
  | 'y' => some (if count ≤ 2 then .yearOfCentury else .year)
  | 'M' => some (if count ≤ 2 then .month else if count = 3 then .monthShort else .monthName)
  | 'd' => some (if count ≤ 2 then .day else if count = 3 then .weekdayShort else .weekdayName)
  | 'H' => some .hour
  | 'h' => some .hourOfHalf
  | 'm' => some .minute
  | 's' => some .second
  | 'f' | 'F' =>
    some (if count ≤ 3 then .milliseconds else if count ≤ 6 then .microseconds else .nanoseconds)
  | 't' => some .half
  | 'z' | 'K' => some .offset
  | _ => none

/-- The units of a picture. Quotes of either sort enclose a literal, which may run to the end, and a
backslash makes a literal of the character behind it. -/
def pictureUnits : Text → List PictureUnit
  | [] => []
  | c :: rest =>
    if c = '\'' ∨ c = '"' then
      let content := rest.takeWhile (· != c)
      .literal content :: pictureUnits (rest.drop (content.length + 1))
    else if c = '\\' then
      .literal (rest.take 1) :: pictureUnits (rest.drop 1)
    else if isFieldLetter c then
      let more := rest.takeWhile (· == c)
      .field c (more.length + 1) :: pictureUnits (rest.drop more.length)
    else .literal [c] :: pictureUnits rest
termination_by t => t.length
decreasing_by all_goals (simp only [List.length_drop, List.length_cons]; omega)

/-- Characters that stand for themselves in a pattern: a percent sign is doubled. -/
def escapePercent (t : Text) : Text := t.flatMap fun c => if c = '%' then ['%', '%'] else [c]

def PictureUnit.pattern : PictureUnit → Text
  | field letter count =>
    match fieldSpecifier letter count with
    | some s => '%' :: s.code
    | none => escapePercent (List.replicate count letter)
  | literal content => escapePercent content

/-- The pattern for a picture. -/
def patternOf (picture : Text) : Text := (pictureUnits picture).flatMap PictureUnit.pattern

example : patternOf "dd/MM/yyyy HH:mm:ss".toList = "%d/%m/%Y %H:%M:%S".toList := by decide +kernel
example : patternOf "yyyy-MM-dd'T'HH:mm".toList = "%Y-%m-%dT%H:%M".toList := by decide +kernel
example : patternOf "100%".toList = "100%%".toList := by decide +kernel

end FormulaEngine.DateFormat
