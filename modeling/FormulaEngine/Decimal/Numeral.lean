import FormulaEngine.Decimal.Shortest
import FormulaEngine.Text.Blank

/-! Reading numbers. A numeral is an optional sign and either digits with an optional point and
exponent, or one of the words `inf`, `infinity` and `nan` in any case; it denotes the nearest
binary64 number. An amount is a numeral as people write it: with a comma for the point, with the
sign at the end, or in parentheses when it is negative. -/

namespace FormulaEngine.Decimal

/-- The value of a run of decimal digits. -/
def digitsValue (ds : Text) : Nat := ds.foldl (fun n c => 10 * n + (c.toNat - 48)) 0

/-- An exponent part, sign and digits up to the end of the text. -/
def scanExponent? (t : Text) : Option Int :=
  let (negative, ds) :=
    match t with
    | '-' :: r => (true, r)
    | '+' :: r => (false, r)
    | r => (false, r)
  if ds.isEmpty || !ds.all Char.isDigit then none
  else some (if negative then -(digitsValue ds : Int) else digitsValue ds)

/-- Digits with at most one point and at most one exponent; at least one digit comes before the
exponent. -/
def scanScaled? (t : Text) : Option Scaled :=
  let whole := t.takeWhile Char.isDigit
  let (places, rest) :=
    match t.dropWhile Char.isDigit with
    | '.' :: r => (r.takeWhile Char.isDigit, r.dropWhile Char.isDigit)
    | r => ([], r)
  if whole.isEmpty && places.isEmpty then none
  else
    let scaled (e : Int) : Scaled := ⟨digitsValue (whole ++ places), e - places.length⟩
    match rest with
    | [] => some (scaled 0)
    | c :: r => if c = 'e' ∨ c = 'E' then (scanExponent? r).map scaled else none

/-- The binary64 number nearest to a decimal. Decimals beyond `10^400` and below `10^-400` are
settled at once, so that no exponent makes the work large. -/
def Scaled.nearest (d : Scaled) : Float :=
  let size := ((Nat.toDigits 10 d.digits).length : Int) + d.exponent
  if d.digits = 0 ∨ size < -400 then 0
  else if 400 < size then Binary64.infinity
  else if 0 ≤ d.exponent then .ofScientific d.digits false d.exponent.toNat
  else .ofScientific d.digits true (-d.exponent).toNat

/-- A numeral without its sign. -/
def readUnsigned? (t : Text) : Option Float :=
  let word := Text.foldCase t
  if word = "inf".toList ∨ word = "infinity".toList then some Binary64.infinity
  else if word = "nan".toList then some Binary64.nan
  else (scanScaled? t).map Scaled.nearest

def readNumeral? : Text → Option Float
  | '-' :: r => (readUnsigned? r).map (-·)
  | '+' :: r => readUnsigned? r
  | t => readUnsigned? t

/-- A numeral, or else a numeral with one more sign at its end. -/
def readTrailing? (t : Text) : Option Float :=
  match readNumeral? t with
  | some v => some v
  | none =>
    let before := Text.trimEnd t.dropLast
    match t.getLast? with
    | some '-' => (readNumeral? before).map (-·)
    | some '+' => readNumeral? before
    | _ => none

/-- An amount, with blanks around it. -/
def readAmount? (t : Text) : Option Float :=
  let body := (Text.trim t).map fun c => if c = ',' then '.' else c
  match Text.between? '(' ')' body with
  | some inner => (readTrailing? (Text.trim inner)).map (-·)
  | none => readTrailing? body

example : readAmount? " (2,5) ".toList = some (-2.5) := by decide +kernel
example : readAmount? "4-".toList = some (-4) := by decide +kernel
example : readAmount? ".".toList = none := by decide +kernel

end FormulaEngine.Decimal
