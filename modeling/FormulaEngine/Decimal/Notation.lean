import FormulaEngine.Decimal.Shortest
import FormulaEngine.Text.Basic

/-! How numbers are written. Both notations use the shortest digits that read back; they differ in
the word for infinity and in the sizes for which they turn to an exponent. -/

namespace FormulaEngine.Decimal

/-- The decimal exponent of the leading digit. -/
def Scaled.leading (d : Scaled) : Int := (Text.ofNat d.digits).length + d.exponent - 1

/-- Digits, zeros and a point, with no exponent: `120`, `1.5`, `0.001`. -/
def Scaled.positional (d : Scaled) : Text :=
  let ds := Text.ofNat d.digits
  let places := (-d.exponent).toNat
  if 0 ≤ d.exponent then ds ++ List.replicate d.exponent.toNat '0'
  else if places < ds.length then
    ds.take (ds.length - places) ++ '.' :: ds.drop (ds.length - places)
  else '0' :: '.' :: (List.replicate (places - ds.length) '0' ++ ds)

/-- One digit before the point, and an exponent with a sign and at least two digits. -/
def Scaled.scientific (d : Scaled) : Text :=
  let mantissa :=
    match Text.ofNat d.digits with
    | first :: second :: rest => first :: '.' :: second :: rest
    | ds => ds
  let exponent := Text.ofNat d.leading.natAbs
  mantissa ++ 'E' :: (if d.leading < 0 then '-' else '+') ::
    (List.replicate (2 - exponent.length) '0' ++ exponent)

/-- What a notation decides: the word for infinity, and which leading exponents are written with
no exponent. -/
structure Notation where
  infinity : Text
  isPositional : Int → Bool

def signed (negative : Bool) (t : Text) : Text := if negative then '-' :: t else t

def Notation.write (n : Notation) (x : Float) : Text :=
  match Binary64.parts x with
  | .nan => "NaN".toList
  | .infinite negative => signed negative n.infinity
  | .finite negative m q =>
    let d := shortest m q
    signed negative (if n.isPositional d.leading then d.positional else d.scientific)

/-- Never an exponent, however long the number gets. Messages show numbers this way. -/
def plain : Notation := ⟨"inf".toList, fun _ => true⟩

/-- An exponent from `1E+15` up and from `1E-05` down. Numbers become text values this way. -/
def general : Notation := ⟨"Infinity".toList, fun e => -5 < e && e < 15⟩

example : general.write 0.1 = "0.1".toList := by decide
example : general.write 1e15 = "1E+15".toList := by decide
example : general.write (-1.5e300) = "-1.5E+300".toList := by decide +kernel
example : general.write (-0.0) = "-0".toList := by decide
example : plain.write 1e21 = "1000000000000000000000".toList := by decide

end FormulaEngine.Decimal
