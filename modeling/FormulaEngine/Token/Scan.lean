import FormulaEngine.Binary64.Rounding
import FormulaEngine.Decimal.Numeral
import FormulaEngine.Text.Letter
import FormulaEngine.Token

/-! Recognising the token at the beginning of a text. Only the space separates tokens. A string
literal runs from a quote to the next quote of the same sort. A whole number that does not fit in a
signed 64-bit integer is not a token, whether or not a fraction follows, and neither is a character
that begins nothing. -/

namespace FormulaEngine

def isNameStart (c : Char) : Bool := isAlphabetic c || c == '_' || c == '@'

def isNamePart (c : Char) : Bool := isAlphanumeric c || c == '_' || c == '@'

/-- A whole part and decimal places, added up in binary64 from the left: each place weighs a tenth
of the one before it. -/
def decimalValue (whole : Nat) (places : Text) : Float :=
  (places.foldl
    (fun (value, weight) c =>
      let weight := weight / 10
      (value + weight * Float.ofNat (c.toNat - 48), weight))
    (Float.ofNat whole, (1 : Float))).1

namespace Symbol

/-- The numeral at the beginning of a text, with the number of its characters. -/
def scanNumeral (t : Text) : Symbol × Nat :=
  let digits := t.takeWhile Char.isDigit
  let n := Decimal.digitsValue digits
  if (n : Int) ≤ Binary64.maxInt64 then
    match t.drop digits.length with
    | c :: rest =>
      if c = '.' ∨ c = ',' then
        let places := rest.takeWhile Char.isDigit
        (.token (.numeral (.decimal (decimalValue n places))),
          digits.length + 1 + places.length)
      else (.token (.numeral (.whole n)), digits.length)
    | [] => (.token (.numeral (.whole n)), digits.length)
  else (.invalid, digits.length)

/-- How the other tokens are spelled, a longer spelling before its own beginnings. -/
def punctuation : List (Text × Token) := [
  ("(".toList, .openParen), (")".toList, .closeParen), (";".toList, .semicolon),
  ("**".toList, .operator .power), ("*".toList, .operator .times),
  ("/".toList, .operator .divide), ("%%".toList, .operator .percent),
  ("%".toList, .operator .remainder), ("+".toList, .operator .plus),
  ("-".toList, .operator .minus), ("~".toList, .operator .complement),
  ("==".toList, .operator .equal), ("=".toList, .operator .equal),
  ("<=".toList, .operator .lessOrEqual), ("<>".toList, .operator .notEqual),
  ("<".toList, .operator .less), (">=".toList, .operator .greaterOrEqual),
  ("><".toList, .operator .notEqual), (">".toList, .operator .greater),
  ("!=".toList, .operator .notEqual), ("!".toList, .operator .not),
  ("|".toList, .operator .or), ("^".toList, .operator .xor), ("&".toList, .operator .and)]

/-- The punctuation at the beginning of a text, with the number of its characters. -/
def scanPunctuation (t : Text) : Symbol × Nat :=
  match punctuation.find? (·.1.isPrefixOf t) with
  | some (spelling, k) => (.token k, spelling.length)
  | none => (.invalid, 0)

/-- The symbol at the beginning of a text that does not begin with a space, and how many characters
it takes; nothing when a string literal is not closed. -/
def scan? : Text → Option (Symbol × Nat)
  | [] => some (.finish, 0)
  | c :: rest =>
    if c = '\'' ∨ c = '"' then
      let content := rest.takeWhile (· != c)
      if content.length < rest.length then
        some (.token (.string content), content.length + 2)
      else none
    else if c.isDigit then some (scanNumeral (c :: rest))
    else if isNameStart c then
      let name := c :: rest.takeWhile isNamePart
      some (.token (.name name), name.length)
    else some (scanPunctuation (c :: rest))

theorem scanNumeral_width {t : Text} {s : Symbol} {w : Nat} (h : scanNumeral t = (s, w)) :
    (t.takeWhile Char.isDigit).length ≤ w ∧ w ≤ t.length := by
  have hd : (t.takeWhile Char.isDigit).length ≤ t.length := (List.takeWhile_prefix _).length_le
  simp only [scanNumeral] at h
  split at h
  · split at h
    · rename_i c rest hrest
      have hl := congrArg List.length hrest
      rw [List.length_drop, List.length_cons] at hl
      split at h
      · have hp : (rest.takeWhile Char.isDigit).length ≤ rest.length :=
          (List.takeWhile_prefix _).length_le
        simp only [Prod.mk.injEq] at h
        omega
      · simp only [Prod.mk.injEq] at h
        omega
    · simp only [Prod.mk.injEq] at h
      omega
  · simp only [Prod.mk.injEq] at h
    omega

theorem scanPunctuation_width {t : Text} {k : Token} {w : Nat}
    (h : scanPunctuation t = (.token k, w)) : 1 ≤ w ∧ w ≤ t.length := by
  have spelled : ∀ p ∈ punctuation, 1 ≤ p.1.length := by decide
  unfold scanPunctuation at h
  split at h
  · rename_i spelling k' hf
    have hp := List.find?_some hf
    have := spelled _ (List.mem_of_find?_eq_some hf)
    have := (List.isPrefixOf_iff_prefix.1 hp).length_le
    cases h
    exact ⟨by assumption, by assumption⟩
  · cases h

/-- A token has at least one character, and ends within the text. -/
theorem scan?_width {t : Text} {k : Token} {w : Nat} (h : scan? t = some (.token k, w)) :
    1 ≤ w ∧ w ≤ t.length := by
  unfold scan? at h
  split at h
  · cases h
  · rename_i c rest
    split at h
    · simp only at h
      split at h
      · cases h
        rw [List.length_cons]
        omega
      · cases h
    · split at h
      · rename_i hdigit
        have := scanNumeral_width (Option.some.inj h)
        simp only [List.takeWhile_cons, hdigit, if_true, List.length_cons] at this
        simp only [List.length_cons]
        omega
      · split at h
        · have hp : (rest.takeWhile isNamePart).length ≤ rest.length :=
            (List.takeWhile_prefix _).length_le
          cases h
          simp only [List.length_cons]
          omega
        · exact scanPunctuation_width (Option.some.inj h)

end Symbol

end FormulaEngine
