import FormulaEngine.Decimal.Numeral

/-! Reading JSON documents. The reader is strict: one value, with nothing but whitespace around
it. -/

namespace FormulaEngine

/-- A JSON value. Numbers are kept as they are written. A string is nothing when it names one half
of a pair of surrogates without the other, since it then has no characters. -/
inductive Json where
  | null
  | bool (b : Bool)
  | number (literal : Text)
  | string (content? : Option Text)
  | array (items : List Json)
  | object (fields : List (Option Text × Json))

namespace Json

def isSpace (c : Char) : Bool := c == ' ' || c == '\t' || c == '\n' || c == '\r'

def skipSpace (t : Text) : Text := t.dropWhile isSpace

def hexDigit? (c : Char) : Option Nat :=
  if c.isDigit then some (c.toNat - 48)
  else if 'a' ≤ c ∧ c ≤ 'f' then some (c.toNat - 87)
  else if 'A' ≤ c ∧ c ≤ 'F' then some (c.toNat - 55)
  else none

/-- The characters that escapes other than `\u` stand for. -/
def escapes : List (Char × Char) := [
  ('"', '"'), ('\\', '\\'), ('/', '/'), ('b', '\x08'), ('f', '\x0c'), ('n', '\n'), ('r', '\r'),
  ('t', '\t')]

/-- The code points of a string behind its opening quote, halves of pairs separately, and what
follows its closing quote. -/
def stringPoints? : Text → Option (List Nat × Text)
  | [] => none
  | '"' :: rest => some ([], rest)
  | '\\' :: 'u' :: a :: b :: c :: d :: rest => do
    let n := (((← hexDigit? a) * 16 + (← hexDigit? b)) * 16 + (← hexDigit? c)) * 16 + (← hexDigit? d)
    let (points, rest) ← stringPoints? rest
    return (n :: points, rest)
  | '\\' :: e :: rest => do
    let c ← escapes.lookup e
    let (points, rest) ← stringPoints? rest
    return (c.toNat :: points, rest)
  | c :: rest =>
    if c.toNat < 32 ∨ c = '\\' then none
    else do
      let (points, rest) ← stringPoints? rest
      return (c.toNat :: points, rest)

/-- The characters of code points, with the halves of pairs put together. -/
def joinPairs? : List Nat → Option Text
  | [] => some []
  | [n] => if 0xD800 ≤ n ∧ n < 0xE000 then none else some [Char.ofNat n]
  | n :: m :: rest =>
    if 0xD800 ≤ n ∧ n < 0xDC00 ∧ 0xDC00 ≤ m ∧ m < 0xE000 then
      (joinPairs? rest).map (Char.ofNat (0x10000 + (n - 0xD800) * 0x400 + (m - 0xDC00)) :: ·)
    else if 0xD800 ≤ n ∧ n < 0xE000 then none
    else (joinPairs? (m :: rest)).map (Char.ofNat n :: ·)

/-- A string behind its opening quote. -/
def takeString? (t : Text) : Option (Option Text × Text) :=
  (stringPoints? t).map fun (points, rest) => (joinPairs? points, rest)

/-- Digits, of which there must be one. -/
def takeDigits? (t : Text) : Option (Text × Text) :=
  let ds := t.takeWhile Char.isDigit
  if ds.isEmpty then none else some (ds, t.drop ds.length)

/-- A number: a whole part without needless zeros, decimal places, and an exponent. -/
def takeNumber? (t : Text) : Option (Text × Text) := do
  let (sign, t) := match t with
    | '-' :: rest => (['-'], rest)
    | t => ([], t)
  let (whole, t) ← takeDigits? t
  if whole.head? = some '0' ∧ whole ≠ ['0'] then none
  let (places, t) ← match t with
    | '.' :: rest => (takeDigits? rest).map fun (ds, rest) => ('.' :: ds, rest)
    | t => some ([], t)
  let (exponent, t) ← match t with
    | c :: rest =>
      if c = 'e' ∨ c = 'E' then
        let (sign, rest) := match rest with
          | '-' :: rest => (['-'], rest)
          | '+' :: rest => (['+'], rest)
          | rest => ([], rest)
        (takeDigits? rest).map fun (ds, rest) => (c :: (sign ++ ds), rest)
      else some ([], c :: rest)
    | [] => some ([], [])
  return (sign ++ whole ++ places ++ exponent, t)

/-- A word that stands for a value. -/
def takeWord? (word : String) (value : Json) (t : Text) : Option (Json × Text) :=
  if word.toList.isPrefixOf t then some (value, t.drop word.length) else none

mutual

/-- A value, with any whitespace before it. Every value takes a character, so `fuel` bounds their
number and nesting. -/
def takeValue? : (fuel : Nat) → Text → Option (Json × Text)
  | 0, _ => none
  | fuel + 1, t =>
    match skipSpace t with
    | '{' :: rest =>
      match skipSpace rest with
      | '}' :: rest => some (object [], rest)
      | rest => (takeFields? fuel rest).map fun (fields, rest) => (object fields, rest)
    | '[' :: rest =>
      match skipSpace rest with
      | ']' :: rest => some (array [], rest)
      | rest => (takeItems? fuel rest).map fun (items, rest) => (array items, rest)
    | '"' :: rest => (takeString? rest).map fun (content?, rest) => (string content?, rest)
    | 'n' :: rest => takeWord? "null" null ('n' :: rest)
    | 't' :: rest => takeWord? "true" (bool true) ('t' :: rest)
    | 'f' :: rest => takeWord? "false" (bool false) ('f' :: rest)
    | t => (takeNumber? t).map fun (literal, rest) => (number literal, rest)

/-- The items of an array up to its closing bracket. -/
def takeItems? : (fuel : Nat) → Text → Option (List Json × Text)
  | 0, _ => none
  | fuel + 1, t => do
    let (item, rest) ← takeValue? fuel t
    match skipSpace rest with
    | ',' :: rest => (takeItems? fuel rest).map fun (items, rest) => (item :: items, rest)
    | ']' :: rest => some ([item], rest)
    | _ => none

/-- The fields of an object up to its closing brace. -/
def takeFields? : (fuel : Nat) → Text → Option (List (Option Text × Json) × Text)
  | 0, _ => none
  | fuel + 1, t =>
    match skipSpace t with
    | '"' :: rest => do
      let (key?, rest) ← takeString? rest
      match skipSpace rest with
      | ':' :: rest =>
        let (value, rest) ← takeValue? fuel rest
        match skipSpace rest with
        | ',' :: rest =>
          (takeFields? fuel rest).map fun (fields, rest) => ((key?, value) :: fields, rest)
        | '}' :: rest => some ([(key?, value)], rest)
        | _ => none
      | _ => none
    | _ => none

end

/-- The value of a document. -/
def parse? (t : Text) : Option Json :=
  match takeValue? (2 * t.length + 1) t with
  | some (value, rest) => if (skipSpace rest).isEmpty then some value else none
  | none => none

end Json

end FormulaEngine
