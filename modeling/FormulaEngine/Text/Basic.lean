/-! Texts as lists of characters. Lengths, positions and cuts of a formula language count
characters, never bytes, so the list is the natural view and the one all scanners work on. -/

namespace FormulaEngine

/-- A piece of text, character by character. -/
abbrev Text := List Char

namespace Text

/-- The text as a string, for whoever prints it. -/
def string (t : Text) : String := String.ofList t

/-- The size of a text in bytes of UTF-8. -/
def byteLength (t : Text) : Nat := t.foldl (fun n c => n + c.utf8Size) 0

/-- ASCII letters in lower case; all else unchanged. Names are looked up this way. -/
def foldCase (t : Text) : Text := t.map Char.toLower

/-- `n` copies of a text, one after the other. No number of copies makes more of an empty text. -/
def copies (t : Text) (n : Nat) : Text :=
  if t.isEmpty then [] else (List.replicate n t).flatten

/-- The texts one after the other, with `separator` between neighbours. -/
def join (separator : Text) (ts : List Text) : Text := (ts.intersperse separator).flatten

/-- The text between two characters that stand at its ends. -/
def between? (first last : Char) (t : Text) : Option Text :=
  match t with
  | [] => none
  | c :: r => if c = first ∧ r.getLast? = some last then some r.dropLast else none

/-- Order by code points, a proper beginning first. -/
def compare : Text → Text → Ordering
  | [], [] => .eq
  | [], _ :: _ => .lt
  | _ :: _, [] => .gt
  | a :: as, b :: bs => (Ord.compare a.toNat b.toNat).then (compare as bs)

/-- Decimal digits of a natural number. -/
def ofNat (n : Nat) : Text := (Nat.toDigits 10 n)

/-- Decimal digits of an integer, after a minus sign if it is negative. -/
def ofInt : Int → Text
  | .ofNat n => ofNat n
  | .negSucc n => '-' :: ofNat (n + 1)

/-- What holds of all characters of a text is decided character by character. -/
instance (priority := high) decidableForallMem (t : Text) (p : Char → Prop) [DecidablePred p] :
    Decidable (∀ c ∈ t, p c) :=
  List.decidableBAll p t

instance (priority := high) decidableExistsMem (t : Text) (p : Char → Prop) [DecidablePred p] :
    Decidable (∃ c ∈ t, p c) :=
  List.decidableBEx p t

theorem length_foldCase (t : Text) : (foldCase t).length = t.length := by
  simp [foldCase]

theorem foldCase_append (s t : Text) : foldCase (s ++ t) = foldCase s ++ foldCase t := by
  simp [foldCase]

@[simp] theorem join_nil (separator : Text) : join separator [] = [] := rfl

@[simp] theorem join_singleton (separator t : Text) : join separator [t] = t := by
  simp [join]

theorem join_cons_cons (separator s t : Text) (ts : List Text) :
    join separator (s :: t :: ts) = s ++ separator ++ join separator (t :: ts) := by
  simp [join]

end Text

end FormulaEngine
