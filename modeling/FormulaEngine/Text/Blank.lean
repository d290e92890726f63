import FormulaEngine.Text.Basic

/-! Blanks are the characters with the property White_Space. Trimming removes them from the ends of
a text, and a trimmed text neither starts nor ends with one. -/

namespace FormulaEngine

/-- The 25 characters with the property White_Space. -/
def isBlank (c : Char) : Bool :=
  let n := c.toNat
  (9 ≤ n && n ≤ 13) || n == 0x20 || n == 0x85 || n == 0xA0 || n == 0x1680 ||
    (0x2000 ≤ n && n ≤ 0x200A) || n == 0x2028 || n == 0x2029 || n == 0x202F || n == 0x205F ||
    n == 0x3000

namespace Text

def trimStart (t : Text) : Text := t.dropWhile isBlank

def trimEnd (t : Text) : Text := (trimStart t.reverse).reverse

/-- The text without the blanks at its two ends. -/
def trim (t : Text) : Text := trimEnd (trimStart t)

theorem trimStart_length_le (t : Text) : (trimStart t).length ≤ t.length :=
  List.IsSuffix.length_le (List.dropWhile_suffix _)

theorem trimEnd_length_le (t : Text) : (trimEnd t).length ≤ t.length := by
  simpa [trimEnd] using trimStart_length_le t.reverse

theorem trim_length_le (t : Text) : (trim t).length ≤ t.length :=
  Nat.le_trans (trimEnd_length_le _) (trimStart_length_le _)

end Text

end FormulaEngine
