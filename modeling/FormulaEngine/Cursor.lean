import FormulaEngine.Text.Blank

/-! A text with a place in it, and what is done to a formula before any place in it is counted. -/

namespace FormulaEngine

/-- The formula without blanks at its ends and without line breaks. -/
def normalize (t : Text) : Text := (Text.trim t).filter fun c => c != '\r' && c != '\n'

/-- A place between two characters of a text: what stands before it, nearest character first, and
what stands after it. -/
structure Cursor where
  before : List Char
  after : Text
  deriving DecidableEq, Repr

namespace Cursor

def ofText (t : Text) : Cursor := ⟨[], t⟩

/-- The whole text, wherever the cursor is. -/
def toText (c : Cursor) : Text := c.before.reverse ++ c.after

def position (c : Cursor) : Nat := c.before.length

def current? (c : Cursor) : Option Char := c.after.head?

def isAtEnd (c : Cursor) : Bool := c.after.isEmpty

/-- One character forwards, unless the cursor is at the end. -/
def advance : Cursor → Cursor
  | ⟨before, []⟩ => ⟨before, []⟩
  | ⟨before, c :: after⟩ => ⟨c :: before, after⟩

/-- One character back, unless the cursor is at the beginning. -/
def back : Cursor → Cursor
  | ⟨[], after⟩ => ⟨[], after⟩
  | ⟨c :: before, after⟩ => ⟨before, c :: after⟩

/-- `n` characters forwards, or to the end. -/
def advanceBy (c : Cursor) (n : Nat) : Cursor :=
  ⟨(c.after.take n).reverse ++ c.before, c.after.drop n⟩

/-- The text between two places, as far as it exists. -/
def slice (c : Cursor) (start stop : Nat) : Text := (c.toText.take stop).drop start

@[simp] theorem toText_ofText (t : Text) : (ofText t).toText = t := rfl

@[simp] theorem toText_advance (c : Cursor) : c.advance.toText = c.toText := by
  rcases c with ⟨before, _ | ⟨x, after⟩⟩ <;> simp [advance, toText]

@[simp] theorem toText_back (c : Cursor) : c.back.toText = c.toText := by
  rcases c with ⟨_ | ⟨x, before⟩, after⟩ <;> simp [back, toText]

@[simp] theorem toText_advanceBy (c : Cursor) (n : Nat) : (c.advanceBy n).toText = c.toText := by
  simp [advanceBy, toText]

theorem position_advanceBy (c : Cursor) {n : Nat} (h : n ≤ c.after.length) :
    (c.advanceBy n).position = c.position + n := by
  simp [advanceBy, position, Nat.min_eq_left h, Nat.add_comm]

end Cursor

end FormulaEngine
