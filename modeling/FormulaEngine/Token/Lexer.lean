import FormulaEngine.Cursor
import FormulaEngine.Error
import FormulaEngine.Token.Scan

/-! Reading a text token by token. A lexer remembers where its last token began; it stays where it
is at the end of the text and at a character that begins no token. -/

namespace FormulaEngine

structure Lexer where
  cursor : Cursor
  tokenStart : Nat

namespace Lexer

def ofText (t : Text) : Lexer := ⟨.ofText t, 0⟩

/-- How many spaces a text begins with. -/
def spaces (t : Text) : Nat := (t.takeWhile (· == ' ')).length

/-- The next symbol, and the lexer behind it. After a string literal that is not closed the lexer
is at the end. -/
def next (l : Lexer) : Except FormulaError Symbol × Lexer :=
  let cursor := l.cursor.advanceBy (spaces l.cursor.after)
  let start := cursor.position
  match Symbol.scan? cursor.after with
  | some (s, width) => (.ok s, ⟨cursor.advanceBy width, start⟩)
  | none => (.error (.openString start), ⟨cursor.advanceBy cursor.after.length, start⟩)

/-- The results of so many calls of `next`, each with the lexer behind it. -/
def steps : Nat → Lexer → List (Except FormulaError Symbol × Lexer)
  | 0, _ => []
  | n + 1, l => let step := l.next; step :: steps n step.2

end Lexer

/-- All symbols of a text up to its end or to the first that is no token. Every symbol takes at
least one character, so `fuel` bounds their number. -/
def tokenizeFrom : (fuel : Nat) → Lexer → Except FormulaError (List Symbol)
  | 0, _ => .ok []
  | fuel + 1, l =>
    match l.next with
    | (.error e, _) => .error e
    | (.ok (.token t), l) => (tokenizeFrom fuel l).map (.token t :: ·)
    | (.ok s, _) => .ok [s]

def tokenize (t : Text) : Except FormulaError (List Symbol) :=
  tokenizeFrom (t.length + 1) (.ofText t)

end FormulaEngine
