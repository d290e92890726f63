import FormulaEngine.Text.CaseClass
import FormulaEngine.Text.CaseMap

/-! Upper and lower case of whole texts. Every character is mapped on its own, except for the Greek
capital sigma, whose lower case is `ς` at the end of a word and `σ` elsewhere. -/

namespace FormulaEngine.Text

def uppercase (t : Text) : Text := t.flatMap upperOf

/-- The next character that is not passed over is a cased letter. -/
def meetsCased (t : Text) : Bool :=
  (t.dropWhile isCaseIgnorable).head?.any isCased

/-- The lower case of `c` where `before` stands to its left, nearest character first, and `after`
to its right. -/
def lowerBetween (before after : Text) (c : Char) : Text :=
  if c = 'Σ' then
    if meetsCased before && !meetsCased after then ['ς'] else ['σ']
  else lowerOf c

/-- Lowers what is left of a text; `before` and `done` are kept in reverse. -/
def lowercaseFrom (before done : Text) : Text → Text
  | [] => done.reverse
  | c :: rest => lowercaseFrom (c :: before) ((lowerBetween before rest c).reverse ++ done) rest

def lowercase (t : Text) : Text := lowercaseFrom [] [] t

end FormulaEngine.Text
