import FormulaEngine.Text.Search

/-! The keywords that name the records around the current one: its children and its parents, and
these without the ones that have no value. A keyword is recognised anywhere inside a name, in any
case of its letters; one that contains another is looked for first. -/

namespace FormulaEngine

inductive RangeKeyword where
  | childsNotNull
  | parentNotNull
  | parentsNotNull
  | childs
  | parents
  | parent
  deriving DecidableEq, Repr

namespace RangeKeyword

/-- The keywords in the order in which they are looked for. -/
def all : List RangeKeyword :=
  [childsNotNull, parentNotNull, parentsNotNull, childs, parents, parent]

def toText : RangeKeyword → Text
  | childsNotNull => "childsnotnull".toList
  | parentNotNull => "parentnotnull".toList
  | parentsNotNull => "parentsnotnull".toList
  | childs => "childs".toList
  | parents => "parents".toList
  | parent => "parent".toList

/-- The keyword asks for the children, not for the parents. -/
def isDownward : RangeKeyword → Bool
  | childsNotNull | childs => true
  | _ => false

/-- The keyword leaves out what has no value. -/
def skipsNull : RangeKeyword → Bool
  | childsNotNull | parentNotNull | parentsNotNull => true
  | _ => false

/-- The keyword that a text is, in any case. -/
def ofText? (t : Text) : Option RangeKeyword :=
  all.find? fun k => k.toText == Text.foldCase t

/-- The first keyword, in search order, that occurs in a name, and how many characters of the name
end with its first occurrence. -/
def locate? (name : Text) : Option (RangeKeyword × Nat) :=
  all.findSome? fun k =>
    (Text.find? k.toText (Text.foldCase name)).map fun start => (k, start + k.toText.length)

/-- As `locate?`, but counting the bytes of the name. -/
def locateBytes? (name : Text) : Option (RangeKeyword × Nat) :=
  (locate? name).map fun (k, stop) => (k, Text.byteLength (name.take stop))

example : locate? "my_childs_x".toList = some (childs, 9) := by decide
example : locate? "PARENTS".toList = some (parents, 7) := by decide

end RangeKeyword

end FormulaEngine
