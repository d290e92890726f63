import FormulaEngine.Text.Basic

/-! Finite maps from names, in the order of the names. -/

namespace FormulaEngine

/-- Names with what belongs to them, sorted by code points, each name once. -/
abbrev Dictionary (α : Type) := List (Text × α)

namespace Dictionary

variable {α : Type}

/-- The entry of a name, put in or replaced. -/
def insert (name : Text) (a : α) : Dictionary α → Dictionary α
  | [] => [(name, a)]
  | (n, b) :: d =>
    match Text.compare name n with
    | .lt => (name, a) :: (n, b) :: d
    | .eq => (name, a) :: d
    | .gt => (n, b) :: insert name a d

def erase (name : Text) (d : Dictionary α) : Dictionary α := d.filter (·.1 != name)

/-- The entry of a name, put in, replaced or taken out. -/
def set (name : Text) (a? : Option α) (d : Dictionary α) : Dictionary α :=
  match a? with
  | some a => insert name a d
  | none => erase name d

def find? (d : Dictionary α) (name : Text) : Option α := d.lookup name

def names (d : Dictionary α) : List Text := d.map (·.1)

def ofList (entries : List (Text × α)) : Dictionary α :=
  entries.foldl (fun d (name, a) => insert name a d) []

end Dictionary

end FormulaEngine
