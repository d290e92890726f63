import FormulaEngine.Cursor
import FormulaEngine.Error

/-! The raw texts of a call's arguments. They are cut out without being read: parentheses are
balanced and commas counted outside single quotes, and nothing else matters. -/

namespace FormulaEngine

namespace Arguments

/-- Why the parenthesis that closes a call is not found: a quote is still open, or there is none. -/
inductive Unclosed where
  | quote (offset : Nat)
  | parenthesis
  deriving DecidableEq, Repr

/-- The offset of the parenthesis that closes a call, where `depth` more have been opened inside and
`quote?` is where an open quote began. -/
def closingOffset (offset depth : Nat) (quote? : Option Nat) : Text → Except Unclosed Nat
  | [] =>
    match quote? with
    | some q => .error (.quote q)
    | none => .error .parenthesis
  | c :: rest =>
    match quote? with
    | some q => closingOffset (offset + 1) depth (if c = '\'' then none else some q) rest
    | none =>
      if c = '\'' then closingOffset (offset + 1) depth (some offset) rest
      else if c = '(' then closingOffset (offset + 1) (depth + 1) none rest
      else if c = ')' then
        if depth = 0 then .ok offset else closingOffset (offset + 1) (depth - 1) none rest
      else closingOffset (offset + 1) depth none rest

/-- The pieces between the commas outside quotes and parentheses; `piece` is the current one,
reversed. -/
def pieces (depth : Int) (quoted : Bool) (piece : Text) : Text → List Text
  | [] => [piece.reverse]
  | c :: rest =>
    if c = '\'' then pieces depth (!quoted) (c :: piece) rest
    else if quoted then pieces depth quoted (c :: piece) rest
    else if c = '(' then pieces (depth + 1) quoted (c :: piece) rest
    else if c = ')' then pieces (depth - 1) quoted (c :: piece) rest
    else if c = ',' ∧ depth = 0 then piece.reverse :: pieces depth quoted [] rest
    else pieces depth quoted (c :: piece) rest

/-- The trimmed arguments in the text between a call's parentheses. An empty text has none. -/
def split (t : Text) : List Text :=
  if t.isEmpty then [] else (pieces 0 false [] t).map Text.trim

/-- The arguments of a call whose parenthesis has just been opened, and how many characters they
take, the closing parenthesis included. -/
def read (t : Text) : Except Unclosed (List Text × Nat) :=
  match closingOffset 0 0 none t with
  | .ok stop => .ok (split (Text.trim (t.take stop)), stop + 1)
  | .error u => .error u

/-- As an error of the call to `name`, whose parenthesis was opened just before `start`. -/
def Unclosed.toFormulaError (u : Unclosed) (name : Text) (start : Nat) : FormulaError :=
  match u with
  | .quote offset => .openString (start + offset)
  | .parenthesis =>
    ((FormulaError.functionFailure name).locatedAt start).saying
      "unbalanced parentheses in argument list".toList

/-- The arguments of a call to `name`, read from a cursor just behind its opening parenthesis, and
the cursor behind the closing one. Without arguments the cursor is left at the end of the text. -/
def readAt (c : Cursor) (name : Text) : Except FormulaError (List Text) × Cursor :=
  match read c.after with
  | .ok (arguments, width) => (.ok arguments, c.advanceBy width)
  | .error u => (.error (u.toFormulaError name c.position), c.advanceBy c.after.length)

/-- What a text that consists of one parenthesis holds: `a` for `( a )`. -/
def parenthesized (t : Text) : Except FormulaError Text :=
  let t := Text.trim t
  match (if t.length ≤ 2 then none else Text.between? '(' ')' t) with
  | some inner => .ok (Text.trim inner)
  | none =>
    let found := "expected '(expression)', found '".toList ++ t ++ ['\'']
    .error (FormulaError.saying { kind := .badGrammar } found)

theorem closingOffset_lt {offset depth : Nat} {quote? : Option Nat} {t : Text} {k : Nat}
    (h : closingOffset offset depth quote? t = .ok k) : offset ≤ k ∧ k < offset + t.length := by
  induction t generalizing offset depth quote? with
  | nil =>
    simp only [closingOffset] at h
    split at h <;> contradiction
  | cons c rest ih =>
    simp only [closingOffset] at h
    rw [List.length_cons]
    repeat' split at h
    all_goals first
      | (cases h; omega)
      | (have rest_lt := ih h; omega)

theorem read_width {t : Text} {args : List Text} {n : Nat} (h : read t = .ok (args, n)) :
    1 ≤ n ∧ n ≤ t.length := by
  unfold read at h
  split at h
  · rename_i stop hs
    have := closingOffset_lt hs
    cases h
    omega
  · contradiction

end Arguments

end FormulaEngine
