import FormulaEngine.Arguments
import FormulaEngine.Expr.Operation
import FormulaEngine.Token.Lexer
import FormulaEngine.Value

/-! A formula as the grammar sees it. A name before an opening parenthesis is a call, and a call is
one piece: its arguments are raw texts, to be read when they are needed. Only where numbers are
computed do the elementary functions enclose an expression of the formula itself. -/

namespace FormulaEngine

/-- The pieces of a formula from some place on, each with its position, and how they end. -/
inductive Lexemes where
  /-- The end of the formula. -/
  | finish (position : Nat)
  /-- Something that is no token; nothing behind it is read. -/
  | invalid (position : Nat)
  /-- A string literal that is not closed. -/
  | openString (e : FormulaError)
  /-- A call whose arguments do not end. -/
  | openCall (position : Nat) (name : Text) (e : FormulaError)
  | token (position : Nat) (t : Token) (rest : Lexemes)
  | call (position : Nat) (name : Text) (arguments : List Text) (rest : Lexemes)
  /-- An elementary function and its opening parenthesis. -/
  | apply (position : Nat) (name : Text) (f : Elementary) (rest : Lexemes)

namespace Lexemes

/-- What an error says about the first piece, where it should be something else. A string literal
that is not closed is an error of its own. -/
def complain (found : Nat → Symbol → FormulaError) : Lexemes → FormulaError
  | finish p => found p .finish
  | invalid p => found p .invalid
  | openString e => e
  | openCall p name _ => found p (.token (.name name))
  | token p t _ => found p (.token t)
  | call p name _ _ => found p (.token (.name name))
  | apply p name _ _ => found p (.token (.name name))

/-- The first piece cannot stand where it stands. -/
def unexpected (s : Lexemes) : FormulaError :=
  s.complain fun p found =>
    (FormulaError.badGrammar p).saying
      ("unexpected ".toList ++ (if found.isOperator then "operator ".toList else []) ++
        found.toText)

/-- The number of pieces. -/
def size : Lexemes → Nat
  | finish _ | invalid _ | openString _ | openCall _ _ _ => 1
  | token _ _ rest | call _ _ _ rest | apply _ _ _ rest => rest.size + 1

/-- The elementary function that a name means where values of this kind are computed. -/
def elementary? : ValueKind → Text → Option Elementary
  | .number, name => Elementary.ofName? name
  | .text, _ => none

/-- The pieces of the text `t`, which stands at `position` of the formula. -/
def read (kind : ValueKind) (position : Nat) (t : Text) : Lexemes :=
  let start := position + Lexer.spaces t
  let body := t.drop (Lexer.spaces t)
  match _h : Symbol.scan? body with
  | none => openString (.openString start)
  | some (.finish, _) => finish start
  | some (.invalid, _) => invalid start
  | some (.token (.name name), width) =>
    let behind := body.drop width
    match _hb : behind.drop (Lexer.spaces behind) with
    | '(' :: inside =>
      let inner := start + width + Lexer.spaces behind + 1
      match elementary? kind name with
      | some f => apply start name f (read kind inner inside)
      | none =>
        match Arguments.read inside with
        | .error u => openCall start name (u.toFormulaError name inner)
        | .ok (arguments, taken) =>
          call start name arguments (read kind (inner + taken) (inside.drop taken))
    | _ => token start (.name name) (read kind (start + width) behind)
  | some (.token k, width) => token start k (read kind (start + width) (body.drop width))
termination_by t.length
decreasing_by
  all_goals
    have hw := Symbol.scan?_width _h
    simp only [body, List.length_drop] at hw
  · have hl := congrArg List.length _hb
    simp only [behind, body, List.length_drop, List.length_cons] at hl
    omega
  · have hl := congrArg List.length _hb
    simp only [behind, body, List.length_drop, List.length_cons] at hl
    simp only [List.length_drop]
    omega
  · simp only [List.length_drop]
    omega
  · simp only [List.length_drop]
    omega

/-- The pieces of a whole formula. -/
def ofText (kind : ValueKind) (t : Text) : Lexemes := read kind 0 t

end Lexemes

end FormulaEngine
