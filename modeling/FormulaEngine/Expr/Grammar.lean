import FormulaEngine.Expr
import FormulaEngine.Lexemes

/-! The grammar of both sorts of expressions, by recursive descent. A parser takes an expression off
the front of a formula. When it meets an error, it also tells which parts of the formula were
complete by then, since they are evaluated before the error is reported. -/

namespace FormulaEngine

/-- An error of the grammar, and the expressions that were read in full before it. -/
structure Fault (ε : Type) where
  pending : List ε
  error : FormulaError

def Fault.after {ε : Type} (f : Fault ε) (e : ε) : Fault ε :=
  { f with pending := e :: f.pending }

/-- Takes an expression off the front of a formula. -/
abbrev Parser (ε : Type) := Lexemes → Except (Fault ε) (ε × Lexemes)

namespace Parser

variable {ε : Type}

/-- Nothing can begin with the first piece. -/
def fail : Parser ε := fun s => .error ⟨[], s.unexpected⟩

/-- Goes on with `join left right` as long as an infix operator follows; `joins?` says for a token
how it joins its operands. Every round takes at least one piece, so `fuel` bounds the rounds. -/
def chainRest (joins? : Token → Option (ε → ε → ε)) (operand : Parser ε) :
    (fuel : Nat) → ε → Parser ε
  | fuel + 1, left, .token p t rest =>
    match joins? t with
    | none => .ok (left, .token p t rest)
    | some join =>
      match operand rest with
      | .ok (right, rest) => chainRest joins? operand fuel (join left right) rest
      | .error f => .error (f.after left)
  | _, left, s => .ok (left, s)

/-- Operands with infix operators between them, grouped to the left. -/
def chain (joins? : Token → Option (ε → ε → ε)) (operand : Parser ε) (fuel : Nat) : Parser ε :=
  fun s =>
    match operand s with
    | .ok (left, rest) => chainRest joins? operand fuel left rest
    | .error f => .error f

/-- What stands between parentheses, the opening one being taken already; `missing` is the error
when the closing one is missing. -/
def enclosed (inner : Parser ε) (missing : Lexemes → FormulaError) : Parser ε := fun s =>
  match inner s with
  | .ok (e, .token _ .closeParen rest) => .ok (e, rest)
  | .ok (e, s) => .error ⟨[e], missing s⟩
  | .error f => .error f

/-- A name on its own. What follows it has to be readable before the name is looked up. -/
def name (make : Text → ε) (n : Text) : Parser ε
  | .openString e => .error ⟨[], e⟩
  | s => .ok (make n, s)

/-- Expressions separated by semicolons, up to the end of the formula. -/
def segments (expression : Parser ε) : (fuel : Nat) → Lexemes → Program ε
  | 0, s => ⟨[], .error s.unexpected⟩
  | fuel + 1, s =>
    match expression s with
    | .error f => ⟨f.pending, .error f.error⟩
    | .ok (e, .finish _) => ⟨[], .ok e⟩
    | .ok (e, .token _ .semicolon rest) => (segments expression fuel rest).after e
    | .ok (e, s) => ⟨[e], .error s.unexpected⟩

end Parser

namespace NumericExpr

/-- The infix operators of one precedence. -/
def joins? (p : Precedence) : Token → Option (NumericExpr → NumericExpr → NumericExpr)
  | .operator o =>
    match o.infix? with
    | some i => if i.precedence = p then some (binary i) else none
    | none => none
  | _ => none

/-- The error for an elementary function without its closing parenthesis. -/
def missingParen (name : Text) (s : Lexemes) : FormulaError :=
  s.complain fun p found =>
    ((FormulaError.functionFailure name).locatedAt p).saying
      ("expected ')', found ".toList ++ found.toText)

def term (inner : Parser NumericExpr) : Parser NumericExpr
  | .token _ (.numeral n) rest => .ok (literal n, rest)
  | .token _ .openParen rest => Parser.enclosed inner Lexemes.unexpected rest
  | .token _ (.name n) rest => Parser.name name n rest
  | .call _ n arguments rest => .ok (call n arguments, rest)
  | .openCall _ _ e => .error ⟨[], e⟩
  | .apply _ n f rest =>
    match Parser.enclosed inner (missingParen n) rest with
    | .ok (e, rest) => .ok (apply f e, rest)
    | .error f => .error f
  | s => Parser.fail s

/-- Any number of prefix operators before an operand. -/
def signs (operand : Parser NumericExpr) : Parser NumericExpr
  | .token p (.operator o) rest =>
    match o.prefix? with
    | none => operand (.token p (.operator o) rest)
    | some o =>
      match signs operand rest with
      | .ok (e, rest) => .ok (signed o e, rest)
      | .error f => .error f
  | s => operand s

/-- One layer of the grammar around what stands in parentheses; `fuel` bounds the operators. -/
def layer (fuel : Nat) (inner : Parser NumericExpr) : Parser NumericExpr :=
  let level (p : Precedence) (operand : Parser NumericExpr) : Parser NumericExpr :=
    Parser.chain (joins? p) operand fuel
  level .bitwise (level .relational (level .additive (level .multiplicative
    (signs (level .power (term inner))))))

/-- An expression in which parentheses nest less deeply than `depth`. -/
def expression : (depth : Nat) → Parser NumericExpr
  | 0 => Parser.fail
  | depth + 1 => layer depth (expression depth)

/-- A numeric formula. Neither its operators nor its parentheses outnumber its pieces. -/
def parse (t : Text) : Program NumericExpr :=
  let s := Lexemes.ofText .number t
  Parser.segments (expression (s.size + 1)) s.size s

end NumericExpr

namespace TextExpr

def joins? : Token → Option (TextExpr → TextExpr → TextExpr)
  | .operator .plus => some append
  | _ => none

def term (inner : Parser TextExpr) : Parser TextExpr
  | .token _ (.string content) rest => .ok (literal content, rest)
  | .token _ .openParen rest => Parser.enclosed inner Lexemes.unexpected rest
  | .token _ (.name n) rest => Parser.name name n rest
  | .call _ n arguments rest => .ok (call n arguments, rest)
  | .openCall _ _ e => .error ⟨[], e⟩
  | s => Parser.fail s

/-- An expression in which parentheses nest less deeply than `depth`. -/
def expression : (depth : Nat) → Parser TextExpr
  | 0 => Parser.fail
  | depth + 1 => Parser.chain joins? (term (expression depth)) depth

/-- A text formula. -/
def parse (t : Text) : Program TextExpr :=
  let s := Lexemes.ofText .text t
  Parser.segments (expression (s.size + 1)) s.size s

end TextExpr

end FormulaEngine
