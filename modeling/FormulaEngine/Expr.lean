import FormulaEngine.Error
import FormulaEngine.Expr.Operation

/-! The two sorts of expressions. An argument of a call is a text; what it means is decided by the
function when it asks for its value. -/

namespace FormulaEngine

inductive NumericExpr where
  | literal (n : Numeral)
  | name (n : Text)
  | signed (o : PrefixOperator) (e : NumericExpr)
  | binary (o : InfixOperator) (a b : NumericExpr)
  | apply (f : Elementary) (e : NumericExpr)
  | call (name : Text) (arguments : List Text)

inductive TextExpr where
  | literal (content : Text)
  | name (n : Text)
  | append (a b : TextExpr)
  | call (name : Text) (arguments : List Text)

/-- A formula, ready to be evaluated: expressions that are evaluated one after the other and whose
values are dropped, and then either the one whose value counts or the error that the text ends
in. What stands before an error has been evaluated when the error is met. -/
structure Program (ε : Type) where
  steps : List ε
  ending : Except FormulaError ε

/-- One more expression in front. -/
def Program.after {ε : Type} (p : Program ε) (e : ε) : Program ε :=
  { p with steps := e :: p.steps }

end FormulaEngine
