import FormulaEngine.Token
import FormulaEngine.Tolerance
import FormulaEngine.Value

/-! What the operators and the elementary functions compute, and how tightly the operators bind. -/

namespace FormulaEngine

/-- How tightly an infix operator binds, from the loosest up. -/
inductive Precedence where
  | bitwise
  | relational
  | additive
  | multiplicative
  | power
  deriving DecidableEq, Repr

inductive PrefixOperator where
  | not
  | complement
  | plus
  | minus
  deriving DecidableEq, Repr

inductive InfixOperator where
  | power
  | times
  | divide
  | remainder
  | percent
  | plus
  | minus
  | less
  | lessOrEqual
  | equal
  | notEqual
  | greaterOrEqual
  | greater
  | or
  | xor
  | and
  deriving DecidableEq, Repr

/-- The operator in front of its operand, if it can stand there. -/
def Operator.prefix? : Operator → Option PrefixOperator
  | .not => some .not
  | .complement => some .complement
  | .plus => some .plus
  | .minus => some .minus
  | _ => none

/-- The operator between its operands, if it can stand there. -/
def Operator.infix? : Operator → Option InfixOperator
  | .power => some .power
  | .times => some .times
  | .divide => some .divide
  | .remainder => some .remainder
  | .percent => some .percent
  | .plus => some .plus
  | .minus => some .minus
  | .less => some .less
  | .lessOrEqual => some .lessOrEqual
  | .equal => some .equal
  | .notEqual => some .notEqual
  | .greaterOrEqual => some .greaterOrEqual
  | .greater => some .greater
  | .or => some .or
  | .xor => some .xor
  | .and => some .and
  | .complement => none
  | .not => none

def InfixOperator.precedence : InfixOperator → Precedence
  | power => .power
  | times | divide | remainder | percent => .multiplicative
  | plus | minus => .additive
  | less | lessOrEqual | equal | notEqual | greaterOrEqual | greater => .relational
  | or | xor | and => .bitwise

namespace Binary64

/-- An operation on the bits of the whole parts, as signed 64-bit integers. -/
def bitwise (f : Int64 → Int64 → Int64) (a b : Float) : Float :=
  .ofInt (f (.ofInt (toInt64 a)) (.ofInt (toInt64 b))).toInt

/-- All bits of the whole part inverted. -/
def complement (a : Float) : Float := .ofInt (-toInt64 a - 1)

/-- The remainder of the whole parts, with the sign of the dividend. There is none for a divisor
zero, and none where the quotient is no signed 64-bit integer. -/
def remainder (a b : Float) : Float :=
  let m := toInt64 a
  let n := toInt64 b
  if n = 0 ∨ (m = minInt64 ∧ n = -1) then nan else .ofInt (m.tmod n)

end Binary64

def PrefixOperator.apply : PrefixOperator → Float → Float
  | not, v => truthValue (Binary64.truncate v == 0)
  | complement, v => Binary64.complement v
  | plus, v => v
  | minus, v => -v

def InfixOperator.apply (t : Tolerance) : InfixOperator → Float → Float → Float
  | power, a, b => a.pow b
  | times, a, b => a * b
  | divide, a, b => a / b
  | remainder, a, b => Binary64.remainder a b
  | percent, a, b => a * b / 100
  | plus, a, b => a + b
  | minus, a, b => a - b
  | less, a, b => truthValue (t.less a b)
  | lessOrEqual, a, b => truthValue (t.lessOrEqual a b)
  | equal, a, b => truthValue (t.equal a b)
  | notEqual, a, b => truthValue (!t.equal a b)
  | greaterOrEqual, a, b => truthValue (t.greaterOrEqual a b)
  | greater, a, b => truthValue (t.greater a b)
  | or, a, b => Binary64.bitwise (· ||| ·) a b
  | xor, a, b => Binary64.bitwise (· ^^^ ·) a b
  | and, a, b => Binary64.bitwise (· &&& ·) a b

/-- The functions of one number that the grammar itself knows. -/
inductive Elementary where
  | truncate
  | fraction
  | sine
  | cosine
  | tangent
  deriving DecidableEq, Repr

namespace Elementary

def names : List (Text × Elementary) := [
  ("trunc".toList, truncate), ("int".toList, truncate), ("frac".toList, fraction),
  ("sin".toList, sine), ("cos".toList, cosine), ("tan".toList, tangent)]

/-- The function that a name means, in any case of its letters. -/
def ofName? (name : Text) : Option Elementary := names.lookup (Text.foldCase name)

def apply : Elementary → Float → Float
  | truncate, v => Binary64.truncate v
  | fraction, v => Binary64.fraction v
  | sine, v => v.sin
  | cosine, v => v.cos
  | tangent, v => v.tan

end Elementary

end FormulaEngine
