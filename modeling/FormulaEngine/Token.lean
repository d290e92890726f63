import FormulaEngine.Decimal.Notation

/-! The tokens of formulas, and how messages show them. -/

namespace FormulaEngine

inductive Operator where
  | power
  | complement
  | not
  | times
  | divide
  | remainder
  | percent
  | plus
  | minus
  | less
  | lessOrEqual
  | equal
  | notEqual
  | greaterOrEqual
  | greater
  | or
  | xor
  | and
  deriving DecidableEq, Repr

def Operator.toText : Operator → Text
  | power => "**".toList
  | complement => "~".toList
  | not => "!".toList
  | times => "*".toList
  | divide => "/".toList
  | remainder => "%".toList
  | percent => "%%".toList
  | plus => "+".toList
  | minus => "-".toList
  | less => "<".toList
  | lessOrEqual => "<=".toList
  | equal => "==".toList
  | notEqual => "<>".toList
  | greaterOrEqual => ">=".toList
  | greater => ">".toList
  | or => "|".toList
  | xor => "^".toList
  | and => "&".toList

/-- A number as written: a whole number, or one with a decimal separator. -/
inductive Numeral where
  | whole (n : Nat)
  | decimal (v : Float)

namespace Numeral

def toFloat : Numeral → Float
  | whole n => .ofNat n
  | decimal v => v

def toText : Numeral → Text
  | whole n => Text.ofNat n
  | decimal v => Decimal.plain.write v

end Numeral

inductive Token where
  | openParen
  | closeParen
  | semicolon
  | numeral (n : Numeral)
  /-- A string literal without its quotes. -/
  | string (content : Text)
  | name (n : Text)
  | operator (o : Operator)

namespace Token

def isOperator : Token → Bool
  | operator _ => true
  | _ => false

def toText : Token → Text
  | openParen => "'('".toList
  | closeParen => "')'".toList
  | semicolon => "';'".toList
  | numeral n => n.toText
  | string content => ['\''] ++ content ++ ['\'']
  | name n => n
  | operator o => o.toText

end Token

/-- What stands at a place of a formula: a token, the end, or something that is no token. -/
inductive Symbol where
  | finish
  | invalid
  | token (t : Token)

namespace Symbol

def isOperator : Symbol → Bool
  | token t => t.isOperator
  | _ => false

def toText : Symbol → Text
  | finish => "end of formula".toList
  | invalid => "invalid token".toList
  | token t => t.toText

end Symbol

end FormulaEngine
