import FormulaEngine.Proofs.Binary64.Bitwise
import FormulaEngine.Proofs.Trees

/-! # Arithmetic with whole numbers

Trees over whole numbers with the operators that lead from whole numbers to whole numbers. Such a
tree has a value among the integers, where nothing overflows and negative numbers have infinitely
many bits. As long as no subtree leaves the numbers that binary64 has all of, evaluating the text
of a tree gives its value. Division, powers, percentages and comparisons are no part of this. -/

namespace FormulaEngine

/-- The signs and the complement. -/
inductive WholeSign where
  | minus
  | plus
  | complement
  deriving DecidableEq, Repr

inductive WholeOperator where
  | plus
  | minus
  | times
  | remainder
  | or
  | xor
  | and
  deriving DecidableEq, Repr

namespace WholeSign

def operator : WholeSign → PrefixOperator
  | minus => .minus
  | plus => .plus
  | complement => .complement

/-- What it does to an integer. -/
def apply : WholeSign → ℤ → ℤ
  | minus, a => -a
  | plus, a => a
  | complement, a => a.lnot

end WholeSign

namespace WholeOperator

def operator : WholeOperator → InfixOperator
  | plus => .plus
  | minus => .minus
  | times => .times
  | remainder => .remainder
  | or => .or
  | xor => .xor
  | and => .and

/-- The operator as it is written. -/
def spelled (o : WholeOperator) : SpelledOperator where
  operator := o.operator
  spelling := o.operator.operator.toText
  mem_punctuation := by
    cases o <;> simp [operator, InfixOperator.operator, Operator.toText, Symbol.punctuation]

/-- What it does to integers. The remainder is that of the quotient cut off toward zero, and the
last three work on the bits of two's complement. -/
def apply : WholeOperator → ℤ → ℤ → ℤ
  | plus, a, b => a + b
  | minus, a, b => a - b
  | times, a, b => a * b
  | remainder, a, b => a.tmod b
  | or, a, b => a.lor b
  | xor, a, b => a.xor b
  | and, a, b => a.land b

end WholeOperator

/-- An expression of whole numbers. Parentheses that are not needed may be there. -/
inductive WholeTree where
  | literal (digits : Text) (ne : digits ≠ []) (all : ∀ c ∈ digits, c.isDigit = true)
  | signed (o : WholeSign) (e : WholeTree)
  | binary (o : WholeOperator) (a b : WholeTree)
  | enclosed (e : WholeTree)

namespace WholeTree

/-- The value among the integers. -/
def value : WholeTree → ℤ
  | literal digits _ _ => Decimal.digitsValue digits
  | signed o e => o.apply e.value
  | binary o a b => o.apply a.value b.value
  | enclosed e => e.value

/-- No subtree has a value beyond `2^53`, and nothing is divided by zero. -/
def InRange (e : WholeTree) : Prop :=
  |e.value| ≤ 2 ^ 53 ∧
    match e with
    | literal _ _ _ => True
    | signed _ e => e.InRange
    | binary o a b => a.InRange ∧ b.InRange ∧ (o = .remainder → b.value ≠ 0)
    | enclosed e => e.InRange

def level : WholeTree → Level
  | literal _ _ _ | enclosed _ => .term
  | signed _ _ => .signs
  | binary o _ _ => .chain o.operator.precedence

/-- The text of a tree, with so many spaces around infix operators. An operand that binds too
loosely for its place is put into parentheses. -/
def print (n : ℕ) : WholeTree → Text
  | literal digits _ _ => digits
  | signed o e => o.operator.operator.toText ++ (e.print n).guarded e.level .signs
  | binary o a b =>
    (a.print n).guarded a.level (.chain o.operator.precedence) ++
      (Text.gap n ++ o.spelled.spelling ++ Text.gap n) ++
      (b.print n).guarded b.level o.operator.precedence.operands
  | enclosed e => '(' :: (e.print n ++ [')'])

def expr : WholeTree → NumericExpr
  | literal digits _ _ => .literal (.whole (Decimal.digitsValue digits))
  | signed o e => .signed o.operator e.expr
  | binary o a b => .binary o.operator a.expr b.expr
  | enclosed e => e.expr

instance decidableInRange : (e : WholeTree) → Decidable e.InRange
  | literal _ _ _ => inferInstanceAs (Decidable (_ ∧ True))
  | signed _ e | enclosed e =>
    have := decidableInRange e
    inferInstanceAs (Decidable (_ ∧ e.InRange))
  | binary o a b =>
    have := decidableInRange a
    have := decidableInRange b
    inferInstanceAs (Decidable (_ ∧ a.InRange ∧ b.InRange ∧ (o = .remainder → b.value ≠ 0)))

theorem InRange.abs_le {e : WholeTree} (h : e.InRange) : |e.value| ≤ 2 ^ 53 := by
  cases e <;> exact h.1

/-! ## What is written is parsed as the tree says -/

/-- The digits of a number that is not too large are a literal. -/
def numberLiteral (digits : Text) (ne : digits ≠ []) (all : ∀ c ∈ digits, c.isDigit = true)
    (h : (literal digits ne all).InRange) : NumberLiteral :=
  ⟨digits, none, ne, all, nofun, (le_abs_self _).trans (h.abs_le.trans (by decide))⟩

theorem printed (n : ℕ) {e : WholeTree} (h : e.InRange) :
    e.expr.Printed e.level (e.print n) ∧ (e.print n).Standalone := by
  induction e with
  | literal digits ne all =>
    let l := numberLiteral digits ne all h
    exact ⟨⟨.literal l.value, rfl, .numeral l⟩, l.standalone⟩
  | signed o e ih =>
    obtain ⟨hprinted, halone⟩ := ih h.2
    exact ⟨(hprinted.guarded _).signed o.operator, by
      simpa [print] using o.operator.standalone.append (m := []) (by simp) (halone.guarded _ _)⟩
  | binary o a b iha ihb =>
    obtain ⟨hprinted, halone⟩ := iha h.2.1
    obtain ⟨hprinted', halone'⟩ := ihb h.2.2.1
    exact ⟨(hprinted.guarded _).binary o.spelled n (hprinted'.guarded _),
      (halone.guarded _ _).operands n o.spelled.mem_punctuation (halone'.guarded _ _)⟩
  | enclosed e ih =>
    obtain ⟨hprinted, halone⟩ := ih h.2
    exact ⟨(hprinted.lift (Nat.zero_le _)).enclosed, halone.enclosed⟩

end WholeTree

/-! ## The operators are exact -/

open Binary64

variable {x y : Float} {a b : ℤ}

theorem WholeSign.value?_apply (o : WholeSign) (hx : value? x = some (a : ℚ))
    (ha : |a| ≤ 2 ^ 53) (hresult : |o.apply a| ≤ 2 ^ 53) :
    value? (o.operator.apply x) = some (o.apply a : ℚ) := by
  cases o with
  | minus =>
    have hneg := value?_neg hx
    rw [← Int.cast_neg] at hneg
    exact hneg
  | plus => exact hx
  | complement => exact value?_complement hx ha hresult

theorem WholeOperator.value?_apply (o : WholeOperator) (t : Tolerance)
    (hx : value? x = some (a : ℚ)) (hy : value? y = some (b : ℚ)) (ha : |a| ≤ 2 ^ 53)
    (hb : |b| ≤ 2 ^ 53) (hne : o = remainder → b ≠ 0) (hresult : |o.apply a b| ≤ 2 ^ 53) :
    value? (o.operator.apply t x y) = some (o.apply a b : ℚ) := by
  cases o with
  | plus =>
    have hsum := isRounded_add hx hy
    rw [← Int.cast_add] at hsum
    exact hsum.value?_intCast hresult
  | minus =>
    have hdifference := isRounded_sub hx hy
    rw [← Int.cast_sub] at hdifference
    exact hdifference.value?_intCast hresult
  | times =>
    have hproduct := isRounded_mul hx hy
    rw [← Int.cast_mul] at hproduct
    exact hproduct.value?_intCast hresult
  | remainder => exact value?_remainder hx hy ha hb (hne rfl) hresult
  | or => exact value?_bitwise (fun m n => toInt_or m.toBitVec n.toBitVec) hx hy ha hb hresult
  | xor => exact value?_bitwise (fun m n => toInt_xor m.toBitVec n.toBitVec) hx hy ha hb hresult
  | and => exact value?_bitwise (fun m n => toInt_and m.toBitVec n.toBitVec) hx hy ha hb hresult

namespace WholeTree

variable {e : WholeTree}

/-- The expression of a tree has the value of the tree. -/
theorem eval_expr (c : Context Text) (h : e.InRange) :
    ∃ x, e.expr.eval c = ⟨[], .ok x⟩ ∧ value? x = some (e.value : ℚ) := by
  induction e with
  | literal digits ne all =>
    refine ⟨.ofNat (Decimal.digitsValue digits), rfl, ?_⟩
    have hle : (Decimal.digitsValue digits : ℤ) ≤ 2 ^ 53 := (le_abs_self _).trans h.abs_le
    rw [value, Int.cast_natCast]
    exact value?_ofNat (by exact_mod_cast hle)
  | signed o e ih =>
    obtain ⟨x, hx, hvalue⟩ := ih h.2
    refine ⟨o.operator.apply x, ?_, o.value?_apply hvalue h.2.abs_le h.abs_le⟩
    rw [expr, NumericExpr.eval, hx]
    rfl
  | binary o a b iha ihb =>
    obtain ⟨ha, hb, hne⟩ := h.2
    obtain ⟨x, hx, hvalue⟩ := iha ha
    obtain ⟨y, hy, hvalue'⟩ := ihb hb
    refine ⟨o.operator.apply c.tolerance x y, ?_,
      o.value?_apply c.tolerance hvalue hvalue' ha.abs_le hb.abs_le hne h.abs_le⟩
    rw [expr, NumericExpr.eval, hx, hy]
    rfl
  | enclosed e ih => exact ih h.2

/-- The text of a tree, evaluated as a formula, gives the value of the tree, and nothing is
asked. -/
theorem evalNumber_exact (s : Surroundings) (n : ℕ) (h : e.InRange) :
    ∃ x, s.evalNumber (e.print n) = ⟨[], .ok x⟩ ∧ value? x = some (e.value : ℚ) := by
  obtain ⟨hprinted, halone⟩ := printed n h
  have hformula : e.expr.Printed (.chain .bitwise) (e.print n) := hprinted.lift (Nat.zero_le _)
  obtain ⟨d, hexpr, hspells⟩ := hformula
  obtain ⟨x, hx, hvalue⟩ := eval_expr s.ambient h
  refine ⟨x, ?_, hvalue⟩
  rw [s.evalNumber_of_spells (d := .last d) halone.normalize_eq hspells, Segments.program,
    Segments.final, hexpr]
  exact hx

/-- Signs, bits, a remainder, and parentheses. -/
theorem evalNumber_exact_bits :
    ∃ x, (Surroundings.initial {}).evalNumber "(~7 & 12 - 3) * -3 % 7 ^ (08)".toList = ⟨[], .ok x⟩ ∧
      value? x = some ((-11 : ℤ) : ℚ) := by
  let digit (c : Char) (h : c.isDigit = true) : WholeTree := .literal [c] nofun (by simpa using h)
  let e : WholeTree := .binary .xor
    (.binary .remainder
      (.binary .times
        (.enclosed (.binary .and (.signed .complement (digit '7' rfl))
          (.binary .minus (.literal "12".toList nofun (by decide)) (digit '3' rfl))))
        (.signed .minus (digit '3' rfl)))
      (digit '7' rfl))
    (.enclosed (.literal "08".toList nofun (by decide)))
  have hprint : e.print 1 = "(~7 & 12 - 3) * -3 % 7 ^ (08)".toList := by decide +kernel
  have hvalue : e.value = -11 := by decide +kernel
  rw [← hprint, ← hvalue]
  exact evalNumber_exact (Surroundings.initial {}) 1 (by decide +kernel)

end WholeTree

end FormulaEngine
