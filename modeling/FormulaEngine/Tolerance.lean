import FormulaEngine.Binary64.Power

/-! Comparing numbers that are only nearly equal. For `p` decimals two numbers count as equal when
they differ by at most the band `10^-p - 10^-(p+1) - 10^-(p+2)`, and every other comparison is made
from that one. -/

namespace FormulaEngine

/-- How many decimals a comparison looks at. -/
structure Tolerance where
  decimals : UInt32
  deriving DecidableEq, Repr

namespace Tolerance

/-- The power of ten whose exponent is `p`, negated in 32 bits. -/
def unit (p : Int32) : Float := Binary64.integerPower 10 (-p).toInt

/-- The largest difference of two numbers that count as equal. The decimals are taken as a signed
32-bit number and all sums on them wrap around, so `4294967295` decimals act as `-1`. -/
def band (t : Tolerance) : Float :=
  let p := t.decimals.toInt32
  unit p - unit (p + 1) - unit (p + 2)

def equal (t : Tolerance) (a b : Float) : Bool := (a - b).abs ≤ t.band

/-- Less, and outside the band. -/
def less (t : Tolerance) (a b : Float) : Bool := !t.equal a b && a < b

/-- Greater, and outside the band. -/
def greater (t : Tolerance) (a b : Float) : Bool := !t.equal a b && a > b

def lessOrEqual (t : Tolerance) (a b : Float) : Bool := t.equal a b || a < b

def greaterOrEqual (t : Tolerance) (a b : Float) : Bool := t.equal a b || a > b

/-- What a program uses that never says how many decimals it wants. -/
def standard : Tolerance := ⟨5⟩

end Tolerance

/-- The tolerance that a process shares: not chosen yet, or fixed for good. -/
abbrev SharedTolerance := Option Tolerance

namespace SharedTolerance

/-- The shared tolerance, which is fixed by being read. -/
def read (s : SharedTolerance) : Tolerance × SharedTolerance :=
  let t := s.getD .standard
  (t, some t)

/-- Chooses the shared tolerance. Once it is fixed the choice is refused, and the answer names the
decimals in force. -/
def choose (s : SharedTolerance) (decimals : UInt32) : Except UInt32 Unit × SharedTolerance :=
  match s with
  | none => (.ok (), some ⟨decimals⟩)
  | some t => (.error t.decimals, s)

/-- An explicit number of decimals wins; without one the shared tolerance is read. -/
def resolve (s : SharedTolerance) : Option UInt32 → Tolerance × SharedTolerance
  | some decimals => (⟨decimals⟩, s)
  | none => s.read

/-- What a refused choice says. -/
def refusal (decimals : UInt32) : String :=
  s!"default tolerance already initialised with {decimals.toNat} decimals"

end SharedTolerance

/-- A quotient, or zero when there is nothing to divide by. -/
def safeQuotient (a b : Float) : Float := if b == 0 then 0 else a / b

end FormulaEngine
