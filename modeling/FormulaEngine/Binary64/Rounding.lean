import FormulaEngine.Binary64.Parts

/-! Rounding to whole numbers, and conversion to signed 64-bit integers. Both are exact: they divide
the significand by a power of two in the natural numbers. -/

namespace FormulaEngine.Binary64

/-- Which whole number stands for a number that is not whole. -/
inductive Rounding where
  | towardZero
  | downward
  | upward
  | halfToEven
  deriving DecidableEq, Repr

/-- Whether a magnitude `quotient + remainder / divisor` is rounded away from zero. -/
def Rounding.goesUp (r : Rounding) (negative : Bool) (quotient remainder divisor : Nat) : Bool :=
  match r with
  | .towardZero => false
  | .downward => negative && remainder != 0
  | .upward => !negative && remainder != 0
  | .halfToEven => divisor < 2 * remainder || (2 * remainder == divisor && quotient % 2 == 1)

/-- The whole number for the magnitude `m · 2^q`. -/
def Rounding.magnitude (r : Rounding) (negative : Bool) (m : Nat) : Int → Nat
  | .ofNat k => m * Nat.pow 2 k
  | .negSucc k =>
    let divisor := Nat.pow 2 (k + 1)
    m / divisor + if r.goesUp negative (m / divisor) (m % divisor) divisor then 1 else 0

/-- The nearest whole number in the chosen sense. The sign is kept, also of a zero. -/
def round (r : Rounding) (x : Float) : Float :=
  match parts x with
  | .finite negative m q =>
    if 0 ≤ q then x
    else
      let n := Float.ofNat (r.magnitude negative m q)
      if negative then -n else n
  | _ => x

def truncate (x : Float) : Float := round .towardZero x

/-- What is left of a number when its whole part is taken away. -/
def fraction (x : Float) : Float := x - truncate x

def minInt64 : Int := -0x8000000000000000

def maxInt64 : Int := 0x7FFFFFFFFFFFFFFF

/-- The nearest integer of the signed 64-bit range. -/
def clampInt64 (n : Int) : Int := max minInt64 (min n maxInt64)

/-- The whole part as a signed 64-bit integer: values outside the range go to its ends, and NaN to
zero. -/
def toInt64 (x : Float) : Int :=
  match parts x with
  | .nan => 0
  | .infinite negative => if negative then minInt64 else maxInt64
  | .finite negative m q =>
    let n : Int := Rounding.towardZero.magnitude negative m q
    clampInt64 (if negative then -n else n)

/-- The nearest integer, ties to even, kept inside the signed 64-bit range. -/
def nearestInt64 (x : Float) : Int := toInt64 (round .halfToEven x)

/-- The nearest count: negative numbers count nothing. -/
def nearestCount (x : Float) : Nat := (nearestInt64 x).toNat

theorem clampInt64_of_mem {n : Int} (h : minInt64 ≤ n ∧ n ≤ maxInt64) : clampInt64 n = n := by
  simp only [clampInt64, minInt64, maxInt64] at *
  omega

theorem Rounding.magnitude_towardZero (negative : Bool) (m k : Nat) :
    Rounding.towardZero.magnitude negative m (.negSucc k) = m / Nat.pow 2 (k + 1) := by
  simp [Rounding.magnitude, Rounding.goesUp]

end FormulaEngine.Binary64
