import FormulaEngine.Binary64.Parts

/-! The shortest decimal for a binary64 number: among the decimals `n · 10^k` that are read back as
the number, the ones with the largest `k`, and of those the nearest; of two that are equally near
the larger. The decimals that are read back are those inside an interval around the number, and on
each decimal grid only the two neighbours of the number need a look. -/

namespace FormulaEngine.Decimal

/-- A decimal number `digits · 10^exponent`. -/
structure Scaled where
  digits : Nat
  exponent : Int
  deriving DecidableEq, Repr

/-- The numbers that round to `m · 2^q`, in quarters of `2^q`. The gap below a power of two is half
as wide as the one above it. The ends belong to the interval exactly when `m` is even. -/
structure Interval where
  low : Nat
  middle : Nat
  high : Nat
  closed : Bool

def Interval.around (m : Nat) (q : Int) : Interval where
  low := if m = 0x10000000000000 ∧ -1074 < q then 4 * m - 1 else 4 * m - 2
  middle := 4 * m
  high := 4 * m + 2
  closed := m % 2 == 0

/-- Whether `point / unit` lies in the interval. -/
def Interval.contains (i : Interval) (point unit : Nat) : Bool :=
  if i.closed then i.low * unit ≤ point && point ≤ i.high * unit
  else i.low * unit < point && point < i.high * unit

/-- A quarter of `2^q` over `10^k`, as a fraction of natural numbers. -/
def gridRatio (q k : Int) : Nat × Nat :=
  (Nat.pow 2 (q - 2).toNat * Nat.pow 10 (-k).toNat,
    Nat.pow 2 (2 - q).toNat * Nat.pow 10 k.toNat)

/-- The point of the grid of multiples of `10^k` that stands for the number, if one does. -/
def onGrid? (m : Nat) (q k : Int) : Option Nat :=
  let i := Interval.around m q
  let (num, den) := gridRatio q k
  let below := i.middle * num / den
  let hitBelow := i.contains (below * den) num
  let hitAbove := i.contains ((below + 1) * den) num
  let rest := i.middle * num % den
  if hitBelow && hitAbove then some (if 2 * rest < den then below else below + 1)
  else if hitBelow then some below
  else if hitAbove then some (below + 1)
  else none

/-- Tries the grids of `10^k`, `10^(k-1)`, … in turn. -/
def search (m : Nat) (q : Int) : Nat → Int → Scaled
  | 0, k => ⟨0, k⟩
  | tries + 1, k =>
    match onGrid? m q k with
    | some n => ⟨n, k⟩
    | none => search m q tries (k - 1)

/-- A grid that is too coarse for `m · 2^q`: `10^k` is above it. -/
def coarsestGrid (m : Nat) (q : Int) : Int :=
  ((m.log2 : Int) + q + 1) * 30103 / 100000 + 1

/-- The shortest decimal for `m · 2^q`; the search meets one within seventeen digits. -/
def shortest (m : Nat) (q : Int) : Scaled :=
  if m = 0 then ⟨0, 0⟩ else search m q 20 (coarsestGrid m q)

end FormulaEngine.Decimal
