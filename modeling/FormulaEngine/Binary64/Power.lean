/-! Whole powers of a binary64 number by repeated squaring. Each product is rounded, so the order of
the multiplications is part of the result. -/

namespace FormulaEngine.Binary64

/-- `result · base^n`, taking the binary digits of `n` from the lowest on. -/
def powerInto (result base : Float) (n : Nat) : Float :=
  let result := if n % 2 = 1 then result * base else result
  if n / 2 = 0 then result else powerInto result (base * base) (n / 2)
termination_by n
decreasing_by omega

def naturalPower (base : Float) (n : Nat) : Float := powerInto 1 base n

/-- A power with a negative exponent is the reciprocal of the one with its magnitude. -/
def integerPower (base : Float) (n : Int) : Float :=
  if n < 0 then 1 / naturalPower base n.natAbs else naturalPower base n.natAbs

end FormulaEngine.Binary64
