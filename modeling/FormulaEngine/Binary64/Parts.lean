/-! A binary64 number taken apart. Every number is not a number, an infinity, or plus or minus
`m · 2^q` with a natural `m` below `2^53`; from there on its value is a matter of integers. -/

namespace FormulaEngine.Binary64

/-- The three kinds of binary64 numbers. -/
inductive Parts where
  | nan
  | infinite (negative : Bool)
  | finite (negative : Bool) (significand : Nat) (exponent : Int)
  deriving DecidableEq, Repr

/-- Reads the sign, the biased exponent and the fraction off the 64 bits. -/
def Parts.ofBits (bits : Nat) : Parts :=
  let negative := bits / 0x8000000000000000 % 2 == 1
  let biased : Nat := bits / 0x10000000000000 % 2048
  let fraction := bits % 0x10000000000000
  if biased = 2047 then
    if fraction = 0 then .infinite negative else .nan
  else if biased = 0 then .finite negative fraction (-1074)
  else .finite negative (fraction + 0x10000000000000) ((biased : Int) - 1075)

def parts (x : Float) : Parts := .ofBits x.toBits.toNat

def infinity : Float := .ofBits 0x7FF0000000000000

def nan : Float := .ofBits 0x7FF8000000000000

/-- Ordinary numbers: neither an infinity nor NaN. -/
def isFinite (x : Float) : Bool :=
  match parts x with
  | .finite .. => true
  | _ => false

/-- The sign bit is set; so for negative zero, too. -/
def isSigned (x : Float) : Bool := x.toBits.toNat / 0x8000000000000000 % 2 == 1

theorem Parts.significand_lt {bits m : Nat} {s : Bool} {q : Int}
    (h : Parts.ofBits bits = .finite s m q) : m < 0x20000000000000 := by
  have hf : bits % 0x10000000000000 < 0x10000000000000 := Nat.mod_lt _ (by decide)
  simp only [Parts.ofBits] at h
  split at h
  · split at h <;> contradiction
  · split at h <;> cases h <;> omega

theorem Parts.le_exponent {bits m : Nat} {s : Bool} {q : Int}
    (h : Parts.ofBits bits = .finite s m q) : -1074 ≤ q ∧ q ≤ 971 := by
  have hb : bits / 0x10000000000000 % 2048 < 2048 := Nat.mod_lt _ (by decide)
  simp only [Parts.ofBits] at h
  split at h
  · split at h <;> contradiction
  · split at h <;> cases h <;> omega

end FormulaEngine.Binary64
