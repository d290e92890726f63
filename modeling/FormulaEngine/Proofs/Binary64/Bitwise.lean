import FormulaEngine.Expr.Operation
import FormulaEngine.Proofs.Binary64.Whole
import Mathlib.Data.Int.Bitwise

/-! # Operations on whole numbers

An integer in two's complement has infinitely many bits, all but finitely many of them equal to the
sign. The bits of a signed word are those of the integer that it stands for, so an operation on
words is the operation on integers. On numbers that are whole and not too large the bitwise
operators and the remainder are therefore exact. -/

namespace FormulaEngine.Binary64

/-! ## Bits of integers -/

theorem exists_testBit_ne (m n : ℕ) : ∃ k, Nat.testBit m k = false ∧ Nat.testBit n k = false := by
  have hlt : ∀ {i}, i ≤ m + n → i < 2 ^ (m + n) := fun hle => hle.trans_lt Nat.lt_two_pow_self
  exact ⟨m + n, Nat.testBit_lt_two_pow (hlt (Nat.le_add_right m n)),
    Nat.testBit_lt_two_pow (hlt (Nat.le_add_left n m))⟩

/-- An integer is determined by its bits. -/
theorem eq_of_testBit_eq {m n : ℤ} (h : ∀ k, m.testBit k = n.testBit k) : m = n := by
  match m, n with
  | .ofNat m, .ofNat n => exact congrArg Int.ofNat (Nat.eq_of_testBit_eq h)
  | .negSucc m, .negSucc n =>
    exact congrArg Int.negSucc (Nat.eq_of_testBit_eq fun k => Bool.not_inj (h k))
  | .ofNat m, .negSucc n =>
    obtain ⟨k, hm, hn⟩ := exists_testBit_ne m n
    simpa [Int.testBit, hm, hn] using h k
  | .negSucc m, .ofNat n =>
    obtain ⟨k, hm, hn⟩ := exists_testBit_ne m n
    simpa [Int.testBit, hm, hn] using h k

/-- Behind its own bits a signed word goes on with its sign. -/
theorem testBit_toInt {w : ℕ} (x : BitVec w) (k : ℕ) :
    x.toInt.testBit k = if k < w then x.getLsbD k else x.msb := by
  rw [BitVec.toInt_eq_msb_cond]
  have hlow : x.toNat.testBit k = x.getLsbD k := BitVec.testBit_toNat x
  split
  · rename_i hmsb
    have hlt := x.isLt
    have hneg : (x.toNat - (2 ^ w : ℕ) : ℤ) = .negSucc (2 ^ w - (x.toNat + 1)) := by
      rw [Int.negSucc_eq]
      omega
    rw [hneg, Int.testBit, Nat.testBit_two_pow_sub_succ hlt, hlow]
    by_cases hk : k < w <;> simp [hk, hmsb]
  · rename_i hmsb
    rw [show Int.testBit (x.toNat : ℤ) k = x.toNat.testBit k from rfl, hlow]
    split
    · rfl
    · rename_i hk
      rw [BitVec.getLsbD_of_ge x k (not_lt.mp hk)]
      simpa using hmsb

variable {w : ℕ} (x y : BitVec w)

theorem toInt_or : (x ||| y).toInt = x.toInt.lor y.toInt := by
  refine eq_of_testBit_eq fun k => ?_
  simp only [Int.testBit_lor, testBit_toInt, BitVec.getLsbD_or, BitVec.msb_or]
  split <;> rfl

theorem toInt_xor : (x ^^^ y).toInt = x.toInt.xor y.toInt := by
  refine eq_of_testBit_eq fun k => ?_
  simp only [Int.testBit_lxor, testBit_toInt, BitVec.getLsbD_xor, BitVec.msb_xor]
  split <;> rfl

theorem toInt_and : (x &&& y).toInt = x.toInt.land y.toInt := by
  refine eq_of_testBit_eq fun k => ?_
  simp only [Int.testBit_land, testBit_toInt, BitVec.getLsbD_and, BitVec.msb_and]
  split <;> rfl

/-! ## Whole numbers in the format -/

variable {x y : Float} {a b : ℤ}

theorem toInt64_of_whole (hx : value? x = some (a : ℚ)) (ha : |a| ≤ 2 ^ 53) : toInt64 x = a := by
  have hv : |(a : ℚ)| ≤ (2 ^ 53 : ℤ) := by exact_mod_cast ha
  rw [toInt64_of_abs_le hx hv (by decide), wholePart_intCast]

theorem toInt_ofInt_of_small (ha : |a| ≤ 2 ^ 53) : (Int64.ofInt a).toInt = a := by
  obtain ⟨hlow, hhigh⟩ := abs_le.mp ha
  exact Int64.toInt_ofInt_of_le (by omega) (by omega)

/-- What an operation on words does with whole numbers is what it does with integers. -/
theorem value?_bitwise {f : Int64 → Int64 → Int64} {g : ℤ → ℤ → ℤ}
    (hf : ∀ m n : Int64, (f m n).toInt = g m.toInt n.toInt) (hx : value? x = some (a : ℚ))
    (hy : value? y = some (b : ℚ)) (ha : |a| ≤ 2 ^ 53) (hb : |b| ≤ 2 ^ 53)
    (hab : |g a b| ≤ 2 ^ 53) : value? (bitwise f x y) = some (g a b : ℚ) := by
  rw [bitwise, toInt64_of_whole hx ha, toInt64_of_whole hy hb, hf, toInt_ofInt_of_small ha,
    toInt_ofInt_of_small hb]
  exact value?_ofInt hab

theorem not_eq (a : ℤ) : -a - 1 = a.lnot := by
  cases a <;> simp only [Int.lnot, Int.ofNat_eq_natCast, Int.negSucc_eq] <;> omega

theorem value?_complement (hx : value? x = some (a : ℚ)) (ha : |a| ≤ 2 ^ 53)
    (hnot : |a.lnot| ≤ 2 ^ 53) : value? (complement x) = some (a.lnot : ℚ) := by
  rw [complement, toInt64_of_whole hx ha, not_eq]
  exact value?_ofInt hnot

theorem value?_remainder (hx : value? x = some (a : ℚ)) (hy : value? y = some (b : ℚ))
    (ha : |a| ≤ 2 ^ 53) (hb : |b| ≤ 2 ^ 53) (hne : b ≠ 0) (hab : |a.tmod b| ≤ 2 ^ 53) :
    value? (remainder x y) = some (a.tmod b : ℚ) := by
  have hleast : ¬ (b = 0 ∨ a = minInt64 ∧ b = -1) := by
    rintro (h | ⟨h, -⟩)
    · exact hne h
    · rw [h] at ha
      exact absurd ha (by decide)
  simp only [remainder, toInt64_of_whole hx ha, toInt64_of_whole hy hb, if_neg hleast]
  exact value?_ofInt hab

end FormulaEngine.Binary64
