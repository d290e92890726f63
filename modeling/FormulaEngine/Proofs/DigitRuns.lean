import FormulaEngine.Proofs.Decimal.Notation
import FormulaEngine.Proofs.Positions

/-! # Runs of digits

A whole number is read digit by digit in signed 64-bit integers, with a product and a sum for each
digit. What overflows is given up, and stays given up for the rest of the digits. So the number is
read exactly up to the largest integer, and given up exactly beyond it, however many zeros it begins
with; the digits are passed over either way. That is what the scanner does, which compares the value
of all digits with the limit. -/

namespace FormulaEngine

open Binary64 (maxInt64)

namespace Decimal

/-! ## Digits in 64 bits -/

/-- What a machine operation gives, unless it is not the exact result. -/
def checked? (w : Int64) (i : ℤ) : Option Int64 := if w.toInt = i then some w else none

def product? (v w : Int64) : Option Int64 := checked? (v * w) (v.toInt * w.toInt)

def sum? (v w : Int64) : Option Int64 := checked? (v + w) (v.toInt + w.toInt)

/-- The digit as a machine integer. -/
def digit64 (c : Char) : Int64 := .ofNat (c.toNat - 48)

/-- One more digit behind those that have been read. -/
def addDigit? (v : Int64) (c : Char) : Option Int64 :=
  (product? v 10).bind fun tenfold => sum? tenfold (digit64 c)

/-- Reads on as long as there are digits: the value, unless something has overflowed, and the text
behind the digits. -/
def readDigits (v? : Option Int64) : Text → Option Int64 × Text
  | [] => (v?, [])
  | c :: rest =>
    if c.isDigit then readDigits (v?.bind fun v => addDigit? v c) rest else (v?, c :: rest)

/-- The number, where it is not beyond the largest integer. -/
def bounded? (n : ℕ) : Option ℤ := if (n : ℤ) ≤ maxInt64 then some n else none

variable {v : Int64} {n : ℕ} {c : Char}

/-- What fits does not wrap around. -/
theorem bmod_eq_of_le_maxInt64 {i : ℤ} (h : 0 ≤ i) (hle : i ≤ maxInt64) : i.bmod (2 ^ 64) = i := by
  rw [maxInt64] at hle
  exact Int.bmod_eq_of_le_mul_two (by omega) (by omega)

theorem toInt_le_maxInt64 (v : Int64) : v.toInt ≤ maxInt64 := v.toInt_le

theorem checked?_of_eq {i : ℤ} (h : v.toInt = i) : checked? v i = some v := if_pos h

theorem checked?_of_lt {i : ℤ} (h : maxInt64 < i) : checked? v i = none := by
  refine if_neg fun heq => ?_
  have hle := toInt_le_maxInt64 v
  omega

theorem toInt_digit64 (hc : c.isDigit = true) : (digit64 c).toInt = (c.toNat - 48 : ℕ) := by
  have hle := digit_le hc
  exact Int64.toInt_ofNat_of_lt (by omega)

/-- The product and the sum for a digit are exact where the value fits. -/
theorem toInt_addDigit (hc : c.isDigit = true) (hv : v.toInt = n)
    (h : ((10 * n + (c.toNat - 48) : ℕ) : ℤ) ≤ maxInt64) :
    (v * 10).toInt = v.toInt * 10 ∧
      (v * 10 + digit64 c).toInt = (v * 10).toInt + (digit64 c).toInt := by
  have hproduct : (v * 10).toInt = v.toInt * 10 := by
    rw [Int64.toInt_mul, show (10 : Int64).toInt = 10 from rfl, hv]
    exact bmod_eq_of_le_maxInt64 (by omega) (by omega)
  refine ⟨hproduct, ?_⟩
  rw [Int64.toInt_add, hproduct, toInt_digit64 hc, hv]
  exact bmod_eq_of_le_maxInt64 (by omega) (by omega)

/-- A digit overflows exactly where the value is too large for the machine, be it in the product or
in the sum. -/
theorem addDigit?_spec (hc : c.isDigit = true) (hv : v.toInt = n) :
    (addDigit? v c).map Int64.toInt = bounded? (10 * n + (c.toNat - 48)) := by
  have hten : (10 : Int64).toInt = 10 := rfl
  rw [addDigit?, product?, bounded?, hten]
  split
  · rename_i hfits
    obtain ⟨hproduct, hsum⟩ := toInt_addDigit hc hv hfits
    rw [checked?_of_eq hproduct, Option.bind_some, sum?, checked?_of_eq hsum, Option.map_some, hsum,
      hproduct, hv, toInt_digit64 hc]
    congr 1
    omega
  · rename_i hlarge
    rw [Option.map_eq_none_iff, Option.bind_eq_none_iff]
    intro tenfold htenfold
    obtain ⟨hexact, hw⟩ := Option.ite_none_right_eq_some.mp htenfold
    obtain rfl := Option.some.inj hw
    refine checked?_of_lt ?_
    rw [hexact, hv, toInt_digit64 hc]
    omega

/-- The run over the digits keeps the exact value as long as it fits, and nothing from then on. -/
theorem readDigits_append {digits rest : Text} (hdigits : Digits digits)
    (hrest : ∀ c, rest.head? = some c → c.isDigit = false) {v? : Option Int64}
    (hv : v?.map Int64.toInt = bounded? n) :
    ∃ w?, readDigits v? (digits ++ rest) = (w?, rest) ∧
      w?.map Int64.toInt = bounded? (digits.foldl (fun n c => 10 * n + (c.toNat - 48)) n) := by
  induction digits generalizing v? n with
  | nil =>
    refine ⟨v?, ?_, hv⟩
    cases rest with
    | nil => rfl
    | cons c rest => rw [List.nil_append, readDigits, if_neg (by rw [hrest c rfl]; decide)]
  | cons c digits ih =>
    obtain ⟨hc, hdigits⟩ := List.forall_mem_cons.mp hdigits
    rw [List.cons_append, readDigits, if_pos hc, List.foldl_cons]
    refine ih hdigits ?_
    cases v? with
    | none =>
      rw [Option.map_none, bounded?] at hv
      split at hv
      · cases hv
      · rw [bounded?, if_neg (by omega)]
        rfl
    | some v =>
      rw [Option.map_some, bounded?] at hv
      split at hv
      · exact addDigit?_spec hc (Option.some.inj hv)
      · cases hv

/-- Digits are read exactly when their value is not beyond the limit. -/
theorem readDigits_spec {digits rest : Text} (hdigits : Digits digits)
    (hrest : ∀ c, rest.head? = some c → c.isDigit = false) :
    ∃ w?, readDigits (some 0) (digits ++ rest) = (w?, rest) ∧
      w?.map Int64.toInt = bounded? (digitsValue digits) :=
  readDigits_append hdigits hrest (by rfl)

theorem readDigits_digits {digits : Text} (hdigits : Digits digits) :
    (readDigits (some 0) digits).1.map Int64.toInt = bounded? (digitsValue digits) := by
  have hnil : ∀ c, ([] : Text).head? = some c → c.isDigit = false := fun c hc => nomatch hc
  obtain ⟨w?, hread, hvalue⟩ := readDigits_spec hdigits hnil
  rw [List.append_nil] at hread
  rw [hread, hvalue]

/-- Digits behind others never make the value smaller. -/
theorem digitsValue_le_of_prefix {u digits : Text} (h : u <+: digits) :
    digitsValue u ≤ digitsValue digits := by
  obtain ⟨behind, rfl⟩ := h
  rw [digitsValue_append]
  exact (Nat.le_mul_of_pos_right _ (by positivity)).trans (Nat.le_add_right _ _)

end Decimal

open Decimal

namespace Symbol

/-- Scanning a numeral whose whole part is read in 64 bits. -/
def scanNumeral64 (t : Text) : Symbol × ℕ :=
  match readDigits (some 0) t with
  | (none, rest) => (.invalid, t.length - rest.length)
  | (some v, []) => (.token (.numeral (.whole v.toInt.toNat)), t.length)
  | (some v, c :: rest) =>
    if c = '.' ∨ c = ',' then
      let places := rest.takeWhile Char.isDigit
      (.token (.numeral (.decimal (decimalValue v.toInt.toNat places))),
        t.length - rest.length + places.length)
    else (.token (.numeral (.whole v.toInt.toNat)), t.length - (rest.length + 1))

theorem scanNumeral_tooLarge {digits rest : Text} (hdigits : Digits digits)
    (hrest : ∀ c, rest.head? = some c → c.isDigit = false)
    (hlarge : maxInt64 < digitsValue digits) :
    scanNumeral (digits ++ rest) = (.invalid, digits.length) := by
  simp only [scanNumeral, Text.takeWhile_append hdigits hrest, if_neg (not_le.mpr hlarge)]

theorem scanNumeral64_eq (t : Text) : scanNumeral64 t = scanNumeral t := by
  obtain ⟨digits, rest, rfl, hdigits, hrest⟩ : ∃ digits rest, t = digits ++ rest ∧
      Digits digits ∧ ∀ c, rest.head? = some c → c.isDigit = false :=
    ⟨t.takeWhile Char.isDigit, t.dropWhile Char.isDigit, List.takeWhile_append_dropWhile.symm,
      fun _ hc => List.mem_takeWhile_imp hc, fun _ hc => Text.head?_dropWhile hc⟩
  obtain ⟨w?, hread, hvalue⟩ := readDigits_spec hdigits hrest
  rw [scanNumeral64, scanNumeral, hread, Text.takeWhile_append hdigits hrest]
  simp only [List.drop_left]
  rw [bounded?] at hvalue
  split at hvalue
  · rename_i hfits
    obtain ⟨v, rfl, hv⟩ := Option.map_eq_some_iff.mp hvalue
    rw [if_pos hfits]
    cases rest with
    | nil => simp [hv]
    | cons c rest =>
      simp only [hv, Int.toNat_natCast, List.length_append, List.length_cons]
      split
      · congr 1
        omega
      · congr 1
        omega
  · rename_i hlarge
    rw [Option.map_eq_none_iff.mp hvalue, if_neg hlarge]
    simp

end Symbol

namespace Lexer

/-- How the lexer reads digits in front of a rest. -/
structure ReadsRun (l : Lexer) (digits rest : Text) : Prop where
  /-- A whole number up to the limit is exact. -/
  whole : (digitsValue digits : ℤ) ≤ maxInt64 →
    (∀ c, rest.head? = some c → c ≠ '.' ∧ c ≠ ',') →
      l.next.1 = .ok (.token (.numeral (.whole (digitsValue digits)))) ∧
        l.next.2.cursor.after = rest
  /-- A fraction that follows is a part of the token. -/
  decimal : (digitsValue digits : ℤ) ≤ maxInt64 →
    ∀ point places behind, rest = point :: (places ++ behind) → point = '.' ∨ point = ',' →
      Digits places → (∀ c, behind.head? = some c → c.isDigit = false) →
        l.next.1 = .ok (.token (.numeral (.decimal (decimalValue (digitsValue digits) places)))) ∧
          l.next.2.cursor.after = behind
  /-- Beyond the limit there is no token, whatever follows. -/
  tooLarge : maxInt64 < digitsValue digits →
    l.next.1 = .ok .invalid ∧ l.next.2.cursor.after = rest
  /-- All digits are passed over. -/
  consumed : l.next.2.cursor.after <:+ rest
  /-- Reading the digits in 64 bits gives the same. -/
  machine : l.next.1 = .ok (Symbol.scanNumeral64 (digits ++ rest)).1 ∧
    l.next.2.cursor.after = (digits ++ rest).drop (Symbol.scanNumeral64 (digits ++ rest)).2
  /-- Each beginning of the run is read exactly, or is beyond the limit. -/
  bounded : ∀ u, u <+: digits →
    (readDigits (some 0) u).1.map Int64.toInt = bounded? (digitsValue u)
  /-- Up to the limit, no product and no sum overflows, even if nothing is checked. -/
  exact : (digitsValue digits : ℤ) ≤ maxInt64 → ∀ u c, u ++ [c] <+: digits →
    ∃ v, (readDigits (some 0) u).1 = some v ∧ (v * 10).toInt = v.toInt * 10 ∧
      (v * 10 + digit64 c).toInt = (v * 10).toInt + (digit64 c).toInt

variable {l : Lexer} {digits rest : Text}

/-- The lexer stands in front of digits that are not followed by another one. -/
structure AtRun (l : Lexer) (digits rest : Text) : Prop where
  after : unspaced l.cursor.after = digits ++ rest
  ne_nil : digits ≠ []
  digits : Digits digits
  ends : ∀ c, rest.head? = some c → c.isDigit = false

/-- Whether the digits fit or not, they begin a numeral. -/
theorem AtRun.next (h : l.AtRun digits rest) :
    l.next.1 = .ok (Symbol.scanNumeral (digits ++ rest)).1 ∧
      l.next.2.cursor.after = (digits ++ rest).drop (Symbol.scanNumeral (digits ++ rest)).2 := by
  obtain ⟨c, digits, rfl⟩ := List.exists_cons_of_ne_nil h.ne_nil
  have hscan := Symbol.scan?_digit (h.digits c List.mem_cons_self) (digits ++ rest)
  rw [← List.cons_append, ← h.after] at hscan
  obtain ⟨l', hn, hafter⟩ := next_of_scan hscan
  rw [hn, ← h.after]
  exact ⟨rfl, hafter⟩

/-- A numeral takes all of the digits in front of it. -/
theorem AtRun.suffix (h : l.AtRun digits rest) : l.next.2.cursor.after <:+ rest := by
  obtain ⟨-, hafter⟩ := h.next
  have hwidth := (Symbol.scanNumeral_width (Prod.eta (Symbol.scanNumeral (digits ++ rest))).symm).1
  rw [Text.takeWhile_append h.digits h.ends] at hwidth
  obtain ⟨k, hk⟩ := Nat.exists_eq_add_of_le hwidth
  rw [hafter, hk, ← List.drop_drop, List.drop_left]
  exact List.drop_suffix _ _

theorem AtRun.bounded (h : l.AtRun digits rest) {u : Text} (hu : u <+: digits) :
    (readDigits (some 0) u).1.map Int64.toInt = bounded? (digitsValue u) :=
  readDigits_digits fun c hc => h.digits c (hu.subset hc)

/-- Digits are read exactly up to the largest integer, and are no token beyond it. -/
theorem digits_read_exactly (h : l.AtRun digits rest) : l.ReadsRun digits rest where
  whole := by
    intro hfits hends
    obtain ⟨hnext, hafter⟩ := h.next
    have hscan := Symbol.scanNumeral_whole h.digits hfits fun c hc => ⟨h.ends c hc, hends c hc⟩
    rw [hnext, hafter, hscan, List.drop_left]
    exact ⟨rfl, rfl⟩
  decimal := by
    rintro hfits point places behind rfl hpoint hplaces hbehind
    obtain ⟨hnext, hafter⟩ := h.next
    have hrun : digits ++ point :: (places ++ behind) = digits ++ point :: places ++ behind := by
      simp
    have hwidth : (digits ++ point :: places).length = digits.length + 1 + places.length := by
      rw [List.length_append, List.length_cons]
      omega
    rw [hnext, hafter, Symbol.scanNumeral_decimal h.digits hfits hpoint hplaces hbehind, hrun,
      List.drop_left' hwidth]
    exact ⟨rfl, rfl⟩
  tooLarge := by
    intro hlarge
    obtain ⟨hnext, hafter⟩ := h.next
    rw [hnext, hafter, Symbol.scanNumeral_tooLarge h.digits h.ends hlarge, List.drop_left]
    exact ⟨rfl, rfl⟩
  consumed := h.suffix
  machine := by
    rw [Symbol.scanNumeral64_eq]
    exact h.next
  bounded _ hu := h.bounded hu
  exact := by
    intro hfits u c hu
    have hle := digitsValue_le_of_prefix hu
    rw [digitsValue_concat] at hle
    have hvalue := h.bounded ((List.prefix_append u [c]).trans hu)
    rw [bounded?, if_pos (by omega)] at hvalue
    obtain ⟨v, hread, hv⟩ := Option.map_eq_some_iff.mp hvalue
    exact ⟨v, hread, toInt_addDigit (h.digits c (hu.subset (by simp))) hv (by omega)⟩

/-- The largest integer behind zeros, and the number after it with a fraction. -/
theorem digits_read_exactly_at_limit :
    (ofText "  0009223372036854775807 + 1".toList).ReadsRun "0009223372036854775807".toList
        " + 1".toList ∧
      (ofText "9223372036854775808,5".toList).ReadsRun "9223372036854775808".toList
        ",5".toList :=
  ⟨digits_read_exactly ⟨by decide, by decide, by decide, by rintro _ ⟨⟩; rfl⟩,
    digits_read_exactly ⟨by decide, by decide, by decide, by rintro _ ⟨⟩; rfl⟩⟩

end Lexer

end FormulaEngine
