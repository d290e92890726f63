import FormulaEngine.Intrinsic.Texts
import FormulaEngine.Proofs.Binary64.Identity
import FormulaEngine.Proofs.Decimal.Notation
import FormulaEngine.Proofs.Decimal.Shortest
import FormulaEngine.Proofs.Trimming

/-! # Numbers survive as texts

A number that is written is read back, bit for bit: the digits are those of a decimal that is
rounded to the number, and the sign is written apart from them. -/

namespace FormulaEngine.Decimal

open Binary64

/-! ## Numerals without a sign -/

/-- The text is read as the number, and as none with a sign behind it. Neither signs nor parentheses
are in front of it, and there are no blanks and no commas in it. -/
structure Unsigned (t : Text) (y : Float) : Prop where
  read : readUnsigned? t = some y
  trailing : readUnsigned? (t ++ ['-']) = none
  head : ∃ c r, t = c :: r ∧ c ≠ '-' ∧ c ≠ '+' ∧ c ≠ '('
  plain : ∀ c ∈ t, isBlank c = false ∧ c ≠ ','

theorem unsigned_infinity : Unsigned "Infinity".toList infinity where
  read := by decide +kernel
  trailing := by decide +kernel
  head := ⟨'I', "nfinity".toList, rfl, by decide⟩
  plain := by decide

theorem unsigned_nan : Unsigned "NaN".toList nan where
  read := by decide +kernel
  trailing := by decide +kernel
  head := ⟨'N', "aN".toList, rfl, by decide⟩
  plain := by decide

/-- What begins with a digit is not one of the words. -/
theorem readUnsigned?_of_isDigit {c : Char} (hc : c.isDigit = true) (r : Text) :
    readUnsigned? (c :: r) = (scanScaled? (c :: r)).map Scaled.nearest := by
  have all : ∀ c ∈ "0123456789".toList, c.toLower ≠ 'i' ∧ c.toLower ≠ 'n' := by decide
  obtain ⟨hi, hn⟩ := all c (mem_digits_of_isDigit hc)
  unfold readUnsigned?
  dsimp only
  rw [if_neg, if_neg]
  · exact fun h => hn (List.cons.inj h).1
  · exact not_or.mpr ⟨fun h => hi (List.cons.inj h).1, fun h => hi (List.cons.inj h).1⟩

theorem IsMark.plain {c : Char} (hc : IsMark c) : isBlank c = false ∧ c ≠ ',' := by
  have all : ∀ c ∈ "0123456789.E+-".toList, isBlank c = false ∧ c ≠ ',' := by decide
  refine all c ?_
  rcases hc with hc | hc
  · exact List.mem_append_left ".E+-".toList (mem_digits_of_isDigit hc)
  · exact List.mem_append_right "0123456789".toList hc

theorem Scans.exists_unsigned {t : Text} {v : ℚ} (h : Scans t v) :
    ∃ d : Scaled, d.value = v ∧ Unsigned t d.nearest := by
  obtain ⟨d, hscan, hvalue⟩ := h.scan
  have htrailing := h.trailing
  obtain ⟨c, r, rfl, hc⟩ := h.head
  have all : ∀ c ∈ "0123456789".toList, c ≠ '-' ∧ c ≠ '+' ∧ c ≠ '(' := by decide
  refine ⟨d, hvalue, ?_, ?_, ⟨c, r, rfl, all c (mem_digits_of_isDigit hc)⟩,
    fun c hc => (h.marks c hc).plain⟩
  · rw [readUnsigned?_of_isDigit hc, hscan]
    rfl
  · rw [List.cons_append] at htrailing ⊢
    rw [readUnsigned?_of_isDigit hc, htrailing]
    rfl

/-! ## Written numbers -/

theorem nearest_eq_zero_of_value {d : Scaled} (h : d.value = 0) : d.nearest = 0 := by
  have hdigits : d.digits = 0 := by
    have hten : (10 : ℚ) ^ d.exponent ≠ 0 := by positivity
    exact_mod_cast (mul_eq_zero.mp h).resolve_right hten
  unfold Scaled.nearest
  exact if_pos (.inl hdigits)

theorem isSigned_of_parts {v : Float} {negative : Bool}
    (h : parts v = .infinite negative ∨ ∃ m q, parts v = .finite negative m q) :
    isSigned v = negative := by
  unfold parts Parts.ofBits at h
  dsimp only at h
  repeat' split at h
  all_goals
    rcases h with h | ⟨m, q, h⟩
    all_goals cases h
    all_goals rfl

/-- The magnitude of a finite number is written so that it is read back. -/
theorem exists_unsigned_of_finite {v : Float} {negative : Bool} {m : ℕ} {q : ℤ}
    (h : parts v = .finite negative m q) {t : Text} (ht : Scans t (shortest m q).value) :
    ∃ y, Unsigned t y ∧ v = if negative then -y else y := by
  obtain ⟨d, hd, hunsigned⟩ := ht.exists_unsigned
  refine ⟨d.nearest, hunsigned, ?_⟩
  rcases Nat.eq_zero_or_pos m with rfl | hm
  · have hzero : d.value = 0 := by rw [hd, shortest, if_pos rfl, Scaled.value, Nat.cast_zero, zero_mul]
    rw [nearest_eq_zero_of_value hzero]
    exact eq_zero_of_parts h
  · have hdigits := Parts.significand_lt h
    obtain ⟨hlow, hhigh⟩ := Parts.le_exponent h
    have hnormal := Parts.normal h
    have hpos : (0 : ℚ) < m * 2 ^ q := by positivity
    have hrounded := isRounded_nearest d
    have hnearest : nearest d.value = m * 2 ^ q := by
      rw [hd]
      exact nearest_shortest hdigits hlow hhigh hnormal
    unfold IsRounded at hrounded
    rw [hnearest, abs_of_pos hpos, if_pos ((exponent_le_iff hdigits hnormal).mpr hhigh)] at hrounded
    have hv : value? v = some (if negative then -(m * 2 ^ q : ℚ) else m * 2 ^ q) := by
      rw [value?, h, Parts.value?]
    cases negative with
    | true => exact eq_of_value? hv (value?_neg hrounded) (neg_ne_zero.mpr hpos.ne')
    | false => exact eq_of_value? hv hrounded hpos.ne'

/-- What is written of a number: perhaps a sign, and a numeral that is read as its magnitude. -/
theorem exists_write (v : Float) :
    ∃ negative t y, general.write v = signed negative t ∧ Unsigned t y ∧
      v = (if negative then -y else y) ∧ (isSigned v = false → negative = false) := by
  unfold Notation.write
  cases h : parts v with
  | nan =>
    exact ⟨false, _, nan, rfl, unsigned_nan, eq_of_parts (h.trans (by decide +kernel)), fun _ => rfl⟩
  | infinite negative =>
    refine ⟨negative, _, infinity, rfl, unsigned_infinity, eq_of_parts (h.trans ?_), fun hs => ?_⟩
    · cases negative <;> decide +kernel
    · rw [← isSigned_of_parts (.inl h), hs]
  | finite negative m q =>
    have hscans : Scans (if general.isPositional (shortest m q).leading then
        (shortest m q).positional else (shortest m q).scientific) (shortest m q).value := by
      split
      · exact scans_positional _
      · exact scans_scientific _
    obtain ⟨y, hy, hv⟩ := exists_unsigned_of_finite h hscans
    exact ⟨negative, _, y, rfl, hy, hv, fun hs => by rw [← isSigned_of_parts (.inr ⟨_, _, h⟩), hs]⟩

/-! ## Signs -/

section

variable {t : Text} {y : Float} (h : Unsigned t y)

include h

theorem Unsigned.readNumeral?_signed (negative : Bool) :
    readNumeral? (signed negative t) = some (if negative then -y else y) := by
  cases negative with
  | true =>
    show (readUnsigned? t).map (-·) = _
    rw [h.read]
    rfl
  | false =>
    obtain ⟨c, r, rfl, hminus, hplus, -⟩ := h.head
    simp only [signed, Bool.false_eq_true, if_false]
    unfold readNumeral?
    split
    · rename_i heq
      exact absurd (List.cons.inj heq).1 hminus
    · rename_i heq
      exact absurd (List.cons.inj heq).1 hplus
    · exact h.read

theorem Unsigned.readTrailing?_signed (negative : Bool) :
    readTrailing? (signed negative t) = some (if negative then -y else y) := by
  unfold readTrailing?
  rw [h.readNumeral?_signed]

theorem Unsigned.readTrailing?_trailing : readTrailing? (t ++ ['-']) = some (-y) := by
  have hread : readNumeral? t = some y := h.readNumeral?_signed false
  have hnone : readNumeral? (t ++ ['-']) = none := by
    obtain ⟨c, r, rfl, hminus, hplus, -⟩ := h.head
    unfold readNumeral?
    split
    · rename_i heq
      exact absurd (List.cons.inj heq).1 hminus
    · rename_i heq
      exact absurd (List.cons.inj heq).1 hplus
    · exact h.trailing
  have htrim : Text.trimEnd t = t := by
    rw [Text.trimEnd_eq_rdropWhile]
    exact List.rdropWhile_eq_self_iff.mpr fun hne => by simp [(h.plain _ (List.getLast_mem hne)).1]
  unfold readTrailing?
  rw [hnone]
  simp only [List.dropLast_concat, List.getLast?_concat, htrim, hread]
  rfl

end

/-! ## Commas and blanks -/

/-- The point that a comma stands for. -/
def point (c : Char) : Char := if c = ',' then '.' else c

/-- The number with a comma in place of its point. -/
def commas (t : Text) : Text := t.map fun c => if c = '.' then ',' else c

theorem map_point_eq_self {t : Text} (h : ∀ c ∈ t, c ≠ ',') : t.map point = t := by
  refine (List.map_congr_left fun c hc => ?_).trans (List.map_id t)
  exact if_neg (h c hc)

theorem map_point_commas {t : Text} (h : ∀ c ∈ t, c ≠ ',') : (commas t).map point = t := by
  rw [commas, List.map_map]
  refine (List.map_congr_left fun c hc => ?_).trans (List.map_id t)
  simp only [Function.comp, point, id]
  split
  · rename_i hpoint
    rw [hpoint]
    rfl
  · exact if_neg (h c hc)

theorem isBlank_of_point {c : Char} (h : isBlank (point c) = false) : isBlank c = false := by
  unfold point at h
  split at h
  · rename_i hcomma
    rw [hcomma]
    rfl
  · exact h

/-- Blanks around an amount do not matter, and a comma is a point. -/
theorem readAmount?_eq {a b u t : Text} (ha : ∀ c ∈ a, isBlank c = true)
    (hb : ∀ c ∈ b, isBlank c = true) (hu : u.map point = t) (ht : ∀ c ∈ t, isBlank c = false) :
    readAmount? (a ++ u ++ b) =
      match Text.between? '(' ')' t with
      | some inner => (readTrailing? (Text.trim inner)).map (-·)
      | none => readTrailing? t := by
  have hblank : ∀ c ∈ u, isBlank c = false := fun c hc =>
    isBlank_of_point (ht _ (hu ▸ List.mem_map_of_mem hc))
  have htrim : Text.trim (a ++ u ++ b) = u := by
    rw [Text.trim_append_blanks hb, Text.trim_blanks_append ha]
    exact Text.trim_eq_self hblank
  unfold readAmount?
  rw [htrim]
  exact congrArg (fun body => match Text.between? '(' ')' body with
    | some inner => (readTrailing? (Text.trim inner)).map (-·)
    | none => readTrailing? body) hu

theorem between?_eq_none {c : Char} (hc : c ≠ '(') (r : Text) :
    Text.between? '(' ')' (c :: r) = none :=
  if_neg fun h => hc h.1

section

variable {t u a b : Text} {y : Float} (h : Unsigned t y) (ha : ∀ c ∈ a, isBlank c = true)
  (hb : ∀ c ∈ b, isBlank c = true)

include h

theorem Unsigned.plain_signed (negative : Bool) :
    ∀ c ∈ signed negative t, isBlank c = false ∧ c ≠ ',' := by
  cases negative with
  | true => exact List.forall_mem_cons.mpr ⟨by decide, h.plain⟩
  | false => exact h.plain

include ha hb

theorem Unsigned.readAmount?_signed {negative : Bool} (hu : u.map point = signed negative t) :
    readAmount? (a ++ u ++ b) = some (if negative then -y else y) := by
  have hbetween : Text.between? '(' ')' (signed negative t) = none := by
    cases negative with
    | true => exact between?_eq_none (by decide) t
    | false =>
      obtain ⟨c, r, rfl, -, -, hparen⟩ := h.head
      exact between?_eq_none hparen r
  rw [readAmount?_eq ha hb hu fun c hc => (h.plain_signed negative c hc).1, hbetween]
  exact h.readTrailing?_signed negative

theorem Unsigned.readAmount?_trailing (hu : u.map point = t) :
    readAmount? (a ++ (u ++ ['-']) ++ b) = some (-y) := by
  have hmap : (u ++ ['-']).map point = t ++ ['-'] := by
    rw [List.map_append, hu]
    rfl
  have hbetween : Text.between? '(' ')' (t ++ ['-']) = none := by
    obtain ⟨c, r, rfl, -, -, hparen⟩ := h.head
    exact between?_eq_none hparen _
  rw [readAmount?_eq ha hb hmap, hbetween]
  · exact h.readTrailing?_trailing
  · exact List.forall_mem_append.mpr ⟨fun c hc => (h.plain c hc).1, by decide⟩

theorem Unsigned.readAmount?_parenthesized (hu : u.map point = t) :
    readAmount? (a ++ '(' :: (u ++ [')']) ++ b) = some (-y) := by
  have hmap : ('(' :: (u ++ [')'])).map point = '(' :: (t ++ [')']) := by
    rw [List.map_cons, List.map_append, hu]
    rfl
  have hbetween : Text.between? '(' ')' ('(' :: (t ++ [')'])) = some t := by
    simp [Text.between?]
  have htrim : Text.trim t = t := Text.trim_eq_self fun c hc => (h.plain c hc).1
  have hread : readTrailing? t = some y := h.readTrailing?_signed false
  rw [readAmount?_eq ha hb hmap, hbetween]
  · dsimp only
    rw [htrim, hread]
    rfl
  · exact List.forall_mem_cons.mpr ⟨by decide, List.forall_mem_append.mpr
      ⟨fun c hc => (h.plain c hc).1, by decide⟩⟩

end

theorem readNumber_of_readAmount? {t : Text} {v : Float} (h : readAmount? t = some v) :
    readNumber t = .ok v := by
  rw [readNumber, h]

/-- Numbers survive being written. The text is read back as the same number, bit for bit, also with
a comma for the point and with blanks around it. With a sign at its end or in parentheses the text
of a number without a sign is read as the opposite number. -/
theorem readNumber_write (v : Float) {t a b : Text}
    (ht : t = general.write v ∨ t = commas (general.write v)) (ha : ∀ c ∈ a, isBlank c = true)
    (hb : ∀ c ∈ b, isBlank c = true) :
    readNumber (a ++ t ++ b) = .ok v ∧
      (isSigned v = false → readNumber (a ++ (t ++ ['-']) ++ b) = .ok (-v) ∧
        readNumber (a ++ '(' :: (t ++ [')']) ++ b) = .ok (-v)) := by
  obtain ⟨negative, w, y, hwrite, hw, hv, hsign⟩ := exists_write v
  have hmap : t.map point = signed negative w := by
    have hcommas : ∀ c ∈ signed negative w, c ≠ ',' := fun c hc => (hw.plain_signed _ c hc).2
    rw [hwrite] at ht
    rcases ht with rfl | rfl
    · exact map_point_eq_self hcommas
    · exact map_point_commas hcommas
  refine ⟨?_, fun hs => ?_⟩
  · rw [hv]
    exact readNumber_of_readAmount? (hw.readAmount?_signed ha hb hmap)
  · obtain rfl := hsign hs
    obtain rfl : v = y := hv
    exact ⟨readNumber_of_readAmount? (hw.readAmount?_trailing ha hb hmap),
      readNumber_of_readAmount? (hw.readAmount?_parenthesized ha hb hmap)⟩

theorem readNumber_write_comma :
    readNumber " 1,5 ".toList = .ok 1.5 ∧ readNumber " 1,5- ".toList = .ok (-1.5) ∧
      readNumber " (1,5) ".toList = .ok (-1.5) := by
  have hwrite : "1,5".toList = commas (general.write 1.5) := by decide +kernel
  obtain ⟨hread, hopposite⟩ := readNumber_write 1.5 (a := [' ']) (b := [' ']) (.inr hwrite)
    (by decide) (by decide)
  exact ⟨hread, hopposite (by decide +kernel)⟩

end FormulaEngine.Decimal
