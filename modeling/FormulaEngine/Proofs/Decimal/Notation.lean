import FormulaEngine.Decimal.Notation
import FormulaEngine.Proofs.Decimal.Rounding
import FormulaEngine.Proofs.Scanning

/-! # Written decimals

Both ways of writing a decimal, with and without an exponent, are scanned back to a decimal of the
same value, and to none when a sign is put behind them. -/

namespace FormulaEngine.Decimal

/-! ## Digits -/

/-- A text of decimal digits. -/
def Digits (t : Text) : Prop := ∀ c ∈ t, c.isDigit = true

instance (t : Text) : Decidable (Digits t) := inferInstanceAs (Decidable (∀ c ∈ t, _))

theorem Digits.append {s t : Text} (hs : Digits s) (ht : Digits t) : Digits (s ++ t) :=
  List.forall_mem_append.mpr ⟨hs, ht⟩

theorem digits_ofNat (n : ℕ) : Digits (Text.ofNat n) := fun _ hc =>
  Nat.isDigit_of_mem_toDigits (by decide) (by decide) hc

theorem digits_zeros (n : ℕ) : Digits (List.replicate n '0') := by
  intro c hc
  rw [List.eq_of_mem_replicate hc]
  rfl

theorem ofNat_ne_nil (n : ℕ) : Text.ofNat n ≠ [] := Nat.toDigits_ne_nil

theorem digit_le {c : Char} (hc : c.isDigit = true) : c.toNat - 48 ≤ 9 := by
  have all : ∀ c ∈ "0123456789".toList, c.toNat - 48 ≤ 9 := by decide
  exact all c (mem_digits_of_isDigit hc)

theorem digitsValue_concat (t : Text) (c : Char) :
    digitsValue (t ++ [c]) = 10 * digitsValue t + (c.toNat - 48) := by
  simp [digitsValue]

theorem digitsValue_lt {t : Text} (h : Digits t) : digitsValue t < 10 ^ t.length := by
  induction t using List.reverseRecOn with
  | nil => decide
  | append_singleton t c ih =>
    have ht := ih fun d hd => h d (List.mem_append_left _ hd)
    have hc := digit_le (h c (by simp))
    rw [digitsValue_concat, List.length_append, List.length_singleton, pow_succ]
    omega

/-- Digits behind others shift them to the left. -/
theorem digitsValue_append (s t : Text) :
    digitsValue (s ++ t) = digitsValue s * 10 ^ t.length + digitsValue t := by
  induction t using List.reverseRecOn with
  | nil => simp [digitsValue]
  | append_singleton t c ih =>
    rw [← List.append_assoc, digitsValue_concat, digitsValue_concat, ih, List.length_append,
      List.length_singleton, pow_succ]
    ring

theorem digitsValue_ofNat (n : ℕ) : digitsValue (Text.ofNat n) = n := Nat.ofDigitChars_ten_toDigits

theorem digitsValue_zeros_append (n : ℕ) (t : Text) :
    digitsValue (List.replicate n '0' ++ t) = digitsValue t := by
  have hzeros := Nat.ofDigitChars_append (b := 10) (l := List.replicate n '0') (m := t) 0
  rwa [Nat.ofDigitChars_replicate_zero, mul_zero] at hzeros

theorem digitsValue_append_zeros (t : Text) (n : ℕ) :
    digitsValue (t ++ List.replicate n '0') = 10 ^ n * digitsValue t := by
  have hzeros := Nat.ofDigitChars_append (b := 10) (l := t) (m := List.replicate n '0') 0
  rwa [Nat.ofDigitChars_replicate_zero] at hzeros

/-! ## Mantissas -/

/-- The exponent part of a decimal with these digits and so many places. -/
def ending? (n places : ℕ) : Text → Option Scaled
  | [] => some ⟨n, -places⟩
  | c :: r => if c = 'e' ∨ c = 'E' then (scanExponent? r).map fun e => ⟨n, e - places⟩ else none

/-- The text does not go on with a digit or a point. -/
def EndsMantissa (t : Text) : Prop := ∀ c, t.head? = some c → c.isDigit = false ∧ c ≠ '.'

/-- The characters of decimals. -/
def IsMark (c : Char) : Prop := c.isDigit = true ∨ c ∈ ['.', 'E', '+', '-']

/-- A decimal without an exponent: its digits have the value `n`, and so many are places. -/
structure Mantissa (t : Text) (n places : ℕ) : Prop where
  scan : ∀ tail, EndsMantissa tail → scanScaled? (t ++ tail) = ending? n places tail
  head : ∃ c r, t = c :: r ∧ c.isDigit = true
  marks : ∀ c ∈ t, IsMark c

theorem span_digits {ds tail : Text} (hds : Digits ds)
    (htail : ∀ c, tail.head? = some c → c.isDigit = false) :
    (ds ++ tail).takeWhile Char.isDigit = ds ∧ (ds ++ tail).dropWhile Char.isDigit = tail := by
  refine ⟨Text.takeWhile_append hds htail, ?_⟩
  rw [List.dropWhile_append_of_pos hds]
  cases tail with
  | nil => rfl
  | cons c r => simp [htail c rfl]

theorem mantissa_whole {ds : Text} (hds : Digits ds) (hne : ds ≠ []) :
    Mantissa ds (digitsValue ds) 0 where
  scan tail htail := by
    obtain ⟨htake, hdrop⟩ := span_digits hds fun c hc => (htail c hc).1
    have hwhole : ds.isEmpty = false := List.isEmpty_eq_false_iff.mpr hne
    unfold scanScaled?
    rw [htake, hdrop]
    cases tail with
    | nil => simp [hwhole, ending?]
    | cons c r =>
      have hpoint := (htail c rfl).2
      simp [hwhole, hpoint, ending?]
  head := by
    obtain ⟨c, r, hr⟩ := List.exists_cons_of_ne_nil hne
    exact ⟨c, r, hr, hds c (by simp [hr])⟩
  marks c hc := .inl (hds c hc)

theorem mantissa_point {whole places : Text} (hw : Digits whole) (hp : Digits places)
    (hne : whole ≠ []) :
    Mantissa (whole ++ '.' :: places) (digitsValue (whole ++ places)) places.length where
  scan tail htail := by
    have hspan : ∀ c, ('.' :: (places ++ tail)).head? = some c → c.isDigit = false := by
      intro c hc
      cases hc
      rfl
    obtain ⟨htake, hdrop⟩ := span_digits hw hspan
    obtain ⟨htake', hdrop'⟩ := span_digits hp fun c hc => (htail c hc).1
    have hwhole : whole.isEmpty = false := List.isEmpty_eq_false_iff.mpr hne
    unfold scanScaled?
    rw [List.append_assoc, List.cons_append, htake, hdrop]
    simp only [hwhole, Bool.false_and, Bool.false_eq_true, if_false, htake', hdrop']
    cases tail with
    | nil => simp [ending?]
    | cons c r => rfl
  head := by
    obtain ⟨c, r, hr⟩ := List.exists_cons_of_ne_nil hne
    exact ⟨c, r ++ '.' :: places, by rw [hr, List.cons_append], hw c (by simp [hr])⟩
  marks c hc := by
    rcases List.mem_append.mp hc with hc | hc
    · exact .inl (hw c hc)
    · rcases List.mem_cons.mp hc with rfl | hc
      · exact .inr (by decide)
      · exact .inl (hp c hc)

/-! ## Decimals -/

/-- The text is scanned as a decimal of this value, and as none with a sign behind it. -/
structure Scans (t : Text) (v : ℚ) : Prop where
  scan : ∃ d, scanScaled? t = some d ∧ d.value = v
  trailing : scanScaled? (t ++ ['-']) = none
  head : ∃ c r, t = c :: r ∧ c.isDigit = true
  marks : ∀ c ∈ t, IsMark c

theorem endsMantissa_nil : EndsMantissa [] := fun _ hc => nomatch hc

theorem endsMantissa_cons {c : Char} (hc : c.isDigit = false ∧ c ≠ '.') (t : Text) :
    EndsMantissa (c :: t) := by
  intro d hd
  cases hd
  exact hc

variable {t : Text} {n places : ℕ}

theorem Mantissa.scans (h : Mantissa t n places) : Scans t (n * 10 ^ (-places : ℤ)) where
  scan := by
    have hscan := h.scan [] endsMantissa_nil
    rw [List.append_nil] at hscan
    exact ⟨_, hscan, rfl⟩
  trailing := h.scan ['-'] (endsMantissa_cons (by decide) [])
  head := h.head
  marks := h.marks

/-- A sign behind an exponent is not a part of it. -/
theorem scanExponent?_sign (negative : Bool) {ds : Text} (hds : Digits ds) (hne : ds ≠ []) :
    scanExponent? ((if negative then '-' else '+') :: ds) =
        some (if negative then -(digitsValue ds : ℤ) else digitsValue ds) ∧
      scanExponent? ((if negative then '-' else '+') :: (ds ++ ['-'])) = none := by
  have hall : ds.all Char.isDigit = true := List.all_eq_true.mpr hds
  have hempty : ds.isEmpty = false := List.isEmpty_eq_false_iff.mpr hne
  cases negative <;> simp [scanExponent?, hall, hempty]

theorem Mantissa.scans_exponent (h : Mantissa t n places) (negative : Bool) {ds : Text}
    (hds : Digits ds) (hne : ds ≠ []) :
    Scans (t ++ 'E' :: (if negative then '-' else '+') :: ds)
      (n * 10 ^ ((if negative then -(digitsValue ds : ℤ) else digitsValue ds) - places)) := by
  obtain ⟨hscan, htrailing⟩ := scanExponent?_sign negative hds hne
  have hends : ∀ r, EndsMantissa ('E' :: r) := endsMantissa_cons (by decide)
  obtain ⟨c, r, hc, hdigit⟩ := h.head
  refine ⟨⟨⟨n, _⟩, (h.scan _ (hends _)).trans ?_, rfl⟩, ?_,
    ⟨c, _, by rw [hc, List.cons_append], hdigit⟩, ?_⟩
  · rw [ending?, if_pos (.inr rfl), hscan]
    rfl
  · rw [List.append_assoc, List.cons_append, List.cons_append, h.scan _ (hends _), ending?,
      if_pos (.inr rfl), htrailing]
    rfl
  · have hsign : IsMark (if negative then '-' else '+') := by
      cases negative <;> exact .inr (by decide)
    refine List.forall_mem_append.mpr ⟨h.marks, List.forall_mem_cons.mpr ⟨.inr (by decide), ?_⟩⟩
    exact List.forall_mem_cons.mpr ⟨hsign, fun c hc => .inl (hds c hc)⟩

/-- A decimal without an exponent. -/
theorem scans_positional (d : Scaled) : Scans d.positional d.value := by
  have hdigits := digits_ofNat d.digits
  unfold Scaled.positional
  dsimp only
  split
  · rename_i hexponent
    obtain ⟨k, hk⟩ := Int.eq_ofNat_of_zero_le hexponent
    have hscans := (mantissa_whole (hdigits.append (digits_zeros k)) (by simp [ofNat_ne_nil])).scans
    rw [digitsValue_append_zeros, digitsValue_ofNat] at hscans
    have hvalue : d.value = (10 ^ k * d.digits : ℕ) * 10 ^ (-(0 : ℕ) : ℤ) := by
      rw [Scaled.value, hk, zpow_natCast]
      push_cast
      ring
    rwa [hvalue, hk, Int.toNat_natCast]
  · rename_i hexponent
    obtain ⟨k, hk⟩ := Int.eq_ofNat_of_zero_le (by omega : 0 ≤ -d.exponent)
    have hneg : d.exponent = -k := by omega
    rw [Scaled.value, hk, Int.toNat_natCast, hneg]
    split
    · rename_i hshort
      have hcut : (Text.ofNat d.digits).take ((Text.ofNat d.digits).length - k) ≠ [] := by
        rw [← List.length_pos_iff, List.length_take]
        omega
      have hwhole : Digits ((Text.ofNat d.digits).take ((Text.ofNat d.digits).length - k)) :=
        fun c hc => hdigits c (List.mem_of_mem_take hc)
      have hplaces : Digits ((Text.ofNat d.digits).drop ((Text.ofNat d.digits).length - k)) :=
        fun c hc => hdigits c (List.mem_of_mem_drop hc)
      have hscans := (mantissa_point hwhole hplaces hcut).scans
      rw [List.take_append_drop, digitsValue_ofNat, List.length_drop] at hscans
      rwa [Nat.sub_sub_self hshort.le] at hscans
    · rename_i hlong
      have hscans := (mantissa_point (show Digits ['0'] from digits_zeros 1)
        ((digits_zeros (k - (Text.ofNat d.digits).length)).append hdigits) (by decide)).scans
      rw [show digitsValue (['0'] ++ _) = _ from digitsValue_zeros_append 1 _,
        digitsValue_zeros_append, digitsValue_ofNat, List.length_append, List.length_replicate,
        Nat.sub_add_cancel (not_lt.mp hlong)] at hscans
      exact hscans

/-- The first digit with the others behind a point. -/
theorem mantissa_scientific (ds : Text) : Digits ds → ds ≠ [] →
    Mantissa
      (match ds with
        | first :: second :: rest => first :: '.' :: second :: rest
        | ds => ds)
      (digitsValue ds) (ds.length - 1) := by
  intro hds hne
  match ds with
  | [first] => exact mantissa_whole hds hne
  | first :: second :: rest =>
    obtain ⟨hfirst, hrest⟩ := List.forall_mem_cons.mp hds
    have hwhole : Digits [first] := List.forall_mem_singleton.mpr hfirst
    exact mantissa_point hwhole hrest (List.cons_ne_nil _ _)

/-- A decimal with an exponent. -/
theorem scans_scientific (d : Scaled) : Scans d.scientific d.value := by
  have hlength : 0 < (Text.ofNat d.digits).length := List.length_pos_iff.mpr (ofNat_ne_nil _)
  have hmantissa := mantissa_scientific _ (digits_ofNat d.digits) (ofNat_ne_nil _)
  have hexponent := (digits_zeros (2 - (Text.ofNat d.leading.natAbs).length)).append
    (digits_ofNat d.leading.natAbs)
  have hscans := hmantissa.scans_exponent (decide (d.leading < 0)) hexponent
    (List.append_ne_nil_of_right_ne_nil _ (ofNat_ne_nil _))
  rw [digitsValue_zeros_append, digitsValue_ofNat, digitsValue_ofNat] at hscans
  have hleading : (if decide (d.leading < 0) = true then -(d.leading.natAbs : ℤ)
      else d.leading.natAbs) - ((Text.ofNat d.digits).length - 1 : ℕ) = d.exponent := by
    rw [Scaled.leading]
    split <;> rename_i hsign <;> rw [decide_eq_true_iff] at hsign <;> omega
  rw [hleading] at hscans
  simp only [decide_eq_true_eq] at hscans
  exact hscans

end FormulaEngine.Decimal
