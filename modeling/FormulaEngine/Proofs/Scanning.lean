import FormulaEngine.Token.Lexer
import Mathlib.Data.List.TakeWhile

/-! # Tokens in front of a text

What is spelled like a token is scanned as that token, whatever follows, if only what follows does
not make it longer. -/

namespace FormulaEngine

/-- A name as the lexer reads one. -/
structure IsName (n : Text) : Prop where
  head : ∃ c, n.head? = some c ∧ isNameStart c = true
  all : ∀ c ∈ n, isNamePart c = true

theorem isName_iff {n : Text} :
    IsName n ↔ n.head?.any isNameStart = true ∧ ∀ c ∈ n, isNamePart c = true := by
  constructor
  · rintro ⟨⟨c, hc, hstart⟩, hall⟩
    exact ⟨by simp [hc, hstart], hall⟩
  · rintro ⟨hstart, hall⟩
    cases hc : n.head? with
    | none => simp [hc] at hstart
    | some c => exact ⟨⟨c, hc, by simpa [hc] using hstart⟩, hall⟩

instance (n : Text) : Decidable (IsName n) := decidable_of_iff _ isName_iff.symm

/-- The text does not go on with a character that belongs to a name. -/
def EndsName (t : Text) : Prop := ∀ c, t.head? = some c → isNamePart c = false

/-- The ASCII digits, in order. -/
theorem mem_digits_of_isDigit {c : Char} (h : c.isDigit = true) : c ∈ "0123456789".toList := by
  simp only [Char.isDigit, ge_iff_le, Bool.and_eq_true, decide_eq_true_eq] at h
  have hc : c = Char.ofNat c.toNat := (Char.ofNat_toNat c).symm
  have hl : 48 ≤ c.toNat := h.1
  have hu : c.toNat ≤ 57 := h.2
  have all : ∀ n : Fin 10, Char.ofNat (n + 48) ∈ "0123456789".toList := by decide
  have hn := all ⟨c.toNat - 48, by omega⟩
  rw [hc]
  rwa [Nat.sub_add_cancel hl] at hn

theorem isNameStart_of_isDigit {c : Char} (h : c.isDigit = true) : isNameStart c = false := by
  have all : ∀ c ∈ "0123456789".toList, isNameStart c = false := by decide
  exact all c (mem_digits_of_isDigit h)

/-- The blanks, by code point. -/
theorem toNat_mem_of_isBlank {c : Char} (h : isBlank c = true) :
    c.toNat ∈ List.range' 9 5 ++ [0x20, 0x85, 0xA0, 0x1680] ++ List.range' 0x2000 11 ++
      [0x2028, 0x2029, 0x202F, 0x205F, 0x3000] := by
  simp only [isBlank, Bool.or_eq_true, Bool.and_eq_true, decide_eq_true_eq, beq_iff_eq] at h
  simp only [List.mem_append, List.mem_range'_1, List.mem_cons, List.not_mem_nil, or_false]
  omega

theorem isNamePart_of_isBlank {c : Char} (h : isBlank c = true) : isNamePart c = false := by
  have hmem := toNat_mem_of_isBlank h
  rw [← Char.ofNat_toNat c]
  revert hmem
  generalize c.toNat = n
  revert n
  decide +kernel

/-- A text without the spaces in front. -/
abbrev Lexer.unspaced (t : Text) : Text := t.drop (spaces t)

theorem Lexer.unspaced_cons {c : Char} (h : c ≠ ' ') (t : Text) : unspaced (c :: t) = c :: t := by
  simp [unspaced, spaces, h]

/-- What satisfies `p`, in front of something that does not, is what is taken. -/
theorem Text.takeWhile_append {p : Char → Bool} {t rest : Text} (ht : ∀ c ∈ t, p c = true)
    (hrest : ∀ c, rest.head? = some c → p c = false) : (t ++ rest).takeWhile p = t := by
  rw [List.takeWhile_append_of_pos ht]
  cases rest with
  | nil => simp
  | cons c rest => simp [hrest c rfl]

/-- What is left begins with what is not taken. -/
theorem Text.head?_dropWhile {p : Char → Bool} {t : Text} {c : Char}
    (hc : (t.dropWhile p).head? = some c) : p c = false := by
  have hstop := List.head?_dropWhile_not p t
  rwa [hc] at hstop

namespace Symbol

theorem scan?_name {n rest : Text} (h : IsName n) (hrest : EndsName rest) :
    scan? (n ++ rest) = some (.token (.name n), n.length) := by
  obtain ⟨⟨c, hc, hstart⟩, hall⟩ := h
  obtain ⟨r, rfl⟩ := List.head?_eq_some_iff.mp hc
  have hquote : ¬ (c = '\'' ∨ c = '"') := by
    rintro (rfl | rfl) <;> exact absurd hstart (by decide)
  have hdigit : c.isDigit ≠ true := by
    intro hd
    rw [isNameStart_of_isDigit hd] at hstart
    cases hstart
  have hpart : (r ++ rest).takeWhile isNamePart = r :=
    Text.takeWhile_append (fun d hd => hall d (by simp [hd])) hrest
  rw [List.cons_append, scan?, if_neg hquote, if_neg hdigit, if_pos hstart]
  simp only [hpart]

theorem scan?_string {q : Char} (hq : q = '\'' ∨ q = '"') {t : Text} (ht : q ∉ t) (rest : Text) :
    scan? (q :: (t ++ q :: rest)) = some (.token (.string t), t.length + 2) := by
  have htake : (t ++ q :: rest).takeWhile (· != q) = t := by
    refine Text.takeWhile_append (fun c hc => ?_) fun c hc => ?_
    · simpa using fun h : c = q => ht (h ▸ hc)
    · cases hc
      simp
  rw [scan?, if_pos hq]
  simp [htake]

/-- A digit begins a numeral. -/
theorem scan?_digit {c : Char} (hc : c.isDigit = true) (t : Text) :
    scan? (c :: t) = some (scanNumeral (c :: t)) := by
  have hquote : ∀ c ∈ "0123456789".toList, ¬ (c = '\'' ∨ c = '"') := by decide
  rw [scan?, if_neg (hquote c (mem_digits_of_isDigit hc)), if_pos hc]

section

variable {digits rest : Text} (hdigits : ∀ c ∈ digits, c.isDigit = true)
  (hfits : (Decimal.digitsValue digits : Int) ≤ Binary64.maxInt64)

include hdigits hfits

theorem scanNumeral_whole
    (hrest : ∀ c, rest.head? = some c → c.isDigit = false ∧ c ≠ '.' ∧ c ≠ ',') :
    scanNumeral (digits ++ rest) =
      (.token (.numeral (.whole (Decimal.digitsValue digits))), digits.length) := by
  have htake : (digits ++ rest).takeWhile Char.isDigit = digits :=
    Text.takeWhile_append hdigits fun c hc => (hrest c hc).1
  simp only [scanNumeral, htake, List.drop_left, if_pos hfits]
  cases rest with
  | nil => rfl
  | cons c rest =>
    obtain ⟨_, hpoint, hcomma⟩ := hrest c rfl
    simp [hpoint, hcomma]

theorem scanNumeral_decimal {point : Char} (hpoint : point = '.' ∨ point = ',') {places : Text}
    (hplaces : ∀ c ∈ places, c.isDigit = true)
    (hrest : ∀ c, rest.head? = some c → c.isDigit = false) :
    scanNumeral (digits ++ point :: (places ++ rest)) =
      (.token (.numeral (.decimal (decimalValue (Decimal.digitsValue digits) places))),
        digits.length + 1 + places.length) := by
  have hwhole : (digits ++ point :: (places ++ rest)).takeWhile Char.isDigit = digits := by
    refine Text.takeWhile_append hdigits fun c hc => ?_
    cases hc
    rcases hpoint with rfl | rfl <;> rfl
  have htake : (places ++ rest).takeWhile Char.isDigit = places :=
    Text.takeWhile_append hplaces hrest
  simp only [scanNumeral, hwhole, List.drop_left, if_pos hfits, if_pos hpoint, htake]

end

theorem unspaced_name {n : Text} (h : IsName n) (rest : Text) :
    Lexer.unspaced (n ++ rest) = n ++ rest := by
  obtain ⟨⟨c, hc, hstart⟩, _⟩ := h
  obtain ⟨r, rfl⟩ := List.head?_eq_some_iff.mp hc
  refine Lexer.unspaced_cons ?_ _
  rintro rfl
  exact absurd hstart (by decide)

/-- A quote that is not followed by another one of its sort opens a literal that is not closed. -/
theorem scan?_openString {q : Char} (hq : q = '\'' ∨ q = '"') {t : Text} (ht : q ∉ t) :
    scan? (q :: t) = none := by
  have htake : t.takeWhile (· != q) = t := by
    rw [List.takeWhile_eq_self_iff]
    intro c hc
    simpa using fun h : c = q => ht (h ▸ hc)
  rw [scan?, if_pos hq]
  simp [htake]

end Symbol

end FormulaEngine
