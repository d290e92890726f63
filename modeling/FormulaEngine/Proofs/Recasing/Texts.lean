import FormulaEngine.Proofs.Scanning
import FormulaEngine.Proofs.Splitting

/-! # Texts in another case

Two texts are written alike up to case when they differ only in the case of ASCII letters, and not
between single quotes. Lowering the letters outside quotes gives all such texts the same form, and
it commutes with everything that cuts a formula apart: trimming, dropping line breaks, and cutting
at a place that is not inside quotes. A quote that is never closed begins no quoted region. -/

namespace FormulaEngine

/-! ## ASCII case of characters -/

theorem toLower_cases (c : Char) :
    c.toLower = c ∨ c ∈ "ABCDEFGHIJKLMNOPQRSTUVWXYZ".toList := by
  by_cases hc : c.val ≥ 'A'.val ∧ c.val ≤ 'Z'.val
  · have hl : 65 ≤ c.toNat := hc.1
    have hu : c.toNat ≤ 90 := hc.2
    have all : ∀ n : Fin 26, Char.ofNat (n + 65) ∈ "ABCDEFGHIJKLMNOPQRSTUVWXYZ".toList := by decide
    have hn := all ⟨c.toNat - 65, by omega⟩
    rw [Nat.sub_add_cancel hl, Char.ofNat_toNat] at hn
    exact .inr hn
  · exact .inl (dif_neg hc)

/-- What is the same for a capital letter and its small letter does not depend on case. -/
theorem apply_toLower {β : Type} {f : Char → β}
    (h : ∀ c ∈ "ABCDEFGHIJKLMNOPQRSTUVWXYZ".toList, f c.toLower = f c) (c : Char) :
    f c.toLower = f c := by
  obtain hc | hc := toLower_cases c
  · rw [hc]
  · exact h c hc

theorem toLower_eq_iff {c d : Char} (hd : d.isAlpha = false) : c.toLower = d ↔ c = d := by
  have letters : ∀ c ∈ "ABCDEFGHIJKLMNOPQRSTUVWXYZ".toList,
      c.isAlpha = true ∧ c.toLower.isAlpha = true := by decide
  obtain hc | hc := toLower_cases c
  · rw [hc]
  · obtain ⟨hc, hl⟩ := letters c hc
    constructor
    all_goals
      rintro rfl
      simp_all

@[simp] theorem toLower_toLower (c : Char) : c.toLower.toLower = c.toLower :=
  apply_toLower (by decide) c

theorem isBlank_toLower (c : Char) : isBlank c.toLower = isBlank c :=
  apply_toLower (by decide) c

theorem isDigit_toLower (c : Char) : c.toLower.isDigit = c.isDigit :=
  apply_toLower (f := Char.isDigit) (by decide) c

theorem isNameStart_toLower (c : Char) : isNameStart c.toLower = isNameStart c :=
  apply_toLower (by decide) c

theorem isNamePart_toLower (c : Char) : isNamePart c.toLower = isNamePart c :=
  apply_toLower (by decide) c

theorem toLower_of_isDigit {c : Char} (h : c.isDigit = true) : c.toLower = c := by
  have all : ∀ c ∈ "0123456789".toList, c.toLower = c := by decide
  exact all c (mem_digits_of_isDigit h)

namespace Text

/-! ## ASCII case of texts -/

@[simp] theorem foldCase_cons (c : Char) (t : Text) : foldCase (c :: t) = c.toLower :: foldCase t :=
  rfl

@[simp] theorem foldCase_foldCase (t : Text) : foldCase (foldCase t) = foldCase t := by
  simp [foldCase]

theorem foldCase_eq_self {t : Text} (h : ∀ c ∈ t, c.toLower = c) : foldCase t = t :=
  (List.map_congr_left h).trans (List.map_id _)

/-- Characters that are no letters stay, and none of them comes from a letter. -/
theorem mem_foldCase {d : Char} (hd : d.isAlpha = false) {t : Text} : d ∈ foldCase t ↔ d ∈ t := by
  simp [foldCase, toLower_eq_iff hd]

theorem mem_congr {d : Char} (hd : d.isAlpha = false) {t u : Text} (h : foldCase t = foldCase u) :
    d ∈ t ↔ d ∈ u := by
  rw [← mem_foldCase hd, h, mem_foldCase hd]

theorem forall_mem_foldCase {p : Char → Bool} (hp : ∀ c, p c.toLower = p c) {t : Text} :
    (∀ c ∈ foldCase t, p c = true) ↔ ∀ c ∈ t, p c = true := by
  simp [foldCase, hp]

theorem takeWhile_foldCase {p : Char → Bool} (hp : ∀ c, p c.toLower = p c) (t : Text) :
    (foldCase t).takeWhile p = foldCase (t.takeWhile p) := by
  rw [foldCase, List.takeWhile_map, (funext hp : p ∘ Char.toLower = p)]
  rfl

theorem foldCase_trimStart (t : Text) : trimStart (foldCase t) = foldCase (trimStart t) := by
  have hp : isBlank ∘ Char.toLower = isBlank := funext isBlank_toLower
  rw [trimStart, foldCase, List.dropWhile_map, hp]
  rfl

theorem foldCase_trim (t : Text) : trim (foldCase t) = foldCase (trim t) := by
  have hreverse : ∀ t : Text, (foldCase t).reverse = foldCase t.reverse :=
    fun t => (List.map_reverse).symm
  simp only [trim, trimEnd, foldCase_trimStart, hreverse]

theorem tight_foldCase_iff {t : Text} : Tight (foldCase t) ↔ Tight t := by
  simp [Tight, foldCase, isBlank_toLower]

/-! ## Quoted regions -/

/-- Whether a quote is open behind a character. -/
def quotedBehind (quoted : Bool) (c : Char) : Bool := if c = '\'' then !quoted else quoted

/-- Whether a quote is open behind a text. -/
def quotedAfter (quoted : Bool) (t : Text) : Bool := t.foldl quotedBehind quoted

/-- The place lies between a quote and the one that closes it. -/
def InQuotes (t : Text) (i : Nat) : Prop := quotedAfter false (t.take i) = true ∧ '\'' ∈ t.drop i

instance (t : Text) (i : Nat) : Decidable (InQuotes t i) := inferInstanceAs (Decidable (_ ∧ _))

/-- The texts are equal up to ASCII case, and the same in quotes. -/
structure Recased (t u : Text) : Prop where
  upToCase : foldCase t = foldCase u
  quoted : ∀ i < t.length, InQuotes t i → t[i]? = u[i]?

instance (t u : Text) : Decidable (Recased t u) :=
  decidable_of_iff (foldCase t = foldCase u ∧ ∀ i < t.length, InQuotes t i → t[i]? = u[i]?)
    ⟨fun h => ⟨h.1, h.2⟩, fun h => ⟨h.1, h.2⟩⟩

/-- ASCII letters in lower case, except between quotes; `quoted` tells whether a quote is open
before the text. -/
def foldUnquotedFrom (quoted : Bool) : Text → Text
  | [] => []
  | c :: t =>
    (if quoted = true ∧ '\'' ∈ t then c else c.toLower) ::
      foldUnquotedFrom (quotedBehind quoted c) t

/-- ASCII letters in lower case, except between quotes. -/
def foldUnquoted (t : Text) : Text := foldUnquotedFrom false t

example : foldUnquoted "Len('Ab') + X'Y".toList = "len('Ab') + x'y".toList := by decide

theorem quotedBehind_toLower (quoted : Bool) (c : Char) :
    quotedBehind quoted c.toLower = quotedBehind quoted c := by
  simp only [quotedBehind, toLower_eq_iff (d := '\'') (by decide)]

@[simp] theorem quotedAfter_cons (quoted : Bool) (c : Char) (t : Text) :
    quotedAfter quoted (c :: t) = quotedAfter (quotedBehind quoted c) t := rfl

theorem quotedAfter_append (quoted : Bool) (s t : Text) :
    quotedAfter quoted (s ++ t) = quotedAfter (quotedAfter quoted s) t := by
  simp [quotedAfter]

theorem quotedAfter_of_not_mem {t : Text} (h : '\'' ∉ t) (quoted : Bool) :
    quotedAfter quoted t = quoted := by
  induction t generalizing quoted with
  | nil => rfl
  | cons c t ih =>
    obtain ⟨hc, ht⟩ : '\'' ≠ c ∧ '\'' ∉ t := by simpa using h
    rw [quotedAfter_cons, ih ht, quotedBehind, if_neg hc.symm]

/-- Where parentheses are counted, quotes open and close as they do here. -/
theorem quotedAfter_of_after {n m : Nesting} {t : Text} (h : n.after t = some m) :
    quotedAfter n.quoted t = m.quoted := by
  induction t generalizing n with
  | nil =>
    cases h
    rfl
  | cons c t ih =>
    rw [Nesting.after_cons, Option.bind_eq_some_iff] at h
    obtain ⟨k, hk, ht⟩ := h
    have hquoted : k.quoted = quotedBehind n.quoted c := by
      unfold Nesting.step at hk
      unfold quotedBehind
      repeat' split at hk
      all_goals cases hk
      all_goals simp_all
    rw [quotedAfter_cons, ← hquoted]
    exact ih ht

theorem Balanced.quotedAfter_eq {t : Text} (h : Balanced t) : quotedAfter false t = false :=
  quotedAfter_of_after h

/-! ## Lowering the letters outside quotes -/

@[simp] theorem foldUnquoted_nil : foldUnquoted [] = [] := rfl

@[simp] theorem foldUnquoted_cons (c : Char) (t : Text) :
    foldUnquoted (c :: t) = c.toLower :: foldUnquotedFrom (quotedBehind false c) t := by
  simp [foldUnquoted, foldUnquotedFrom]

theorem foldCase_foldUnquotedFrom (quoted : Bool) (t : Text) :
    foldCase (foldUnquotedFrom quoted t) = foldCase t := by
  induction t generalizing quoted with
  | nil => rfl
  | cons c t ih =>
    rw [foldUnquotedFrom, foldCase_cons, foldCase_cons, ih]
    split
    · rfl
    · rw [toLower_toLower]

@[simp] theorem foldCase_foldUnquoted (t : Text) : foldCase (foldUnquoted t) = foldCase t :=
  foldCase_foldUnquotedFrom false t

theorem map_foldCase_foldUnquoted (ts : List Text) :
    (ts.map foldUnquoted).map foldCase = ts.map foldCase := by
  simp

@[simp] theorem length_foldUnquoted (t : Text) : (foldUnquoted t).length = t.length := by
  have h := congrArg List.length (foldCase_foldUnquoted t)
  rwa [length_foldCase, length_foldCase] at h

theorem foldUnquotedFrom_of_not_mem {t : Text} (h : '\'' ∉ t) (quoted : Bool) :
    foldUnquotedFrom quoted t = foldCase t := by
  induction t generalizing quoted with
  | nil => rfl
  | cons c t ih =>
    obtain ⟨-, ht⟩ : '\'' ≠ c ∧ '\'' ∉ t := by simpa using h
    simp [foldUnquotedFrom, ih ht, ht]

/-- Behind a text without an open quote everything starts again. -/
theorem foldUnquotedFrom_append {quoted : Bool} {s : Text} (h : quotedAfter quoted s = false)
    (t : Text) :
    foldUnquotedFrom quoted (s ++ t) = foldUnquotedFrom quoted s ++ foldUnquoted t := by
  induction s generalizing quoted with
  | nil =>
    obtain rfl : quoted = false := h
    rfl
  | cons c s ih =>
    rw [List.cons_append, foldUnquotedFrom, foldUnquotedFrom, ih h, List.cons_append]
    congr 1
    by_cases hc : c = '\''
    · subst hc
      split <;> split <;> rfl
    · -- a quote that is open here is closed further on
      have hclosed : quoted = true → '\'' ∈ s := by
        rintro rfl
        by_contra hs
        rw [quotedAfter_cons, quotedAfter_of_not_mem hs, quotedBehind, if_neg hc] at h
        cases h
      have hmem : (quoted = true ∧ '\'' ∈ s ++ t) ↔ (quoted = true ∧ '\'' ∈ s) := by
        simp only [List.mem_append]
        exact ⟨fun h => ⟨h.1, hclosed h.1⟩, fun h => ⟨h.1, .inl h.2⟩⟩
      simp only [hmem]

theorem foldUnquoted_append {s : Text} (h : quotedAfter false s = false) (t : Text) :
    foldUnquoted (s ++ t) = foldUnquoted s ++ foldUnquoted t :=
  foldUnquotedFrom_append h t

theorem foldUnquoted_append_of_not_mem {s : Text} (h : '\'' ∉ s) (t : Text) :
    foldUnquoted (s ++ t) = foldCase s ++ foldUnquoted t := by
  rw [foldUnquoted_append (quotedAfter_of_not_mem h false)]
  exact congrArg (· ++ _) (foldUnquotedFrom_of_not_mem h false)

/-- What is quoted stays as it is. -/
theorem foldUnquoted_quoted {s : Text} (h : '\'' ∉ s) (t : Text) :
    foldUnquoted ('\'' :: (s ++ '\'' :: t)) = '\'' :: (s ++ '\'' :: foldUnquoted t) := by
  have hinside : ∀ s : Text, '\'' ∉ s →
      foldUnquotedFrom true (s ++ '\'' :: t) = s ++ '\'' :: foldUnquoted t := by
    intro s hs
    induction s with
    | nil => simp [foldUnquotedFrom, quotedBehind, foldUnquoted]
    | cons c s ih =>
      obtain ⟨hc, hs⟩ : '\'' ≠ c ∧ '\'' ∉ s := by simpa using hs
      simp [foldUnquotedFrom, quotedBehind, hc.symm, ih hs]
  exact congrArg _ (hinside s h)

theorem foldUnquotedFrom_append_of_not_mem (quoted : Bool) (t : Text) {b : Text} (h : '\'' ∉ b) :
    foldUnquotedFrom quoted (t ++ b) = foldUnquotedFrom quoted t ++ foldCase b := by
  induction t generalizing quoted with
  | nil => exact foldUnquotedFrom_of_not_mem h quoted
  | cons c t ih => simp [foldUnquotedFrom, ih, h]

theorem not_mem_of_blanks {a : Text} (h : ∀ c ∈ a, isBlank c = true) : '\'' ∉ a :=
  fun hq => absurd (h _ hq) (by decide)

theorem trim_foldUnquoted (t : Text) : trim (foldUnquoted t) = foldUnquoted (trim t) := by
  obtain ⟨a, b, hab, ha, hb⟩ := exists_trim t
  have hfold : foldUnquoted t = foldCase a ++ (foldUnquoted (trim t) ++ foldCase b) := by
    conv_lhs => rw [hab, List.append_assoc, foldUnquoted_append_of_not_mem (not_mem_of_blanks ha)]
    exact congrArg _ (foldUnquotedFrom_append_of_not_mem false _ (not_mem_of_blanks hb))
  rw [hfold, trim_blanks_append ((forall_mem_foldCase isBlank_toLower).mpr ha),
    trim_append_blanks ((forall_mem_foldCase isBlank_toLower).mpr hb)]
  by_cases he : trim t = []
  · rw [he]
    rfl
  · have htight := tight_foldCase_iff.mpr (tight_trim he)
    rw [← foldCase_foldUnquoted] at htight
    exact (tight_foldCase_iff.mp htight).trim_eq

theorem foldUnquotedFrom_filter {p : Char → Bool} (hp : ∀ c, p c.toLower = p c)
    (hquote : p '\'' = true) (quoted : Bool) (t : Text) :
    foldUnquotedFrom quoted (t.filter p) = (foldUnquotedFrom quoted t).filter p := by
  induction t generalizing quoted with
  | nil => rfl
  | cons c t ih =>
    have hmem : '\'' ∈ t.filter p ↔ '\'' ∈ t := by simp [hquote]
    have hhead : ∀ q : Prop, [Decidable q] → p (if q then c else c.toLower) = p c := by
      intro q _
      split
      · rfl
      · exact hp c
    rw [foldUnquotedFrom, List.filter_cons, List.filter_cons, hhead]
    split
    · rw [foldUnquotedFrom, ih]
      simp only [hmem]
    · rename_i hc
      have hne : c ≠ '\'' := by
        rintro rfl
        exact hc hquote
      rw [ih, quotedBehind, if_neg hne]

theorem normalize_foldUnquoted (t : Text) :
    normalize (foldUnquoted t) = foldUnquoted (normalize t) := by
  have hp : ∀ c : Char, (c.toLower != '\r' && c.toLower != '\n') = (c != '\r' && c != '\n') :=
    apply_toLower (f := fun c => c != '\r' && c != '\n') (by decide)
  rw [normalize, normalize, trim_foldUnquoted]
  exact (foldUnquotedFrom_filter hp (by decide) false _).symm

/-! ## One form for all texts that are written alike -/

/-- Texts that are written alike up to case, and as they are in quotes, have the same form. -/
theorem Recased.foldUnquoted_eq {t u : Text} (h : Recased t u) :
    foldUnquoted t = foldUnquoted u := by
  have hfrom : ∀ (t u : Text) (quoted : Bool), foldCase t = foldCase u →
      (∀ i < t.length, quotedAfter quoted (t.take i) = true → '\'' ∈ t.drop i → t[i]? = u[i]?) →
      foldUnquotedFrom quoted t = foldUnquotedFrom quoted u := by
    intro t
    induction t with
    | nil =>
      intro u quoted hcase _
      obtain rfl : u = [] := by simpa [foldCase] using hcase.symm
      rfl
    | cons c t ih =>
      intro u quoted hcase hquoted
      cases u with
      | nil => cases hcase
      | cons d u =>
        obtain ⟨hcd, htu⟩ := List.cons.inj hcase
        have hbehind : quotedBehind quoted c = quotedBehind quoted d := by
          rw [← quotedBehind_toLower, hcd, quotedBehind_toLower]
        have hrest := ih u (quotedBehind quoted c) htu fun i hlt hi hmem => by
          have hnext := hquoted (i + 1) (Nat.succ_lt_succ hlt)
          rw [List.take_succ_cons, quotedAfter_cons, List.drop_succ_cons] at hnext
          simpa using hnext hi hmem
        rw [foldUnquotedFrom, foldUnquotedFrom, hrest, hbehind]
        congr 1
        have hmem : '\'' ∈ t ↔ '\'' ∈ u := mem_congr (by decide) htu
        simp only [hmem]
        split
        · rename_i hin
          have hhere := hquoted 0 (Nat.succ_pos _) hin.1 (List.mem_cons_of_mem _ (hmem.mpr hin.2))
          simpa using hhere
        · exact hcd
  exact hfrom t u false h.upToCase fun i hlt hi hmem => h.quoted i hlt ⟨hi, hmem⟩

end Text

end FormulaEngine
