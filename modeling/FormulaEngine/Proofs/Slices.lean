import FormulaEngine.Proofs.Dates

/-! # Slices of a text

Three functions cut pieces from a text by counted characters, and one finds where another text
begins. The pieces on both sides of a place are the text again; a middle piece is the beginning of
an end; and what is found stands between the pieces before and behind it. Numbers are rounded to
counts, which reach from nothing to all of the text. -/

namespace FormulaEngine

open Binary64

/-! ## Searching -/

namespace Text

/-- A text begins at an offset of another one, and at no smaller offset. -/
structure FirstAt (needle : Text) (k : ℕ) (t : Text) : Prop where
  le_length : k ≤ t.length
  here : needle <+: t.drop k
  not_before : ∀ i < k, ¬ needle <+: t.drop i

theorem isInfix_iff_exists_drop {needle t : Text} : needle <:+: t ↔ ∃ k, needle <+: t.drop k := by
  constructor
  · rintro ⟨before, behind, rfl⟩
    refine ⟨before.length, behind, ?_⟩
    rw [List.append_assoc, List.drop_left]
  · rintro ⟨k, h⟩
    exact h.isInfix.trans (List.drop_suffix k t).isInfix

theorem FirstAt.isInfix {needle t : Text} {k : ℕ} (h : FirstAt needle k t) : needle <:+: t :=
  isInfix_iff_exists_drop.mpr ⟨k, h.here⟩

/-- What stands before, what is looked for and what stands behind it make up the text. -/
theorem FirstAt.split {needle t : Text} {k : ℕ} (h : FirstAt needle k t) :
    t.take k ++ needle ++ t.drop (k + needle.length) = t := by
  obtain ⟨behind, hbehind⟩ := h.here
  rw [← List.drop_drop, ← hbehind, List.drop_left, List.append_assoc, hbehind,
    List.take_append_drop]

theorem FirstAt.length_le {needle t : Text} {k : ℕ} (h : FirstAt needle k t) :
    k + needle.length ≤ t.length := by
  have hle := h.here.length_le
  have hk := h.le_length
  rw [List.length_drop] at hle
  omega

/-- The search finds the first offset, or there is none. -/
theorem findFrom_spec (needle : Text) (skipped : ℕ) (t : Text) :
    (∃ k, findFrom needle skipped t = some (skipped + k) ∧ FirstAt needle k t) ∨
      findFrom needle skipped t = none ∧ ¬ needle <:+: t := by
  induction t generalizing skipped with
  | nil =>
    unfold findFrom
    split
    · rename_i hempty
      obtain rfl := List.isEmpty_iff.mp hempty
      exact .inl ⟨0, rfl, le_rfl, List.prefix_rfl, fun i hi => absurd hi (Nat.not_lt_zero i)⟩
    · rename_i hne
      refine .inr ⟨rfl, fun h => hne (List.isEmpty_iff.mpr (List.infix_nil.mp h))⟩
  | cons c t ih =>
    unfold findFrom
    by_cases hprefix : needle <+: c :: t
    · rw [if_pos (List.isPrefixOf_iff_prefix.mpr hprefix)]
      exact .inl ⟨0, rfl, Nat.zero_le _, hprefix, fun i hi => absurd hi (Nat.not_lt_zero i)⟩
    · rw [if_neg fun h => hprefix (List.isPrefixOf_iff_prefix.mp h)]
      rcases ih (skipped + 1) with ⟨k, hk, hfirst⟩ | ⟨hnone, hinfix⟩
      · refine .inl ⟨k + 1, by rw [hk, Nat.add_assoc, Nat.add_comm 1], ?_, hfirst.here, ?_⟩
        · exact Nat.succ_le_succ hfirst.le_length
        · intro i hi
          cases i with
          | zero => exact hprefix
          | succ i => exact hfirst.not_before i (Nat.lt_of_succ_lt_succ hi)
      · refine .inr ⟨hnone, fun h => ?_⟩
        rcases List.infix_cons_iff.mp h with h | h
        · exact hprefix h
        · exact hinfix h

end Text

/-- What the position says is the first offset, or -1 if there is none. -/
theorem positionValue_spec (needle t : Text) :
    (∃ k, positionValue needle t = Float.ofNat k ∧ Text.FirstAt needle k t) ∨
      positionValue needle t = -1 ∧ ¬ needle <:+: t := by
  unfold positionValue Text.find?
  rcases Text.findFrom_spec needle 0 t with ⟨k, hk, hfirst⟩ | ⟨hnone, hinfix⟩
  · rw [hk, Nat.zero_add]
    exact .inl ⟨k, rfl, hfirst⟩
  · rw [hnone]
    exact .inr ⟨rfl, hinfix⟩

/-! ## Counts -/

theorem ofNat_ne_neg_one (k : ℕ) : Float.ofNat k ≠ -1 := by
  intro h
  have hrounded := isRounded_ofNat k
  have hone : value? (-1) = some (-((1 : ℕ) : ℚ)) := value?_neg (value?_ofNat (by norm_num))
  rw [h, IsRounded] at hrounded
  split at hrounded
  · have hnonneg : 0 ≤ nearest (k : ℚ) := nearest_nonneg (Nat.cast_nonneg k)
    rw [hone, Option.some.injEq] at hrounded
    rw [← hrounded] at hnonneg
    norm_num at hnonneg
  · rw [value?, hrounded] at hone
    cases hone

/-- The count that a number asks for in a text of so many characters: rounded, and kept between none
and all of them. -/
def countIn (size : ℕ) (v : Float) : ℕ := min (nearestCount v) size

/-- How many characters a place that is counted from 1 leaves out of a text of so many. -/
def skippedIn (size : ℕ) (v : Float) : ℕ := min (max (nearestInt64 v) 1 - 1).toNat size

section

variable {t : Text} {v w : Float}

theorem countIn_of_nearest {size j : ℕ} (hj : j ≤ size) (hv : nearestInt64 v = j) :
    countIn size v = j := by
  rw [countIn, nearestCount, hv, Int.toNat_natCast, min_eq_left hj]

theorem left_nearestCount : Text.left t (nearestCount v) = t.take (countIn t.length v) := by
  rw [Text.left, countIn, ← List.take_take, List.take_length]

theorem right_nearestCount :
    Text.right t (nearestCount v) = t.drop (t.length - countIn t.length v) := by
  rw [Text.right, countIn]
  congr 1
  omega

theorem middle_nearest : Text.middle t (nearestInt64 v - 1).toNat (nearestCount w) =
    (t.drop (skippedIn t.length v)).take (nearestCount w) := by
  have hstart : (max (nearestInt64 v) 1 - 1).toNat = (nearestInt64 v - 1).toNat := by omega
  rw [Text.middle, skippedIn, hstart]
  congr 1
  rcases le_total (nearestInt64 v - 1).toNat t.length with h | h
  · rw [min_eq_left h]
  · rw [min_eq_right h, List.drop_length, List.drop_of_length_le h]

/-- As many characters as the whole text has are never too few. -/
theorem take_all (hv : nearestInt64 v = t.length) {k : ℕ} :
    (t.drop k).take (nearestCount v) = t.drop k :=
  List.take_of_length_le (by simp [nearestCount, hv])

end

/-! ## Functions -/

namespace Intrinsic

theorem calls_len : Calls "len".toList (.one length) := ⟨by decide, by decide, by rfl⟩

theorem calls_pos : Calls "pos".toList (.two position) := ⟨by decide, by decide, by rfl⟩

theorem calls_left : CallsText "left".toList (.two left) := ⟨by decide, by rfl⟩

theorem calls_right : CallsText "right".toList (.two right) := ⟨by decide, by rfl⟩

theorem calls_substr : CallsText "substr".toList (.three middle) := ⟨by decide, by rfl⟩

end Intrinsic

namespace Surroundings

/-- A text that can be an argument as it is, and has this text as its value there. -/
structure DenotesText (s : Surroundings) (x t : Text) : Prop where
  standalone : x.Standalone
  value : (s.evalText x).result = .ok t

/-- A text that denotes a number which is rounded to this one. -/
def DenotesCount (s : Surroundings) (i : Text) (j : ℤ) : Prop :=
  ∃ v, s.Denotes i v ∧ nearestInt64 v = j

/-- The values of these formulas, one after the other, make up a text. -/
def Compose (s : Surroundings) (formulas : List Text) (t : Text) : Prop :=
  ∃ parts, List.Forall₂ (fun f p => (s.evalText f).result = .ok p) formulas parts ∧
    parts.flatten = t

variable {s : Surroundings} {x y t n i k p q r m : Text} {v w : Float}

/-- A whole number is a count as it is, where the format has room for all of them. -/
theorem denotesCount_ofInt {j : ℤ} (hi : s.Denotes i (Float.ofInt j)) (hj : |j| ≤ 2 ^ 53) :
    s.DenotesCount i j :=
  ⟨_, hi, nearestInt64_ofInt hj⟩

theorem result_len (hx : s.DenotesText x t) :
    (s.evalNumber (Text.call "len".toList [x])).result = .ok (Float.ofNat t.length) := by
  have hvalue : (s.ambient.text x).result = .ok t := hx.value
  exact result_of_calls Intrinsic.calls_len (by simp [hx.standalone]) rfl
    (Run.result_bind_of_ok hvalue _)

theorem result_pos (hy : s.DenotesText y n) (hx : s.DenotesText x t) :
    (s.evalNumber (Text.call "pos".toList [y, x])).result = .ok (positionValue n t) :=
  result_of_two Intrinsic.calls_pos hy.standalone hx.standalone rfl hy.value hx.value

/-- A function that cuts a piece, of so many characters, off a text. -/
theorem denotesText_of_two {name : Text} {f : Context Text → Text → Text → Run Text}
    {cut : Text → Float → Text} (h : Intrinsic.CallsText name (.two f))
    (hf : f s.ambient x i = do return cut (← s.evalText x) (← s.evalNumber i))
    (hx : s.DenotesText x t) (hi : s.Denotes i v) :
    s.DenotesText (Text.call name [x, i]) (cut t v) where
  standalone := .call h.isName (by simp [hx.standalone, hi.standalone])
  value := resultText_of_two h hx.standalone hi.standalone hf hx.value hi.value

theorem denotesText_left (hx : s.DenotesText x t) (hi : s.Denotes i v) :
    s.DenotesText (Text.call "left".toList [x, i]) (t.take (countIn t.length v)) := by
  rw [← left_nearestCount]
  exact denotesText_of_two Intrinsic.calls_left rfl hx hi

theorem denotesText_right (hx : s.DenotesText x t) (hi : s.Denotes i v) :
    s.DenotesText (Text.call "right".toList [x, i]) (t.drop (t.length - countIn t.length v)) := by
  rw [← right_nearestCount]
  exact denotesText_of_two Intrinsic.calls_right rfl hx hi

theorem denotesText_substr (hx : s.DenotesText x t) (hi : s.Denotes i v) (hk : s.Denotes k w) :
    s.DenotesText (Text.call "substr".toList [x, i, k])
      ((t.drop (skippedIn t.length v)).take (nearestCount w)) where
  standalone := .call Intrinsic.calls_substr.isName
    (by simp [hx.standalone, hi.standalone, hk.standalone])
  value := by
    refine resultText_of_calls Intrinsic.calls_substr
      (by simp [hx.standalone, hi.standalone, hk.standalone]) rfl ?_
    rw [Intrinsic.middle, Run.result_bind_of_ok (r := s.ambient.text x) hx.value,
      Run.result_bind_of_ok (r := s.ambient.number i) hi.value,
      Run.result_bind_of_ok (r := s.ambient.number k) hk.value, ← middle_nearest]
    rfl

/-- How pieces of the text `t`, which `x` denotes, fit together. -/
structure SlicesFit (s : Surroundings) (x t : Text) : Prop where
  length : (s.evalNumber (Text.call "len".toList [x])).result = .ok (Float.ofNat t.length)
  /-- The beginning and the end that share the characters. -/
  left_right : ∀ {i k : Text} {j : ℕ}, j ≤ t.length → s.DenotesCount i j →
    s.DenotesCount k (t.length - j : ℕ) →
      s.Compose [Text.call "left".toList [x, i], Text.call "right".toList [x, k]] t
  /-- The beginning and what follows it. -/
  left_substr : ∀ {i m l : Text} {j : ℕ}, j ≤ t.length → s.DenotesCount i j →
    s.DenotesCount m (j + 1) → s.DenotesCount l t.length →
      s.Compose [Text.call "left".toList [x, i], Text.call "substr".toList [x, m, l]] t
  /-- Any middle piece is the beginning of an end. -/
  substr_eq : ∀ {p q r : Text} {v w : Float}, s.Denotes p v → s.Denotes q w →
    s.DenotesCount r (t.length - min (max (nearestInt64 v) 1 - 1) t.length) →
      ∃ u, (s.evalText (Text.call "substr".toList [x, p, q])).result = .ok u ∧
        (s.evalText (Text.call "left".toList [Text.call "right".toList [x, r], q])).result = .ok u
  /-- Counts beyond none and all of the characters ask for none and all. -/
  clamped : ∀ {i k : Text} {v w : Float}, s.Denotes i v → s.Denotes k w →
    max 0 (min (nearestInt64 v) t.length) = max 0 (min (nearestInt64 w) t.length) →
      ∀ name ∈ ["left".toList, "right".toList],
        ∃ u, (s.evalText (Text.call name [x, i])).result = .ok u ∧
          (s.evalText (Text.call name [x, k])).result = .ok u

theorem slicesFit (hx : s.DenotesText x t) : s.SlicesFit x t where
  length := result_len hx
  left_right := by
    rintro i k j hj ⟨v, hi, hv⟩ ⟨w, hk, hw⟩
    refine ⟨_, .cons (denotesText_left hx hi).value
      (.cons (denotesText_right hx hk).value .nil), ?_⟩
    rw [countIn_of_nearest hj hv, countIn_of_nearest (Nat.sub_le _ _) hw, Nat.sub_sub_self hj]
    simp
  left_substr := by
    rintro i m l j hj ⟨v, hi, hv⟩ ⟨w, hm, hw⟩ ⟨z, hl, hz⟩
    refine ⟨_, .cons (denotesText_left hx hi).value
      (.cons (denotesText_substr hx hm hl).value .nil), ?_⟩
    have hskipped : skippedIn t.length w = j := by
      rw [skippedIn, hw]
      omega
    rw [countIn_of_nearest hj hv, hskipped, take_all hz]
    simp
  substr_eq := by
    rintro p q r v w hp hq ⟨z, hr, hz⟩
    have hright := denotesText_right hx hr
    have hkept : t.length - countIn t.length z = skippedIn t.length v := by
      rw [countIn, skippedIn, nearestCount, hz]
      omega
    refine ⟨_, (denotesText_substr hx hp hq).value, ?_⟩
    rw [hkept] at hright
    rw [(denotesText_left hright hq).value, ← left_nearestCount]
    rfl
  clamped := by
    intro i k v w hi hk h name hname
    have hcount : countIn t.length v = countIn t.length w := by
      rw [countIn, countIn, nearestCount, nearestCount]
      omega
    simp only [List.mem_cons, List.not_mem_nil, or_false] at hname
    rcases hname with rfl | rfl
    · exact ⟨_, (denotesText_left hx hi).value, hcount ▸ (denotesText_left hx hk).value⟩
    · exact ⟨_, (denotesText_right hx hi).value, hcount ▸ (denotesText_right hx hk).value⟩

/-- What the position of `n`, which `y` denotes, in the text `t` of `x` means. -/
structure FindsAt (s : Surroundings) (y n x t : Text) (j : ℕ) : Prop where
  position : (s.evalNumber (Text.call "pos".toList [y, x])).result = .ok (Float.ofNat j)
  /-- In a text that is not enormous the position is a count as it is. -/
  denotesCount : t.length ≤ 2 ^ 53 → s.DenotesCount (Text.call "pos".toList [y, x]) j
  /-- What is found stands between the pieces before and behind it. -/
  split : ∀ {i m l : Text}, s.DenotesCount i j → s.DenotesCount m (j + n.length + 1) →
    s.DenotesCount l t.length →
      s.Compose [Text.call "left".toList [x, i], y, Text.call "substr".toList [x, m, l]] t
  not_before : ∀ k < j, ¬ n <+: t.drop k

theorem findsAt (hy : s.DenotesText y n) (hx : s.DenotesText x t) {j : ℕ}
    (hj : positionValue n t = Float.ofNat j) (hfirst : Text.FirstAt n j t) :
    s.FindsAt y n x t j where
  position := hj ▸ result_pos hy hx
  denotesCount := by
    intro hsmall
    have hposition : (s.evalNumber (Text.call "pos".toList [y, x])).result =
        .ok (Float.ofNat j) := hj ▸ result_pos hy hx
    refine denotesCount_ofInt ⟨?_, hposition⟩ ?_
    · exact .call Intrinsic.calls_pos.isName (by simp [hx.standalone, hy.standalone])
    · rw [Nat.abs_cast]
      exact_mod_cast hfirst.le_length.trans hsmall
  split := by
    rintro i m l ⟨v, hi, hv⟩ ⟨w, hm, hw⟩ ⟨z, hl, hz⟩
    refine ⟨_, .cons (denotesText_left hx hi).value
      (.cons hy.value (.cons (denotesText_substr hx hm hl).value .nil)), ?_⟩
    have hlength := hfirst.length_le
    have hskipped : skippedIn t.length w = j + n.length := by
      rw [skippedIn, hw]
      omega
    rw [countIn_of_nearest hfirst.le_length hv, hskipped, take_all hz]
    simpa using hfirst.split
  not_before := hfirst.not_before

/-- The position is -1 for a text that does not occur, and else the first place where it does. -/
def FindsFirst (s : Surroundings) (y n x t : Text) : Prop :=
  ∃ p, (s.evalNumber (Text.call "pos".toList [y, x])).result = .ok p ∧
    (p = -1 ↔ ¬ n <:+: t) ∧ (p ≠ -1 → ∃ j, s.FindsAt y n x t j)

theorem findsFirst (hy : s.DenotesText y n) (hx : s.DenotesText x t) : s.FindsFirst y n x t := by
  refine ⟨_, result_pos hy hx, ?_⟩
  rcases positionValue_spec n t with ⟨j, hj, hfirst⟩ | ⟨hnone, hinfix⟩
  · rw [hj]
    exact ⟨iff_of_false (ofNat_ne_neg_one j) (not_not.mpr hfirst.isInfix),
      fun _ => ⟨j, findsAt hy hx hj hfirst⟩⟩
  · rw [hnone]
    exact ⟨iff_of_true rfl hinfix, fun h => absurd rfl h⟩

/-- The functions that cut a text fit together, and with the one that searches it. -/
theorem slices_fit_together (hx : s.DenotesText x t) (hy : s.DenotesText y n) :
    s.SlicesFit x t ∧ s.FindsFirst y n x t :=
  ⟨slicesFit hx, findsFirst hy hx⟩

/-- Two texts of an application, in which the second occurs twice in the first. -/
theorem slices_fit_together_supplied :
    (initial { text := fun name =>
      if name = "s".toList then some "čaj, čaj".toList else some "aj".toList }).SlicesFit
        "s".toList "čaj, čaj".toList ∧
      (initial { text := fun name =>
        if name = "s".toList then some "čaj, čaj".toList else some "aj".toList }).FindsFirst
          "n".toList "aj".toList "s".toList "čaj, čaj".toList :=
  slices_fit_together ⟨.name (by decide), by decide +kernel⟩ ⟨.name (by decide), by decide +kernel⟩

end Surroundings

end FormulaEngine
