import FormulaEngine.Proofs.Calls
import FormulaEngine.Proofs.Comparisons
import FormulaEngine.Text.Order

/-! # The order of texts that puts case last

Texts are ordered by their lower-case forms, and texts with the same form by the first place where
they differ, where a lower-case letter comes first. This order is transitive, finds no texts equal
but equal ones, and agrees with the order that ignores case. It can be turned around, unless neither
of the two characters at that place is a lower-case letter: `K` and the sign for kelvin each come
behind the other. -/

namespace FormulaEngine

/-! ## Lower-case letters -/

/-- No number of an ascending list is a member. `inside` says whether the numbers below the first
boundary are members. -/
def CharSet.misses (inside : Bool) : List ℕ → List ℕ → Bool
  | [], ps => ps.isEmpty || !inside
  | b :: bs, ps =>
    (!inside || (ps.takeWhile (· < b)).isEmpty) && misses (!inside) bs (ps.dropWhile (· < b))

theorem CharSet.misses_sound {inside : Bool} {bs ps : List ℕ} (hps : ps.Pairwise (· < ·))
    (h : misses inside bs ps = true) {p : ℕ} (hp : p ∈ ps) :
    ((bs.takeWhile (· ≤ p)).length % 2 == 1) = inside := by
  induction bs generalizing inside ps with
  | nil =>
    have hne : ps.isEmpty = false := by simpa using List.ne_nil_of_mem hp
    simpa [misses, hne] using h
  | cons b bs ih =>
    obtain ⟨hbelow, habove⟩ := Bool.and_eq_true_iff.mp h
    by_cases hpb : p < b
    · obtain ⟨q, qs, rfl⟩ := List.exists_cons_of_ne_nil (List.ne_nil_of_mem hp)
      have hq : q < b := by
        rcases List.mem_cons.mp hp with rfl | hmem
        · exact hpb
        · exact ((List.pairwise_cons.mp hps).1 p hmem).trans hpb
      have hinside : inside = false := by simpa [hq] using hbelow
      simp [hpb, hinside]
    · have hmem : p ∈ ps.dropWhile (· < b) := by
        rw [← List.takeWhile_append_dropWhile (p := (· < b)) (l := ps)] at hp
        refine (List.mem_append.mp hp).resolve_left fun htake => hpb ?_
        simpa using List.mem_takeWhile_imp htake
      have hrest := ih (hps.sublist (List.dropWhile_suffix _).sublist) habove hmem
      have hle : b ≤ p := not_lt.mp hpb
      rw [List.takeWhile_cons_of_pos (by simpa using hle), List.length_cons]
      generalize (bs.takeWhile (· ≤ p)).length = n at hrest ⊢
      rcases Nat.mod_two_eq_zero_or_one n with hn | hn <;> cases inside <;>
        simp [hn, Nat.add_mod] at hrest ⊢

/-- The code points that move. -/
def CaseShift.points (r : CaseShift) : List ℕ :=
  (List.range ((r.last - r.first) / r.step + 1)).map fun k => r.first + k * r.step

theorem CaseShift.mem_points {r : CaseShift} {n : ℕ} (h : r.covers n = true) : n ∈ r.points := by
  simp only [covers, Bool.and_eq_true, decide_eq_true_eq, beq_iff_eq] at h
  obtain ⟨⟨hfirst, hlast⟩, hstep⟩ := h
  refine List.mem_map.mpr ⟨(n - r.first) / r.step, List.mem_range.mpr ?_, ?_⟩
  · exact Nat.lt_succ_of_le (Nat.div_le_div_right (by omega))
  · have := Nat.div_mul_cancel (Nat.dvd_of_mod_eq_zero hstep)
    omega

/-- No lower-case letter has another lower case. -/
theorem misses_lowerMap : (lowerMap.shifts.flatMap CaseShift.points).Pairwise (· < ·) ∧
    CharSet.misses false lowercaseLetters.boundaries
      (lowerMap.shifts.flatMap CaseShift.points) = true := by
  rw [← List.isChain_iff_pairwise]
  decide +kernel

theorem isLowercase_of_covers {c : Char} {r : CaseShift} (hr : r ∈ lowerMap.shifts)
    (hc : r.covers c.toNat = true) : isLowercase c = false :=
  CharSet.misses_sound misses_lowerMap.1 misses_lowerMap.2
    (List.mem_flatMap.mpr ⟨r, hr, CaseShift.mem_points hc⟩)

theorem lowerOf_of_isLowercase {c : Char} (h : isLowercase c = true) : lowerOf c = [c] := by
  unfold lowerOf
  split
  · have hupper : ¬ c.toNat ≤ 90 := fun hle => by
      have hbelow : c.toNat < 97 := by omega
      have hcapital : isLowercase c = false := CharSet.contains_of_lt hbelow
      exact absurd (h.symm.trans hcapital) (by decide)
    have hlower : c.toLower = c := by
      unfold Char.toLower
      exact dif_neg fun hc => hupper hc.2
    rw [hlower]
  · have hexpand : c.toNat ≠ 304 := fun hc => by
      have hchar : c = 'İ' := Char.toNat_inj.mp hc
      exact absurd (hchar ▸ h) (by decide)
    have hshift : lowerMap.shifts.find? (·.covers c.toNat) = none :=
      List.find?_eq_none.mpr fun r hr hc => by
        simp [isLowercase_of_covers hr hc] at h
    have hlookup : lowerMap.expansions.lookup c.toNat = none :=
      List.lookup_eq_none_iff.mpr fun p hp => by
        obtain rfl := List.mem_singleton.mp hp
        simpa using hexpand
    unfold CaseMap.apply
    rw [hlookup, hshift]

theorem lowerOf_ne_nil (c : Char) : lowerOf c ≠ [] := by
  unfold lowerOf CaseMap.apply
  split
  · exact List.cons_ne_nil _ _
  · split
    · rename_i points hpoints
      obtain ⟨before, after, hmem, -⟩ := List.lookup_eq_some_iff.mp hpoints
      have hentry : (c.toNat, points) ∈ lowerMap.expansions :=
        hmem ▸ List.mem_append_right _ List.mem_cons_self
      obtain ⟨-, rfl⟩ := Prod.mk.inj (List.mem_singleton.mp hentry)
      exact List.cons_ne_nil _ _
    · split <;> exact List.cons_ne_nil _ _

namespace Text

variable {a b c before before' : Text} {x y : Char}

/-! ## Lower-case forms -/

theorem lowerBetween_of_isLowercase (before after : Text) (h : isLowercase x = true) :
    lowerBetween before after x = [x] := by
  have hsigma : x ≠ 'Σ' := by
    rintro rfl
    have hlower : lowerOf 'Σ' = ['σ'] := rfl
    exact absurd (hlower.symm.trans (lowerOf_of_isLowercase h)) (by decide)
  rw [lowerBetween, if_neg hsigma, lowerOf_of_isLowercase h]

theorem lowerBetween_ne_nil (before after : Text) (x : Char) :
    lowerBetween before after x ≠ [] := by
  unfold lowerBetween
  split
  · split <;> exact List.cons_ne_nil _ _
  · exact lowerOf_ne_nil x

/-- How long the lower case of a character is does not depend on its neighbours. -/
theorem length_lowerBetween (before after after' : Text) (x : Char) :
    (lowerBetween before after x).length = (lowerBetween before after' x).length := by
  unfold lowerBetween
  split
  · split <;> split <;> rfl
  · rfl

/-- The lower case of what is left of a text, `before` standing to the left of it. -/
def loweredAfter (before : Text) : Text → Text
  | [] => []
  | c :: rest => lowerBetween before rest c ++ loweredAfter (c :: before) rest

theorem lowercaseFrom_eq (before done t : Text) :
    lowercaseFrom before done t = done.reverse ++ loweredAfter before t := by
  induction t generalizing before done with
  | nil => simp [lowercaseFrom, loweredAfter]
  | cons c t ih => simp [lowercaseFrom, loweredAfter, ih]

theorem lowercase_eq (t : Text) : lowercase t = loweredAfter [] t := lowercaseFrom_eq [] [] t

/-- Only the empty text has an empty lower-case form. -/
theorem eq_nil_of_loweredAfter (h : loweredAfter before a = []) : a = [] := by
  cases a with
  | nil => rfl
  | cons x a => exact absurd (List.append_eq_nil_iff.mp h).1 (lowerBetween_ne_nil _ _ _)

/-- Behind a common beginning the lower-case forms go on alike. -/
theorem loweredAfter_of_cons (h : loweredAfter before (x :: a) = loweredAfter before (x :: b)) :
    loweredAfter (x :: before) a = loweredAfter (x :: before) b :=
  (List.append_inj h (length_lowerBetween before a b x)).2

/-- Different lower-case letters do not begin the same lower-case form. -/
theorem eq_of_isLowercase (h : loweredAfter before (x :: a) = loweredAfter before (y :: b))
    (hx : isLowercase x = true) (hy : isLowercase y = true) : x = y := by
  simp only [loweredAfter, lowerBetween_of_isLowercase _ _ hx,
    lowerBetween_of_isLowercase _ _ hy] at h
  exact (List.cons.inj h).1

/-! ## Where texts differ -/

/-- The characters that two texts have at the first place where these are different. -/
def firstDifference : Text → Text → Option (Char × Char)
  | x :: a, y :: b => if x = y then firstDifference a b else some (x, y)
  | _, _ => none

theorem firstDifference_swap (a b : Text) :
    firstDifference b a = (firstDifference a b).map Prod.swap := by
  induction a generalizing b with
  | nil => cases b <;> rfl
  | cons x a ih =>
    cases b with
    | nil => rfl
    | cons y b =>
      by_cases hxy : x = y
      · simp [firstDifference, hxy, ih]
      · simp [firstDifference, hxy, Ne.symm hxy]

/-- Texts with the same lower-case form are the same, or differ at a place. -/
theorem eq_of_firstDifference (h : loweredAfter before a = loweredAfter before b)
    (hnone : firstDifference a b = none) : a = b := by
  induction a generalizing before b with
  | nil => exact (eq_nil_of_loweredAfter h.symm).symm
  | cons x a ih =>
    cases b with
    | nil => exact eq_nil_of_loweredAfter h
    | cons y b =>
      by_cases hxy : x = y
      · subst hxy
        rw [firstDifference, if_pos rfl] at hnone
        rw [ih (loweredAfter_of_cons h) hnone]
      · simp [firstDifference, hxy] at hnone

/-- Where texts with the same lower-case form differ, only one of them has a lower-case letter. -/
theorem isLowercase_of_firstDifference (h : loweredAfter before a = loweredAfter before b)
    (hdiffer : firstDifference a b = some (x, y)) (hx : isLowercase x = true) :
    isLowercase y = false := by
  induction a generalizing before b with
  | nil => cases b <;> cases hdiffer
  | cons x' a ih =>
    cases b with
    | nil => cases hdiffer
    | cons y' b =>
      by_cases hxy : x' = y'
      · subst hxy
        rw [firstDifference, if_pos rfl] at hdiffer
        exact ih (loweredAfter_of_cons h) hdiffer
      · rw [firstDifference, if_neg hxy] at hdiffer
        obtain ⟨rfl, rfl⟩ := Prod.mk.inj (Option.some.inj hdiffer)
        by_contra hy
        exact hxy (eq_of_isLowercase h hx (by simpa using hy))

/-- The order by case in terms of the first difference. -/
theorem compareCase_eq (h : loweredAfter before a = loweredAfter before b) :
    compareCase a b = match firstDifference a b with
      | none => .eq
      | some (x, _) => if isLowercase x then .lt else .gt := by
  induction a generalizing before b with
  | nil =>
    obtain rfl := eq_nil_of_loweredAfter h.symm
    rfl
  | cons x a ih =>
    cases b with
    | nil => exact absurd (eq_nil_of_loweredAfter h) (List.cons_ne_nil _ _)
    | cons y b =>
      by_cases hxy : x = y
      · subst hxy
        rw [compareCase, firstDifference, if_pos rfl, if_pos rfl]
        exact ih (loweredAfter_of_cons h)
      · rw [compareCase, firstDifference, if_neg hxy, if_neg hxy]

theorem compareCase_trans (h : loweredAfter before a = loweredAfter before b)
    (h' : loweredAfter before b = loweredAfter before c) (hab : compareCase a b ≠ .gt)
    (hbc : compareCase b c ≠ .gt) : compareCase a c ≠ .gt := by
  induction a generalizing before b c with
  | nil =>
    obtain rfl := eq_nil_of_loweredAfter h.symm
    exact hbc
  | cons x a ih =>
    cases b with
    | nil => exact absurd (eq_nil_of_loweredAfter h) (List.cons_ne_nil _ _)
    | cons y b =>
      cases c with
      | nil => exact absurd (eq_nil_of_loweredAfter h') (List.cons_ne_nil _ _)
      | cons z c =>
        by_cases hxy : x = y
        · subst hxy
          by_cases hxz : x = z
          · subst hxz
            simp only [compareCase, if_true] at hab hbc ⊢
            exact ih (loweredAfter_of_cons h) (loweredAfter_of_cons h') hab hbc
          · rw [compareCase, if_neg hxz] at hbc ⊢
            exact hbc
        · rw [compareCase, if_neg hxy] at hab
          have hx : isLowercase x = true := by
            by_contra hx
            simp [hx] at hab
          by_cases hyz : y = z
          · subst hyz
            rw [compareCase, if_neg hxy, if_pos hx]
            decide
          · rw [compareCase, if_neg hyz] at hbc
            have hy : isLowercase y = true := by
              by_contra hy
              simp [hy] at hbc
            exact absurd (eq_of_isLowercase h hx hy) hxy

/-! ## The order by code points -/

theorem compare_eq (a b : Text) :
    compare a b = Ord.compare (a.map Char.toNat) (b.map Char.toNat) := by
  induction a generalizing b with
  | nil => cases b <;> rfl
  | cons x a ih =>
    cases b with
    | nil => rfl
    | cons y b =>
      rw [compare, ih, List.map_cons, List.map_cons]
      exact List.compareLex_cons_cons.symm

/-- The order by code points is the order of the characters in lists. -/
theorem compare_eq_lt_iff : compare a b = .lt ↔ a < b := by
  induction a generalizing b with
  | nil => cases b <;> simp [compare]
  | cons x a ih =>
    cases b with
    | nil => simp [compare]
    | cons y b =>
      have hchar : x < y ↔ x.toNat < y.toNat := Iff.rfl
      rw [compare, Ordering.then_eq_lt, ih, List.cons_lt_cons_iff, compare_lt_iff_lt,
        compare_eq_iff_eq, Char.toNat_inj, hchar]

theorem compare_eq_gt_iff : compare a b = .gt ↔ b < a := by
  rw [← compare_eq_lt_iff, compare_eq, compare_eq]
  exact Std.OrientedCmp.gt_iff_lt

theorem compareIgnoringCase_swap (a b : Text) :
    compareIgnoringCase b a = (compareIgnoringCase a b).swap := by
  simp only [compareIgnoringCase, compare_eq]
  exact Std.OrientedCmp.eq_swap

theorem compareIgnoringCase_eq_iff :
    compareIgnoringCase a b = .eq ↔ loweredAfter [] a = loweredAfter [] b := by
  have hinjective : Function.Injective (List.map Char.toNat) :=
    List.map_injective_iff.mpr fun _ _ => Char.toNat_inj.mp
  rw [compareIgnoringCase, compare_eq, Std.LawfulEqCmp.compare_eq_iff_eq, hinjective.eq_iff,
    lowercase_eq, lowercase_eq]

theorem compareIgnoringCase_trans (hab : compareIgnoringCase a b ≠ .gt)
    (hbc : compareIgnoringCase b c ≠ .gt) : compareIgnoringCase a c ≠ .gt := by
  simp only [compareIgnoringCase, compare_eq, ← Ordering.isLE_iff_ne_gt] at *
  exact Std.TransCmp.isLE_trans hab hbc

/-- What lies between texts that are the same up to case is the same up to case. -/
theorem compareIgnoringCase_eq_of_between (hab : compareIgnoringCase a b ≠ .gt)
    (hbc : compareIgnoringCase b c ≠ .gt) (hac : compareIgnoringCase a c = .eq) :
    compareIgnoringCase a b = .eq ∧ compareIgnoringCase b c = .eq := by
  have hca : compareIgnoringCase c a ≠ .gt := by
    rw [compareIgnoringCase_swap, hac]
    decide
  have hba := compareIgnoringCase_trans hbc hca
  have hcb := compareIgnoringCase_trans hca hab
  rw [compareIgnoringCase_swap] at hba hcb
  exact ⟨by cases h : compareIgnoringCase a b <;> simp_all,
    by cases h : compareIgnoringCase b c <;> simp_all⟩

/-! ## Case last -/

/-- The texts differ by case only, and at the first place where they do neither of them has a
lower-case letter. -/
def Unranked (a b : Text) : Prop :=
  compareIgnoringCase a b = .eq ∧
    ∃ x y, firstDifference a b = some (x, y) ∧ isLowercase x = false ∧ isLowercase y = false

theorem compareCaseLast_of_eq (h : compareIgnoringCase a b = .eq) :
    compareCaseLast a b = compareCase a b := by
  rw [compareCaseLast, h]
  rfl

theorem compareCaseLast_eq_iff : compareCaseLast a b = .eq ↔ a = b := by
  refine ⟨fun h => ?_, ?_⟩
  · have hlower : compareIgnoringCase a b = .eq := by
      by_contra hne
      exact hne ((compareCaseLast_of_ne hne).symm.trans h)
    rw [compareCaseLast_of_eq hlower, compareCase_eq (compareIgnoringCase_eq_iff.mp hlower)] at h
    refine eq_of_firstDifference (compareIgnoringCase_eq_iff.mp hlower) ?_
    cases hdiffer : firstDifference a b with
    | none => rfl
    | some p =>
      rw [hdiffer] at h
      dsimp only at h
      split at h <;> cases h
  · rintro rfl
    rw [compareCaseLast_of_eq (compareIgnoringCase_eq_iff.mpr rfl), compareCase_self]

theorem compareCaseLast_swap_iff :
    compareCaseLast b a = (compareCaseLast a b).swap ↔ ¬ Unranked a b := by
  by_cases hlower : compareIgnoringCase a b = .eq
  · have hswap : compareIgnoringCase b a = .eq := by rw [compareIgnoringCase_swap, hlower]; rfl
    have hform := compareIgnoringCase_eq_iff.mp hlower
    rw [compareCaseLast_of_eq hlower, compareCaseLast_of_eq hswap, compareCase_eq hform,
      compareCase_eq hform.symm, firstDifference_swap a b, Unranked]
    cases hdiffer : firstDifference a b with
    | none => simp
    | some p =>
      obtain ⟨x, y⟩ := p
      have hboth := isLowercase_of_firstDifference hform hdiffer
      cases hx : isLowercase x <;> cases hy : isLowercase y <;> simp_all
  · have hswap : compareIgnoringCase b a ≠ .eq := by
      rwa [compareIgnoringCase_swap, ne_eq, Ordering.swap_eq_eq]
    rw [compareCaseLast_of_ne hlower, compareCaseLast_of_ne hswap]
    exact iff_of_true (compareIgnoringCase_swap a b) fun h => hlower h.1

theorem ne_gt_iff : compareCaseLast a b ≠ .gt ↔ compareIgnoringCase a b ≠ .gt ∧
    (compareIgnoringCase a b = .eq → compareCase a b ≠ .gt) := by
  rw [compareCaseLast]
  cases compareIgnoringCase a b <;> simp [Ordering.then]

theorem compareCaseLast_trans (hab : compareCaseLast a b ≠ .gt) (hbc : compareCaseLast b c ≠ .gt) :
    compareCaseLast a c ≠ .gt := by
  obtain ⟨hab, hab'⟩ := ne_gt_iff.mp hab
  obtain ⟨hbc, hbc'⟩ := ne_gt_iff.mp hbc
  refine ne_gt_iff.mpr ⟨compareIgnoringCase_trans hab hbc, fun hac => ?_⟩
  obtain ⟨hab, hbc⟩ := compareIgnoringCase_eq_of_between hab hbc hac
  exact compareCase_trans (compareIgnoringCase_eq_iff.mp hab) (compareIgnoringCase_eq_iff.mp hbc)
    (hab' ‹_›) (hbc' ‹_›)

end Text

/-! ## Formulas -/

theorem orderValue_eq_zero {o : Ordering} : orderValue o = 0 ↔ o = .eq := by
  cases o <;> decide

namespace Intrinsic

theorem calls_compare : Calls "compare".toList (.two same) :=
  ⟨by decide, by decide, by rfl⟩

theorem calls_comparestr : Calls "comparestr".toList (.two compareCaseLast) :=
  ⟨by decide, by decide, by rfl⟩

end Intrinsic

namespace Text

/-- The order of texts that puts case last finds only equal texts equal, just as formulas do that
compare them; it is turned around with its operands unless these are unranked; it is transitive; and
it agrees with the order without case wherever that finds a difference. -/
theorem compareCaseLast_laws (a b c : Text) :
    (compareCaseLast a b = .eq ↔ a = b) ∧
    (∀ (s : Surroundings) {t u : Text}, t.Standalone → u.Standalone →
      (s.evalText t).result = .ok a → (s.evalText u).result = .ok b →
      ((s.evalNumber (call "comparestr".toList [t, u])).result = .ok 0 ↔
        (s.evalNumber (call "compare".toList [t, u])).result = .ok 1)) ∧
    (compareCaseLast b a = (compareCaseLast a b).swap ↔ ¬ Unranked a b) ∧
    (compareCaseLast a b ≠ .gt → compareCaseLast b c ≠ .gt → compareCaseLast a c ≠ .gt) ∧
    (compareIgnoringCase a b ≠ .eq → compareCaseLast a b = compareIgnoringCase a b) := by
  refine ⟨compareCaseLast_eq_iff, fun s t u ht hu ha hb => ?_, compareCaseLast_swap_iff,
    compareCaseLast_trans, compareCaseLast_of_ne⟩
  rw [Surroundings.result_of_two Intrinsic.calls_compare ht hu rfl ha hb,
    Surroundings.result_of_two Intrinsic.calls_comparestr ht hu rfl ha hb, Except.ok.injEq, Except.ok.injEq, orderValue_eq_zero, truthValue_eq_one,
    compareCaseLast_eq_iff, beq_iff_eq]

/-- A lower-case letter, its title case, and a longer text; and two literals in a formula. -/
theorem compareCaseLast_laws_title_case :
    compareCaseLast ['ǆ'] ['ǆ', 'ß'] ≠ .gt ∧
    compareCaseLast ['ǅ'] ['ẞ'] = compareIgnoringCase ['ǅ'] ['ẞ'] ∧
    (((Surroundings.initial {}).evalNumber
        (call "comparestr".toList ["'ǅ'".toList, "'ǆ'".toList])).result = .ok 0 ↔
      ((Surroundings.initial {}).evalNumber
        (call "compare".toList ["'ǅ'".toList, "'ǆ'".toList])).result = .ok 1) := by
  have htitle : Standalone "'ǅ'".toList := .quoted (t := ['ǅ']) (by decide) (by decide)
  have hlower : Standalone "'ǆ'".toList := .quoted (t := ['ǆ']) (by decide) (by decide)
  refine ⟨?_, ?_, ?_⟩
  · exact (compareCaseLast_laws ['ǆ'] ['ǅ'] ['ǆ', 'ß']).2.2.2.1 (by decide +kernel)
      (by decide +kernel)
  · exact (compareCaseLast_laws ['ǅ'] ['ẞ'] []).2.2.2.2 (by decide +kernel)
  · exact (compareCaseLast_laws ['ǅ'] ['ǆ'] []).2.1 _ htitle hlower (by decide +kernel)
      (by decide +kernel)

/-- A capital letter and the sign for kelvin, each of which comes behind the other. -/
theorem exists_not_swap : ¬ ∀ a b : Text, compareCaseLast b a = (compareCaseLast a b).swap := by
  intro h
  have hbehind : compareCaseLast ['K'] ['\u212a'] = .gt ∧
      compareCaseLast ['\u212a'] ['K'] = .gt := by
    decide +kernel
  have hswap := h ['K'] ['\u212a']
  rw [hbehind.1, hbehind.2] at hswap
  cases hswap

end Text

end FormulaEngine
