import FormulaEngine.Proofs.Splitting
import Mathlib.Algebra.Group.Nat.Even
import Mathlib.Tactic.Ring.RingNF

/-! # Depth by counting

Where a place of a text lies can be found by counting in front of it. Behind an odd number of single
quotes it lies in quotes, and its depth is the number of parentheses opened outside quotes, less the
number of those closed. A text is balanced when its quotes are even in number, its depth is zero at
the end and negative nowhere, and it is one argument when, besides, it has no comma outside quotes
at depth zero. -/

namespace FormulaEngine.Text

/-- The characters outside single quotes, without the quotes; `quoted` tells whether a quote is open
before the text. -/
def unquotedFrom (quoted : Bool) : Text → Text
  | [] => []
  | c :: t =>
    if c = '\'' then unquotedFrom (!quoted) t
    else if quoted then unquotedFrom quoted t
    else c :: unquotedFrom quoted t

/-- The characters outside single quotes. -/
def unquoted (t : Text) : Text := unquotedFrom false t

/-- How many parentheses are opened outside quotes, less how many are closed there. -/
def depth (t : Text) : Int := (unquoted t).count '(' - (unquoted t).count ')'

example : depth "f(')', (a".toList = 2 := by decide

theorem unquotedFrom_concat (quoted : Bool) (t : Text) (c : Char) :
    unquotedFrom quoted (t ++ [c]) =
      unquotedFrom quoted t ++
        if c = '\'' ∨ Odd (t.count '\'' + quoted.toNat) then [] else [c] := by
  induction t generalizing quoted with
  | nil =>
    cases quoted <;> by_cases hc : c = '\'' <;> simp [unquotedFrom, hc]
  | cons d t ih =>
    by_cases hd : d = '\''
    · -- the quote changes on which side of it `c` lies
      have hparity : Odd ((d :: t).count '\'' + quoted.toNat) ↔
          Odd (t.count '\'' + (!quoted).toNat) := by
        cases quoted <;> simp [hd, Nat.odd_add_one]
      simp only [List.cons_append, unquotedFrom, if_pos hd, ih, hparity]
    · have hcount : (d :: t).count '\'' = t.count '\'' := List.count_cons_of_ne hd
      rw [List.cons_append, unquotedFrom, if_neg hd, unquotedFrom, if_neg hd, ih, hcount]
      split <;> rfl

theorem unquoted_concat (t : Text) (c : Char) :
    unquoted (t ++ [c]) =
      unquoted t ++ if c = '\'' ∨ Odd (t.count '\'') then [] else [c] :=
  unquotedFrom_concat false t c

@[simp] theorem depth_nil : depth [] = 0 := rfl

theorem depth_concat (t : Text) (c : Char) :
    depth (t ++ [c]) =
      depth t +
        if c = '\'' ∨ Odd (t.count '\'') then 0 else if c = '(' then 1 else if c = ')' then -1
        else 0 := by
  have hsplit : ∀ s : Text, depth (t ++ [c]) =
      ((unquoted t ++ s).count '(' : Int) - (unquoted t ++ s).count ')' →
      depth (t ++ [c]) = depth t + (s.count '(' - s.count ')') := by
    intro s hs
    rw [hs, List.count_append, List.count_append, depth]
    push_cast
    ring
  rw [hsplit _ (by rw [depth, unquoted_concat])]
  congr 1
  split
  · rfl
  · rename_i hc
    by_cases ho : c = '('
    · subst ho
      rfl
    · by_cases hclose : c = ')'
      · subst hclose
        rfl
      · simp [ho, hclose]

theorem count_quote_concat (t : Text) (c : Char) :
    (t ++ [c]).count '\'' = t.count '\'' + if c = '\'' then 1 else 0 := by
  by_cases hc : c = '\'' <;> simp [hc]

end FormulaEngine.Text

namespace FormulaEngine

open Nesting (outside)

/-! ## Counting as the scanners count -/

namespace Nesting

/-- Where no more parentheses are closed than opened, a scanner is at the depth that is counted. -/
theorem after_eq_of_depth_nonneg {t : Text} (h : ∀ u : Text, u <+: t → 0 ≤ u.depth) :
    outside.after t = some ⟨t.depth.toNat, decide (Odd (t.count '\''))⟩ := by
  induction t using List.reverseRecOn with
  | nil => simp [outside]
  | append_singleton t c ih =>
    have hbefore := ih fun u hu => h u (hu.trans (List.prefix_append _ _))
    have ht := h t (List.prefix_append _ _)
    have hlast := h (t ++ [c]) List.prefix_rfl
    rw [Text.depth_concat] at hlast ⊢
    rw [after_append, hbefore, Option.bind_some, after_cons, Text.count_quote_concat]
    by_cases hq : c = '\''
    · simp [step, hq, Nat.odd_add_one, -Nat.not_odd_iff_even]
    · by_cases hodd : Odd (t.count '\'')
      · simp [step, hq, hodd]
      · simp only [hq, hodd, or_self, if_false] at hlast
        simp only [step, hq, hodd, decide_false, Bool.false_eq_true, if_false, or_self, add_zero]
        by_cases ho : c = '('
        · simp only [ho, if_true, Option.bind_some, after_nil]
          congr 2
          omega
        · by_cases hc : c = ')'
          · subst hc
            simp only [Char.reduceEq, if_false, if_true] at hlast ⊢
            rw [if_neg (by omega)]
            simp only [Option.bind_some, after_nil]
            congr 2
            omega
          · simp [ho, hc]

theorem depth_nonneg_of_after {t : Text} {n : Nesting} (h : outside.after t = some n) {u : Text}
    (hu : u <+: t) : 0 ≤ u.depth := by
  induction t using List.reverseRecOn generalizing n u with
  | nil =>
    rw [List.prefix_nil.mp hu]
    rfl
  | append_singleton t c ih =>
    rw [after_append, Option.bind_eq_some_iff] at h
    obtain ⟨k, hk, hc⟩ := h
    have hbefore : ∀ v : Text, v <+: t → 0 ≤ v.depth := fun v hv => ih hk hv
    rcases List.prefix_concat_iff.mp hu with rfl | hu
    · have ht := hbefore t List.prefix_rfl
      rw [after_eq_of_depth_nonneg hbefore] at hk
      cases hk
      rw [Text.depth_concat]
      split
      · omega
      · rename_i hout
        -- only a parenthesis that was opened is closed
        split
        · omega
        · split
          · rename_i ho hclose
            simp only [not_or] at hout
            simp [step, hclose, hout.2] at hc
            omega
          · omega
    · exact hbefore u hu

theorem after_eq_some_iff {t : Text} {n : Nesting} :
    outside.after t = some n ↔ (∀ u : Text, u <+: t → 0 ≤ u.depth) ∧
      t.depth = n.depth ∧ (n.quoted = true ↔ Odd (t.count '\'')) := by
  obtain ⟨d, quoted⟩ := n
  constructor
  · intro h
    have hnonneg : ∀ u : Text, u <+: t → 0 ≤ u.depth := fun u hu => depth_nonneg_of_after h hu
    have ht := hnonneg t List.prefix_rfl
    rw [after_eq_of_depth_nonneg hnonneg] at h
    cases h
    exact ⟨hnonneg, by simp; omega, by simp⟩
  · rintro ⟨hnonneg, hd, hq⟩
    rw [after_eq_of_depth_nonneg hnonneg]
    congr 2
    · simp only at hd
      omega
    · exact Bool.eq_iff_iff.mpr (by simpa using hq.symm)

/-- A text that leaves the nesting closes one parenthesis too many behind a balanced beginning. -/
theorem exists_closing {n : Nesting} {t : Text} (h : n.after t = none) :
    ∃ u rest, t = u ++ ')' :: rest ∧ n.after u = some outside := by
  induction t generalizing n with
  | nil => cases h
  | cons c t ih =>
    rw [after_cons] at h
    cases hs : n.step c with
    | none =>
      obtain ⟨d, quoted⟩ := n
      obtain ⟨rfl, rfl, rfl⟩ : c = ')' ∧ d = 0 ∧ quoted = false := by
        unfold step at hs
        repeat' split at hs
        all_goals simp_all
      exact ⟨[], t, rfl, rfl⟩
    | some k =>
      rw [hs] at h
      obtain ⟨u, rest, rfl, hu⟩ := ih h
      exact ⟨c :: u, rest, rfl, by rw [after_cons, hs]; exact hu⟩

/-- What follows a beginning that is refused is not looked at. -/
theorem argumentAfter_comma {t u v : Text} {n m : Nesting} (h : n.argumentAfter t = some m)
    (ht : t = u ++ ',' :: v) : n.after u ≠ some outside := by
  subst ht
  rw [argumentAfter_append, Option.bind_eq_some_iff] at h
  obtain ⟨k, hk, hc⟩ := h
  intro hout
  obtain rfl : k = outside := Option.some.inj ((after_of_argumentAfter hk).symm.trans hout)
  cases hc

end Nesting

namespace Text

theorem balanced_iff {t : Text} :
    Balanced t ↔ Even (t.count '\'') ∧ (∀ u : Text, u <+: t → 0 ≤ depth u) ∧ depth t = 0 := by
  rw [Balanced, Nesting.after_eq_some_iff]
  simp only [outside, Bool.false_eq_true, false_iff, Nat.not_odd_iff_even, Int.natCast_zero]
  constructor
  · rintro ⟨hnonneg, hdepth, hquotes⟩
    exact ⟨hquotes, hnonneg, hdepth⟩
  · rintro ⟨hquotes, hnonneg, hdepth⟩
    exact ⟨hnonneg, hdepth, hquotes⟩

/-- No comma stands outside quotes and parentheses. -/
def CommasNested (t : Text) : Prop :=
  ∀ u v : Text, t = u ++ ',' :: v → Even (u.count '\'') → depth u ≠ 0

theorem isArgument_iff {t : Text} : IsArgument t ↔ Balanced t ∧ CommasNested t := by
  constructor
  · intro h
    refine ⟨h.balanced, fun u v ht hquotes hdepth => Nesting.argumentAfter_comma h ht ?_⟩
    have hnonneg : ∀ w : Text, w <+: u → 0 ≤ depth w := fun w hw =>
      Nesting.depth_nonneg_of_after h.balanced (hw.trans ⟨_, ht.symm⟩)
    exact balanced_iff.mpr ⟨hquotes, hnonneg, hdepth⟩
  · rintro ⟨hbalanced, hcommas⟩
    cases ha : outside.argumentAfter t with
    | some m =>
      have hm := Nesting.after_of_argumentAfter ha
      rw [hbalanced] at hm
      rw [IsArgument, ha, hm]
    | none =>
      obtain ⟨u, v, ht, hu, _⟩ := Arguments.exists_comma hbalanced ha
      obtain ⟨hquotes, _, hdepth⟩ := balanced_iff.mp (Nesting.after_of_argumentAfter hu)
      exact absurd hdepth (hcommas u v ht hquotes)

end Text

end FormulaEngine
