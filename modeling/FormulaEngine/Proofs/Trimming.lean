import FormulaEngine.Cursor
import Mathlib.Data.List.DropRight
import Mathlib.Data.List.TakeWhile

/-! # Trimmed texts

Trimming takes away blanks and nothing else, so blanks that are put around a text do not change what
is left of it, and a text without blanks at its ends stays as it is. -/

namespace FormulaEngine.Text

@[simp] theorem trim_nil : trim [] = [] := rfl

theorem trim_blanks_append {a : Text} (h : ∀ c ∈ a, isBlank c = true) (t : Text) :
    trim (a ++ t) = trim t := by
  simp only [trim, trimStart, List.dropWhile_append_of_pos h]

theorem trim_append_blanks {b : Text} (h : ∀ c ∈ b, isBlank c = true) (t : Text) :
    trim (t ++ b) = trim t := by
  have hb : b.dropWhile isBlank = [] := List.dropWhile_eq_nil_iff.mpr h
  simp only [trim, trimStart, trimEnd, List.dropWhile_append]
  split
  · rename_i he
    rw [List.isEmpty_iff.mp he, hb]
  · rw [List.reverse_append, List.dropWhile_append_of_pos (by simpa using h)]

/-- What trimming takes away from the two ends is blank. -/
theorem exists_trim (t : Text) : ∃ a b : Text, t = a ++ trim t ++ b ∧
    (∀ c ∈ a, isBlank c = true) ∧ ∀ c ∈ b, isBlank c = true := by
  let u := t.dropWhile isBlank
  refine ⟨t.takeWhile isBlank, (u.reverse.takeWhile isBlank).reverse, ?_, ?_, ?_⟩
  · have hu : (u.reverse.dropWhile isBlank).reverse ++ (u.reverse.takeWhile isBlank).reverse = u := by
      rw [← List.reverse_append, List.takeWhile_append_dropWhile, List.reverse_reverse]
    rw [List.append_assoc]
    exact (congrArg _ hu).trans List.takeWhile_append_dropWhile |>.symm
  · intro c hc
    exact List.mem_takeWhile_imp hc
  · intro c hc
    exact List.mem_takeWhile_imp (List.mem_reverse.mp hc)

/-- A text that neither begins nor ends with a blank. -/
def Tight (t : Text) : Prop :=
  (∃ c, t.head? = some c ∧ isBlank c = false) ∧ ∃ c, t.getLast? = some c ∧ isBlank c = false

theorem Tight.ne_nil {t : Text} (h : Tight t) : t ≠ [] := by
  rintro rfl
  obtain ⟨⟨c, hc, _⟩, _⟩ := h
  cases hc

theorem Tight.trim_eq {t : Text} (h : Tight t) : trim t = t := by
  obtain ⟨⟨c, hc, hcb⟩, d, hd, hdb⟩ := h
  obtain ⟨u, rfl⟩ := List.head?_eq_some_iff.mp hc
  obtain ⟨v, hv⟩ := List.getLast?_eq_some_iff.mp hd
  have hs : trimStart (c :: u) = c :: u := by simp [trimStart, hcb]
  rw [trim, hs, trimEnd, hv, List.reverse_append]
  simp [trimStart, hdb]

/-- A text without blanks stays as it is. -/
theorem trim_eq_self {t : Text} (h : ∀ c ∈ t, isBlank c = false) : trim t = t := by
  rcases eq_or_ne t [] with rfl | hne
  · rfl
  · have hhead : t.head? = some (t.head hne) := List.head?_eq_some_head hne
    have hlast : t.getLast? = some (t.getLast hne) := List.getLast?_eq_some_getLast hne
    exact Tight.trim_eq
      ⟨⟨_, hhead, h _ (List.head_mem hne)⟩, _, hlast, h _ (List.getLast_mem hne)⟩

theorem trimEnd_eq_rdropWhile (t : Text) : trimEnd t = t.rdropWhile isBlank := rfl

/-- What is left of a text that is not blank is tight. -/
theorem tight_trim {t : Text} (h : trim t ≠ []) : Tight (trim t) := by
  rw [trim, trimEnd_eq_rdropWhile] at h ⊢
  refine ⟨?_, _, List.getLast?_eq_some_getLast h, ?_⟩
  · -- the first character is still that of the text without the blanks in front
    obtain ⟨c, v, hv⟩ := List.exists_cons_of_ne_nil h
    have hp : (trimStart t).rdropWhile isBlank <+: trimStart t := List.rdropWhile_prefix _ _
    obtain ⟨w, hw⟩ := hp
    rw [hv] at hw
    have hnot := List.head?_dropWhile_not isBlank t
    rw [show t.dropWhile isBlank = c :: v ++ w from hw.symm] at hnot
    exact ⟨c, by rw [hv]; rfl, by simpa using hnot⟩
  · simpa using List.rdropWhile_last_not isBlank _ h

theorem isBlank_of_trim_concat {t : Text} {c : Char} (h : trim (t ++ [c]) = t ++ [c]) :
    isBlank c = false := by
  have htight : Tight (t ++ [c]) := by
    rw [← h]
    exact tight_trim (by simp [h])
  obtain ⟨_, d, hd, hblank⟩ := htight
  rw [List.getLast?_concat] at hd
  cases hd
  exact hblank

theorem trim_trim (t : Text) : trim (trim t) = trim t := by
  by_cases h : trim t = []
  · rw [h]
    rfl
  · exact (tight_trim h).trim_eq

/-- Trimming stops at what is not blank. -/
theorem trimEnd_append_cons {c : Char} (hc : isBlank c = false) (s t : Text) :
    trimEnd (s ++ c :: t) = s ++ c :: trimEnd t := by
  have hs : (c :: s.reverse).dropWhile isBlank = c :: s.reverse := by simp [hc]
  simp only [trimEnd, trimStart, List.reverse_append, List.reverse_cons, List.append_assoc,
    List.singleton_append, List.dropWhile_append, hs]
  split
  · rename_i h
    rw [List.isEmpty_iff.mp h]
    simp
  · simp

theorem trim_cons {c : Char} (hc : isBlank c = false) (t : Text) :
    trim (c :: t) = c :: trimEnd t := by
  have hs : trimStart (c :: t) = c :: t := by simp [trimStart, hc]
  rw [trim, hs]
  exact trimEnd_append_cons hc [] t

/-- Blanks at the end of a text are behind all that is not blank in front of them. -/
theorem trimEnd_append {s : Text} (h : ∀ c ∈ s, isBlank c = false) (t : Text) :
    trimEnd (s ++ t) = s ++ trimEnd t := by
  induction s with
  | nil => rfl
  | cons c s ih =>
    rw [List.cons_append, ← List.nil_append (c :: (s ++ t)),
      trimEnd_append_cons (h c List.mem_cons_self), ih fun d hd => h d (List.mem_cons_of_mem _ hd)]
    rfl

theorem trimStart_cons {c : Char} (hc : isBlank c = true) (t : Text) :
    trimStart (c :: t) = trimStart t := List.dropWhile_cons_of_pos hc

theorem trimStart_cons_of_not {c : Char} (hc : isBlank c = false) (t : Text) :
    trimStart (c :: t) = c :: t := List.dropWhile_cons_of_neg (by simp [hc])

theorem trimStart_trimStart (t : Text) : trimStart (trimStart t) = trimStart t :=
  List.dropWhile_idempotent _ _

theorem trimStart_trimEnd_cons {c : Char} (hc : isBlank c = true) (t : Text) :
    trimStart (trimEnd (c :: t)) = trimStart (trimEnd t) := by
  have hcons : trimEnd (c :: t) = if trimEnd t = [] then [] else c :: trimEnd t := by
    simp only [trimEnd, trimStart, List.reverse_cons, List.dropWhile_append, List.isEmpty_iff,
      List.reverse_eq_nil_iff]
    split
    · simp [hc]
    · simp
  rw [hcons]
  split
  · rename_i hnil
    rw [hnil]
  · exact trimStart_cons hc _

/-- It does not matter which end is trimmed first. -/
theorem trim_eq_trimStart_trimEnd (t : Text) : trim t = trimStart (trimEnd t) := by
  induction t with
  | nil => rfl
  | cons c t ih =>
    by_cases hc : isBlank c = true
    · rw [trimStart_trimEnd_cons hc, ← ih, trim, trimStart_cons hc, trim]
    · have hnot : isBlank c = false := by simpa using hc
      have hend : trimEnd (c :: t) = c :: trimEnd t := trimEnd_append_cons hnot [] t
      rw [trim_cons hnot, hend, trimStart_cons_of_not hnot]

theorem trimEnd_subset (t : Text) : trimEnd t ⊆ t := by
  intro c hc
  exact (List.rdropWhile_prefix isBlank t).subset hc

theorem trim_subset (t : Text) : trim t ⊆ t := by
  obtain ⟨a, b, h, _⟩ := exists_trim t
  intro c hc
  rw [h]
  simp [hc]

end FormulaEngine.Text

namespace FormulaEngine

/-- A text on one line. -/
def Text.Unbroken (t : Text) : Prop := ∀ c ∈ t, c ≠ '\r' ∧ c ≠ '\n'

instance (t : Text) : Decidable t.Unbroken := inferInstanceAs (Decidable (∀ c ∈ t, _))

theorem Text.Unbroken.append {s t : Text} (hs : s.Unbroken) (ht : t.Unbroken) :
    (s ++ t).Unbroken := by
  intro c hc
  exact (List.mem_append.mp hc).elim (hs c) (ht c)

theorem Text.Unbroken.join {separator : Text} {ts : List Text} (hs : separator.Unbroken)
    (h : ∀ t ∈ ts, t.Unbroken) : (Text.join separator ts).Unbroken := by
  induction ts with
  | nil => exact fun c hc => nomatch hc
  | cons t ts ih =>
    obtain ⟨ht, hts⟩ := List.forall_mem_cons.mp h
    cases ts with
    | nil => simpa using ht
    | cons u us =>
      rw [Text.join_cons_cons]
      exact (ht.append hs).append (ih hts)

/-- Nothing of a text is lost when it is made a formula of its own. -/
theorem normalize_eq_self {t : Text} (ht : Text.trim t = t) (hb : t.Unbroken) :
    normalize t = t := by
  rw [normalize, ht, List.filter_eq_self]
  intro c hc
  simpa using hb c hc

theorem unbroken_normalize (t : Text) : (normalize t).Unbroken := by
  intro c hc
  simpa using (List.mem_filter.mp hc).2

end FormulaEngine
