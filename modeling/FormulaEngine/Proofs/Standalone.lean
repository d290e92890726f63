import FormulaEngine.Proofs.Scanning
import FormulaEngine.Proofs.Splitting

/-! # Texts that stand alone

A text that stands alone is the same as a formula and as an argument: neither normalising it nor
cutting it out between commas changes it. What is put together from such texts stands alone. -/

namespace FormulaEngine

/-- A call as it is written. -/
def Text.call (name : Text) (ts : List Text) : Text :=
  name ++ '(' :: (Text.join ", ".toList ts ++ [')'])

/-- A text on one line without blanks at its ends, which the splitter takes for one argument. -/
structure Text.Standalone (t : Text) : Prop where
  tight : Tight t
  argument : IsArgument t
  unbroken : Unbroken t

/-- A character that is no blank and that the splitter passes over. -/
def IsMark (c : Char) : Prop := Nesting.IsPlain c ∧ isBlank c = false

instance (c : Char) : Decidable (Nesting.IsPlain c) := inferInstanceAs (Decidable (_ ∧ _))

instance (c : Char) : Decidable (IsMark c) := inferInstanceAs (Decidable (_ ∧ _))

theorem unbroken_of_not_blank {t : Text} (h : ∀ c ∈ t, isBlank c = false) : t.Unbroken := by
  intro c hc
  have hblank := h c hc
  refine ⟨?_, ?_⟩ <;> rintro rfl <;> exact absurd hblank (by decide)

theorem isMark_of_isNamePart {c : Char} (h : isNamePart c = true) : IsMark c := by
  refine ⟨⟨?_, ?_, ?_, ?_⟩, ?_⟩
  · rintro rfl
    exact absurd h (by decide)
  · rintro rfl
    exact absurd h (by decide)
  · rintro rfl
    exact absurd h (by decide)
  · rintro rfl
    exact absurd h (by decide)
  · by_contra hblank
    rw [isNamePart_of_isBlank (by simpa using hblank)] at h
    cases h

namespace Text

theorem Tight.append {t u : Text} (ht : Tight t) (m : Text) (hu : Tight u) :
    Tight (t ++ m ++ u) := by
  obtain ⟨⟨c, hc, hblank⟩, _⟩ := ht
  obtain ⟨_, d, hd, hblank'⟩ := hu
  obtain ⟨r, rfl⟩ := List.head?_eq_some_iff.mp hc
  obtain ⟨s, rfl⟩ := List.getLast?_eq_some_iff.mp hd
  refine ⟨⟨c, rfl, hblank⟩, d, ?_, hblank'⟩
  rw [← List.append_assoc, List.getLast?_concat]

theorem tight_parenthesized (t : Text) : Tight ('(' :: (t ++ [')'])) :=
  ⟨⟨'(', rfl, by decide⟩, ')', by rw [← List.cons_append, List.getLast?_concat], by decide⟩

theorem unbroken_parenthesized {t : Text} (h : Unbroken t) : Unbroken ('(' :: (t ++ [')'])) := by
  have hopen : Unbroken ['('] := by decide
  exact hopen.append (h.append (by decide))

namespace Standalone

variable {t u : Text}

theorem normalize_eq (h : t.Standalone) : normalize t = t :=
  normalize_eq_self h.tight.trim_eq h.unbroken

theorem of_marks (hne : t ≠ []) (h : ∀ c ∈ t, IsMark c) : t.Standalone where
  tight := ⟨⟨_, List.head?_eq_some_head hne, (h _ (List.head_mem hne)).2⟩,
    _, List.getLast?_eq_some_getLast hne, (h _ (List.getLast_mem hne)).2⟩
  argument := Nesting.argumentAfter_of_isPlain (fun c hc => (h c hc).1) _
  unbroken := unbroken_of_not_blank fun c hc => (h c hc).2

/-- Between two texts may stand spaces and marks. -/
theorem append (ht : t.Standalone) {m : Text} (hm : ∀ c ∈ m, c = ' ' ∨ IsMark c)
    (hu : u.Standalone) : (t ++ m ++ u).Standalone := by
  have hplain : ∀ c ∈ m, Nesting.IsPlain c := by
    intro c hc
    rcases hm c hc with rfl | hmark
    · decide
    · exact hmark.1
  have hunbroken : Unbroken m := by
    intro c hc
    rcases hm c hc with rfl | hmark
    · decide
    · exact unbroken_of_not_blank (t := [c]) (by simpa using hmark.2) c (by simp)
  have hargument : IsArgument m := Nesting.argumentAfter_of_isPlain hplain _
  exact ⟨ht.tight.append m hu.tight, (ht.argument.append hargument).append hu.argument,
    (ht.unbroken.append hunbroken).append hu.unbroken⟩

theorem enclosed (h : t.Standalone) : Standalone ('(' :: (t ++ [')'])) where
  tight := tight_parenthesized t
  argument := h.argument.balanced.enclosed
  unbroken := unbroken_parenthesized h.unbroken

theorem quoted (h : '\'' ∉ t) (hb : Unbroken t) : Standalone ('\'' :: (t ++ ['\''])) where
  tight := ⟨⟨'\'', rfl, by decide⟩, '\'',
    by rw [← List.cons_append, List.getLast?_concat], by decide⟩
  argument := isArgument_quoted h
  unbroken := by
    have hquote : Unbroken ['\''] := by decide
    exact hquote.append (hb.append hquote)

theorem name (h : IsName t) : t.Standalone := by
  obtain ⟨c, hc, _⟩ := h.head
  obtain ⟨r, rfl⟩ := List.head?_eq_some_iff.mp hc
  exact of_marks (List.cons_ne_nil _ _) fun d hd => isMark_of_isNamePart (h.all d hd)

end Standalone

/-! ## Calls -/

variable {name : Text} {ts : List Text}

theorem tight_call (hname : IsName name) (ts : List Text) : Tight (call name ts) := by
  simpa [call] using (Standalone.name hname).tight.append [] (tight_parenthesized _)

theorem unbroken_call (hname : IsName name) (h : ∀ t ∈ ts, Unbroken t) :
    Unbroken (call name ts) :=
  (Standalone.name hname).unbroken.append (unbroken_parenthesized (.join (by decide) h))

theorem normalize_call (hname : IsName name) (h : ∀ t ∈ ts, Unbroken t) :
    normalize (call name ts) = call name ts :=
  normalize_eq_self (tight_call hname ts).trim_eq (unbroken_call hname h)

theorem Standalone.call (hname : IsName name) (h : ∀ t ∈ ts, t.Standalone) :
    (call name ts).Standalone where
  tight := tight_call hname ts
  argument := (Standalone.name hname).argument.append
    (Arguments.balanced_join (by decide) fun t ht => (h t ht).argument.balanced).enclosed
  unbroken := unbroken_call hname fun t ht => (h t ht).unbroken

end Text

end FormulaEngine
