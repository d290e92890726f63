import FormulaEngine.Arguments

/-! # Quotes and parentheses of a text

A single quote opens or closes a quoted region, and parentheses count outside such regions. A text
is balanced when it ends where it began without ever closing more than it opened, and it is one
argument when, besides, every comma stands in a quoted region or in parentheses. Both are runs of a
machine over the characters, so they compose along concatenation. -/

namespace FormulaEngine

/-- A place of a text: how many parentheses are open, and whether a quote is. -/
structure Nesting where
  depth : Nat
  quoted : Bool
  deriving DecidableEq, Repr

namespace Nesting

def outside : Nesting := ⟨0, false⟩

/-- Behind one more character; nothing when it closes a parenthesis that was not opened. -/
def step (n : Nesting) (c : Char) : Option Nesting :=
  if c = '\'' then some { n with quoted := !n.quoted }
  else if n.quoted then some n
  else if c = '(' then some { n with depth := n.depth + 1 }
  else if c = ')' then if n.depth = 0 then none else some { n with depth := n.depth - 1 }
  else some n

/-- As `step`, where a comma outside everything is refused. -/
def argumentStep (n : Nesting) (c : Char) : Option Nesting :=
  if c = ',' ∧ n = outside then none else n.step c

def after (n : Nesting) (t : Text) : Option Nesting := t.foldlM step n

def argumentAfter (n : Nesting) (t : Text) : Option Nesting := t.foldlM argumentStep n

@[simp] theorem after_nil (n : Nesting) : n.after [] = some n := rfl

@[simp] theorem after_cons (n : Nesting) (c : Char) (t : Text) :
    n.after (c :: t) = (n.step c).bind (·.after t) := by
  simp [after, List.foldlM_cons]

theorem after_append (n : Nesting) (s t : Text) :
    n.after (s ++ t) = (n.after s).bind (·.after t) := by
  simp [after, List.foldlM_append]

@[simp] theorem argumentAfter_nil (n : Nesting) : n.argumentAfter [] = some n := rfl

@[simp] theorem argumentAfter_cons (n : Nesting) (c : Char) (t : Text) :
    n.argumentAfter (c :: t) = (n.argumentStep c).bind (·.argumentAfter t) := by
  simp [argumentAfter, List.foldlM_cons]

theorem argumentAfter_append (n : Nesting) (s t : Text) :
    n.argumentAfter (s ++ t) = (n.argumentAfter s).bind (·.argumentAfter t) := by
  simp [argumentAfter, List.foldlM_append]

theorem step_of_argumentStep {n m : Nesting} {c : Char} (h : n.argumentStep c = some m) :
    n.step c = some m := by
  unfold argumentStep at h
  split at h
  · cases h
  · exact h

theorem after_of_argumentAfter {n m : Nesting} {t : Text} (h : n.argumentAfter t = some m) :
    n.after t = some m := by
  induction t generalizing n with
  | nil => exact h
  | cons c t ih =>
    rw [argumentAfter_cons, Option.bind_eq_some_iff] at h
    obtain ⟨k, hk, ht⟩ := h
    rw [after_cons, step_of_argumentStep hk]
    exact ih ht

/-- A character that is passed over. -/
def IsPlain (c : Char) : Prop := c ≠ '\'' ∧ c ≠ '(' ∧ c ≠ ')' ∧ c ≠ ','

theorem argumentStep_of_isPlain {c : Char} (h : IsPlain c) (n : Nesting) :
    n.argumentStep c = some n := by
  obtain ⟨hq, ho, hc, hcomma⟩ := h
  simp [argumentStep, step, hq, ho, hc, hcomma]

theorem argumentAfter_of_isPlain {t : Text} (h : ∀ c ∈ t, IsPlain c) (n : Nesting) :
    n.argumentAfter t = some n := by
  induction t with
  | nil => rfl
  | cons c t ih =>
    rw [argumentAfter_cons, argumentStep_of_isPlain (h c (by simp))]
    exact ih fun d hd => h d (by simp [hd])

/-- Inside further parentheses nothing changes, and commas are free. -/
theorem argumentStep_deeper {n m : Nesting} {c : Char} (k : Nat) (h : n.step c = some m) :
    argumentStep ⟨n.depth + (k + 1), n.quoted⟩ c = some ⟨m.depth + (k + 1), m.quoted⟩ := by
  have hout : ¬ (c = ',' ∧ (⟨n.depth + (k + 1), n.quoted⟩ : Nesting) = outside) := by
    rintro ⟨_, he⟩
    have := congrArg Nesting.depth he
    simp only [outside] at this
    omega
  rw [argumentStep, if_neg hout]
  unfold step at h ⊢
  repeat' split at h
  all_goals simp_all
  all_goals subst h; simp
  all_goals omega

theorem argumentAfter_deeper {n m : Nesting} {t : Text} (k : Nat) (h : n.after t = some m) :
    argumentAfter ⟨n.depth + (k + 1), n.quoted⟩ t = some ⟨m.depth + (k + 1), m.quoted⟩ := by
  induction t generalizing n with
  | nil => cases h; rfl
  | cons c t ih =>
    rw [after_cons, Option.bind_eq_some_iff] at h
    obtain ⟨l, hl, ht⟩ := h
    rw [argumentAfter_cons, argumentStep_deeper k hl]
    exact ih ht

end Nesting

namespace Text

/-- Every quote is closed, and the parentheses outside quotes match. -/
def Balanced (t : Text) : Prop := Nesting.outside.after t = some .outside

/-- A balanced text without a comma outside its quotes and parentheses. -/
def IsArgument (t : Text) : Prop := Nesting.outside.argumentAfter t = some .outside

instance (t : Text) : Decidable (Balanced t) := inferInstanceAs (Decidable (_ = _))

instance (t : Text) : Decidable (IsArgument t) := inferInstanceAs (Decidable (_ = _))

theorem IsArgument.balanced {t : Text} (h : IsArgument t) : Balanced t :=
  Nesting.after_of_argumentAfter h

theorem Balanced.append {s t : Text} (hs : Balanced s) (ht : Balanced t) : Balanced (s ++ t) := by
  rw [Balanced, Nesting.after_append, hs]
  exact ht

theorem IsArgument.append {s t : Text} (hs : IsArgument s) (ht : IsArgument t) :
    IsArgument (s ++ t) := by
  rw [IsArgument, Nesting.argumentAfter_append, hs]
  exact ht

/-- A balanced text in parentheses is an argument. -/
theorem Balanced.enclosed {t : Text} (h : Balanced t) : IsArgument ('(' :: (t ++ [')'])) := by
  have hin : Nesting.argumentAfter ⟨1, false⟩ t = some ⟨1, false⟩ :=
    Nesting.argumentAfter_deeper 0 h
  have hopen : Nesting.outside.argumentStep '(' = some ⟨1, false⟩ := rfl
  rw [IsArgument, Nesting.argumentAfter_cons, hopen]
  show Nesting.argumentAfter ⟨1, false⟩ (t ++ [')']) = _
  rw [Nesting.argumentAfter_append, hin]
  rfl

/-- In quotes anything but a quote is passed over. -/
theorem isArgument_quoted {t : Text} (h : '\'' ∉ t) : IsArgument ('\'' :: (t ++ ['\''])) := by
  have hin : ∀ u : Text, '\'' ∉ u → Nesting.argumentAfter ⟨0, true⟩ u = some ⟨0, true⟩ := by
    intro u hu
    induction u with
    | nil => rfl
    | cons c u ih =>
      have hc : c ≠ '\'' := fun hc => hu (by simp [hc])
      have hstep : Nesting.argumentStep ⟨0, true⟩ c = some ⟨0, true⟩ := by
        simp [Nesting.argumentStep, Nesting.step, Nesting.outside, hc]
      rw [Nesting.argumentAfter_cons, hstep]
      exact ih fun hmem => hu (by simp [hmem])
  show Nesting.argumentAfter ⟨0, true⟩ (t ++ ['\'']) = _
  rw [Nesting.argumentAfter_append, hin t h]
  rfl

theorem isArgument_cons_iff {c : Char} (hc : Nesting.IsPlain c) {t : Text} :
    IsArgument (c :: t) ↔ IsArgument t := by
  rw [IsArgument, Nesting.argumentAfter_cons, Nesting.argumentStep_of_isPlain hc]
  rfl

theorem isArgument_concat_iff {c : Char} (hc : Nesting.IsPlain c) {t : Text} :
    IsArgument (t ++ [c]) ↔ IsArgument t := by
  rw [IsArgument, Nesting.argumentAfter_append]
  simp [Nesting.argumentStep_of_isPlain hc, IsArgument]

end Text

end FormulaEngine
