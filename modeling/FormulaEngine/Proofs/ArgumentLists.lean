import FormulaEngine.Proofs.Depth
import Mathlib.Data.List.Forall2

/-! # Lists of arguments

Reading the arguments of a call undoes joining them with commas, whatever blanks are put around
them, and it does nothing else: where it succeeds, the text up to the closing parenthesis is such a
list. Where it does not, no beginning of the text closes more parentheses than it opens, and the
quotes decide the error: with an odd number of them the last one is open at the end of the text, and
with an even number the parenthesis of the call is not closed. -/

namespace FormulaEngine

open Nesting (outside)
open Text (depth)

namespace Text

/-- A text that comes back as it is when it is cut out as an argument. -/
structure IsParameter (p : Text) : Prop where
  trimmed : trim p = p
  quotes_even : Even (p.count '\'')
  depth_nonneg : ∀ u : Text, u <+: p → 0 ≤ depth u
  depth_eq_zero : depth p = 0
  commasNested : CommasNested p

def IsBlank (t : Text) : Prop := ∀ c ∈ t, isBlank c = true

/-- The text with blanks around it. -/
def Padded (p t : Text) : Prop := ∃ a b : Text, IsBlank a ∧ IsBlank b ∧ t = a ++ p ++ b

/-- The texts with commas between them and blanks around them. No text at all is the same as a blank
text, so a single empty text cannot be told from it. -/
inductive Joined : List Text → Text → Prop where
  | none {t : Text} : IsBlank t → Joined [] t
  | some {ps ts : List Text} : ps ≠ [] → ps ≠ [[]] → List.Forall₂ Padded ps ts →
      Joined ps (Text.join [','] ts)

theorem isParameter_iff {p : Text} : IsParameter p ↔ trim p = p ∧ IsArgument p := by
  rw [isArgument_iff, balanced_iff]
  constructor
  · intro h
    exact ⟨h.trimmed, ⟨h.quotes_even, h.depth_nonneg, h.depth_eq_zero⟩, h.commasNested⟩
  · rintro ⟨htrim, ⟨hquotes, hnonneg, hzero⟩, hcommas⟩
    exact ⟨htrim, hquotes, hnonneg, hzero, hcommas⟩

theorem IsBlank.isArgument {t : Text} (h : IsBlank t) : IsArgument t :=
  Nesting.argumentAfter_of_isPlain (fun c hc => Arguments.isPlain_of_isBlank (h c hc)) _

theorem IsBlank.trim_eq {t : Text} (h : IsBlank t) : trim t = [] := by
  have := trim_append_blanks h []
  simpa using this

theorem Tight.not_isBlank {t : Text} (h : Tight t) : ¬ IsBlank t := fun hblank =>
  h.ne_nil (h.trim_eq.symm.trans hblank.trim_eq)

/-- Blanks outside all quotes do not matter to the splitter. -/
theorem Padded.isArgument_iff {p t : Text} (h : Padded p t) : IsArgument t ↔ IsArgument p := by
  obtain ⟨a, b, ha, hb, rfl⟩ := h
  have hplain : ∀ {c : Char}, isBlank c = true → Nesting.IsPlain c := Arguments.isPlain_of_isBlank
  constructor
  · intro h
    rw [IsArgument, Nesting.argumentAfter_append, Nesting.argumentAfter_append,
      show outside.argumentAfter a = some outside from ha.isArgument, Option.bind_some,
      Option.bind_eq_some_iff] at h
    obtain ⟨n, hp, hn⟩ := h
    rw [Nesting.argumentAfter_of_isPlain fun c hc => hplain (hb c hc)] at hn
    cases hn
    exact hp
  · intro h
    exact (ha.isArgument.append h).append hb.isArgument

theorem Padded.trim_eq {p t : Text} (h : Padded p t) : trim t = trim p := by
  obtain ⟨a, b, ha, hb, rfl⟩ := h
  rw [trim_append_blanks hb, trim_blanks_append ha]

theorem padded_trim (t : Text) : Padded (trim t) t := by
  obtain ⟨a, b, h, ha, hb⟩ := exists_trim t
  exact ⟨a, b, ha, hb, h⟩

theorem isParameter_trim {t : Text} (h : IsArgument t) : IsParameter (trim t) :=
  isParameter_iff.mpr ⟨trim_trim t, (padded_trim t).isArgument_iff.mp h⟩

end Text

/-- A cursor is a text and what is left of it. -/
theorem Cursor.eq_of_toText {c c' : Cursor} (ht : c.toText = c'.toText)
    (ha : c.after = c'.after) : c = c' := by
  obtain ⟨before, after⟩ := c
  obtain ⟨before', after'⟩ := c'
  obtain rfl : after = after' := ha
  have hreverse := List.append_cancel_right ht
  obtain rfl : before = before' := List.reverse_inj.mp hreverse
  rfl

namespace Arguments

open Text (IsParameter Joined Padded)

/-! ## What is read -/

/-- The arguments that are passed on are joined in the text they are cut from. -/
theorem joined_passed {ts : List Text} (hne : ts ≠ []) :
    Joined (passed ts) (Text.join [','] ts) := by
  unfold passed
  split
  · rename_i hblank
    obtain ⟨t, rfl, ht⟩ := List.map_eq_singleton_iff.mp hblank
    refine .none fun c hc => ?_
    obtain ⟨a, b, ha, hb, heq⟩ := Text.padded_trim t
    rw [Text.join_singleton, heq, ht] at hc
    simp only [List.append_nil, List.mem_append] at hc
    exact hc.elim (ha c) (hb c)
  · rename_i hblank
    refine .some (by simpa using hne) hblank ?_
    rw [List.forall₂_map_left_iff, List.forall₂_same]
    exact fun t _ => Text.padded_trim t

theorem isParameter_of_mem_passed {ts : List Text} (h : ∀ t ∈ ts, Text.IsArgument t) {p : Text}
    (hp : p ∈ passed ts) : IsParameter p := by
  obtain ⟨t, ht, rfl⟩ := exists_of_mem_passed hp
  exact Text.isParameter_trim (h t ht)

/-- Blanks around parameters are trimmed away. -/
theorem arguments_of_padded {ps ts : List Text} (h : List.Forall₂ Padded ps ts)
    (hps : ∀ p ∈ ps, IsParameter p) :
    (∀ u ∈ ts, Text.IsArgument u) ∧ ts.map Text.trim = ps := by
  induction h with
  | nil => simp
  | @cons p t ps ts hpad _ ih =>
    obtain ⟨hp, hps⟩ := List.forall_mem_cons.mp hps
    obtain ⟨harguments, htrim⟩ := ih hps
    obtain ⟨hptrim, hargument⟩ := Text.isParameter_iff.mp hp
    refine ⟨List.forall_mem_cons.mpr ⟨hpad.isArgument_iff.mpr hargument, harguments⟩, ?_⟩
    rw [List.map_cons, htrim, hpad.trim_eq, hptrim]

/-- Texts that are joined have been passed on by arguments. -/
theorem exists_of_joined {ps : List Text} {t : Text} (hps : ∀ p ∈ ps, IsParameter p)
    (h : Joined ps t) : ∃ ts : List Text, ts ≠ [] ∧ (∀ u ∈ ts, Text.IsArgument u) ∧
      t = Text.join [','] ts ∧ ps = passed ts := by
  cases h with
  | none ht =>
    refine ⟨[t], by simp, by simpa using ht.isArgument, by simp, ?_⟩
    simp [passed, ht.trim_eq]
  | @some _ ts hne hblank hpad =>
    obtain ⟨harguments, htrim⟩ := arguments_of_padded hpad hps
    refine ⟨ts, ?_, harguments, rfl, ?_⟩
    · rintro rfl
      exact hne htrim.symm
    · rw [passed, htrim, if_neg hblank]

theorem read_eq_ok_iff_joined {t : Text} {ps : List Text} {n : Nat} :
    read t = .ok (ps, n) ↔ ∃ u rest : Text, t = u ++ ')' :: rest ∧ (∀ p ∈ ps, IsParameter p) ∧
      Joined ps u ∧ n = u.length + 1 := by
  rw [read_eq_ok_iff]
  constructor
  · rintro ⟨ts, rest, hne, hts, rfl, rfl, rfl⟩
    exact ⟨_, rest, rfl, fun p hp => isParameter_of_mem_passed hts hp, joined_passed hne, rfl⟩
  · rintro ⟨u, rest, rfl, hps, hjoined, rfl⟩
    obtain ⟨ts, hne, hts, rfl, rfl⟩ := exists_of_joined hps hjoined
    exact ⟨ts, rest, hne, hts, rfl, rfl, rfl⟩

/-! ## Why nothing is read -/

/-- From an open quote on the search goes to the end if there is no other. -/
theorem closingOffset_quoted {v : Text} (h : '\'' ∉ v) (offset depth q : Nat) :
    closingOffset offset depth (some q) v = .error (.quote q) := by
  induction v generalizing offset with
  | nil => rfl
  | cons c v ih =>
    obtain ⟨hc, hv⟩ : '\'' ≠ c ∧ '\'' ∉ v := by simpa using h
    rw [closingOffset, if_neg hc.symm, ih hv]

/-- The parenthesis of the call is closed nowhere in the text. -/
def Unmatched (t : Text) : Prop := ∀ u : Text, u <+: t → 0 ≤ depth u

theorem unmatched_of_error {t : Text} {x : Unclosed} (h : closingOffset 0 0 none t = .error x) :
    Unmatched t := by
  intro u hu
  cases ht : outside.after t with
  | some n => exact Nesting.depth_nonneg_of_after ht hu
  | none =>
    obtain ⟨v, rest, heq, hv⟩ := Nesting.exists_closing ht
    have hok := closingOffset_eq_ok_iff.mpr ⟨v, rest, heq, rfl, hv⟩
    cases h.symm.trans hok

/-- In front of an even number of quotes the search begins anew, a number of parentheses deeper. -/
theorem closingOffset_append {u : Text} (hu : Unmatched u) (heven : Even (u.count '\''))
    (v : Text) : closingOffset 0 0 none (u ++ v) = closingOffset u.length (depth u).toNat none v := by
  have hafter := Nesting.after_eq_of_depth_nonneg hu
  obtain ⟨quote?, hq, hv⟩ := closingOffset_after hafter 0 none rfl
  obtain rfl : quote? = none := by simpa [Nat.not_odd_iff_even.mpr heven] using hq
  simpa [outside] using hv v

/-- The last quote of an odd number is found open at the end. -/
theorem closingOffset_of_odd {u v : Text} (h : Unmatched (u ++ '\'' :: v))
    (heven : Even (u.count '\'')) (hv : '\'' ∉ v) :
    closingOffset 0 0 none (u ++ '\'' :: v) = .error (.quote u.length) := by
  have hu : Unmatched u := fun w hw => h w (hw.trans (List.prefix_append _ _))
  rw [closingOffset_append hu heven]
  simp [closingOffset, closingOffset_quoted hv]

theorem closingOffset_of_even {t : Text} (h : Unmatched t) (heven : Even (t.count '\'')) :
    closingOffset 0 0 none t = .error .parenthesis := by
  simpa [closingOffset] using closingOffset_append h heven []

/-- The quotes of a text are even in number, or the last one opens a region without an end. -/
theorem even_or_exists_last_quote (t : Text) :
    Even (t.count '\'') ∨ ∃ u v : Text, t = u ++ '\'' :: v ∧ Even (u.count '\'') ∧ '\'' ∉ v := by
  by_cases hmem : '\'' ∈ t.reverse
  · obtain ⟨v, u, hrev, hv⟩ := List.eq_append_cons_of_mem hmem
    have ht : t = u.reverse ++ '\'' :: v.reverse := by
      rw [← t.reverse_reverse, hrev]
      simp
    have hlast : '\'' ∉ v.reverse := by simpa using hv
    have hcount : t.count '\'' = u.reverse.count '\'' + 1 := by
      rw [ht, List.count_append, List.count_cons_self, List.count_eq_zero.mpr hlast]
    by_cases heven : Even (t.count '\'')
    · exact .inl heven
    · refine .inr ⟨_, _, ht, ?_, hlast⟩
      rw [hcount, Nat.even_add_one] at heven
      exact not_not.mp heven
  · refine .inl ?_
    rw [List.count_eq_zero.mpr (by simpa using hmem)]
    exact Even.zero

theorem read_eq_error_iff {t : Text} {x : Unclosed} :
    read t = .error x ↔ Unmatched t ∧
      ((∃ u v : Text, t = u ++ '\'' :: v ∧ Even (u.count '\'') ∧ '\'' ∉ v ∧ x = .quote u.length) ∨
        Even (t.count '\'') ∧ x = .parenthesis) := by
  have hread : read t = .error x ↔ closingOffset 0 0 none t = .error x := by
    unfold read
    cases closingOffset 0 0 none t <;> simp
  rw [hread]
  constructor
  · intro h
    have hunmatched := unmatched_of_error h
    refine ⟨hunmatched, ?_⟩
    rcases even_or_exists_last_quote t with heven | ⟨u, v, rfl, heven, hv⟩
    · rw [closingOffset_of_even hunmatched heven] at h
      cases h
      exact .inr ⟨heven, rfl⟩
    · rw [closingOffset_of_odd hunmatched heven hv] at h
      cases h
      exact .inl ⟨u, v, rfl, heven, hv, rfl⟩
  · rintro ⟨hunmatched, ⟨u, v, rfl, heven, hv, rfl⟩ | ⟨heven, rfl⟩⟩
    · exact closingOffset_of_odd hunmatched heven hv
    · exact closingOffset_of_even hunmatched heven

/-! ## Reading from a cursor -/

/-- Reading the arguments of a call succeeds exactly on lists of arguments that are joined by commas,
with any blanks around them, and followed by a closing parenthesis, and it gives the list and leaves
the cursor behind the parenthesis. Otherwise no beginning of the text closes more parentheses than it
opens; the error is a quote, the last one, when the quotes are odd in number, and else the
parenthesis of the call. -/
theorem readAt_result (c : Cursor) (name : Text) :
    (∀ ps c', readAt c name = (.ok ps, c') ↔ (∀ p ∈ ps, IsParameter p) ∧
      ∃ t rest : Text, Joined ps t ∧ c.after = t ++ ')' :: rest ∧
        c'.toText = c.toText ∧ c'.after = rest) ∧
    ∀ e, (readAt c name).1 = .error e ↔ Unmatched c.after ∧
      ((∃ u v : Text, c.after = u ++ '\'' :: v ∧ Even (u.count '\'') ∧ '\'' ∉ v ∧
          e = .openString (c.position + u.length)) ∨
        Even (c.after.count '\'') ∧
          e = ((FormulaError.functionFailure name).locatedAt c.position).saying
            "unbalanced parentheses in argument list".toList) := by
  constructor
  · intro ps c'
    have hok : readAt c name = (.ok ps, c') ↔
        ∃ width, read c.after = .ok (ps, width) ∧ c' = c.advanceBy width := by
      unfold readAt
      rcases read c.after with x | ⟨qs, width⟩
      · simp
      · simp only [Prod.mk.injEq, Except.ok.injEq]
        constructor
        · rintro ⟨rfl, rfl⟩
          exact ⟨width, ⟨rfl, rfl⟩, rfl⟩
        · rintro ⟨_, ⟨rfl, rfl⟩, rfl⟩
          exact ⟨rfl, rfl⟩
    rw [hok]
    constructor
    · rintro ⟨width, hread, rfl⟩
      obtain ⟨t, rest, ht, hps, hjoined, rfl⟩ := read_eq_ok_iff_joined.mp hread
      refine ⟨hps, t, rest, hjoined, ht, Cursor.toText_advanceBy c _, ?_⟩
      simp [Cursor.advanceBy, ht]
    · rintro ⟨hps, t, rest, hjoined, ht, htext, hafter⟩
      refine ⟨t.length + 1, read_eq_ok_iff_joined.mpr ⟨t, rest, ht, hps, hjoined, rfl⟩, ?_⟩
      refine Cursor.eq_of_toText (by rw [htext, Cursor.toText_advanceBy]) ?_
      simp [Cursor.advanceBy, ht, hafter]
  · intro e
    have herror : (readAt c name).1 = .error e ↔
        ∃ x, read c.after = .error x ∧ e = x.toFormulaError name c.position := by
      unfold readAt
      rcases read c.after with x | ⟨qs, width⟩
      · simp [eq_comm]
      · simp
    rw [herror]
    constructor
    · rintro ⟨x, hread, rfl⟩
      obtain ⟨hunmatched, ⟨u, v, ht, heven, hv, rfl⟩ | ⟨heven, rfl⟩⟩ := read_eq_error_iff.mp hread
      · exact ⟨hunmatched, .inl ⟨u, v, ht, heven, hv, rfl⟩⟩
      · exact ⟨hunmatched, .inr ⟨heven, rfl⟩⟩
    · rintro ⟨hunmatched, ⟨u, v, ht, heven, hv, rfl⟩ | ⟨heven, rfl⟩⟩
      · exact ⟨_, read_eq_error_iff.mpr ⟨hunmatched, .inl ⟨u, v, ht, heven, hv, rfl⟩⟩, rfl⟩
      · exact ⟨_, read_eq_error_iff.mpr ⟨hunmatched, .inr ⟨heven, rfl⟩⟩, rfl⟩

end Arguments

end FormulaEngine
