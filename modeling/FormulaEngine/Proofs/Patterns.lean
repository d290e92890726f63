import FormulaEngine.DateFormat.Pattern
import FormulaEngine.DateFormat.Picture
import Mathlib.Data.List.Basic
import Mathlib.Data.List.TakeWhile

/-! # Patterns of pictures

A picture becomes a pattern, and the pattern is read again as a list of items. Nothing is lost or
made up on the way: the items are those of the picture's units, one after the other. So no character
of a literal turns into a specifier or becomes a part of one, and a specifier does not run into what
follows it. -/

namespace FormulaEngine.DateFormat

/-! ## Specifiers -/

/-- The spelling of a specifier is found, whatever follows it. -/
theorem specifierAt?_code_append (s : Specifier) (rest : Text) :
    specifierAt? (s.code ++ rest) = some s := by
  have hfound : ((s.code).isPrefixOf (s.code ++ rest)) = true :=
    List.isPrefixOf_iff_prefix.mpr (List.prefix_append _ _)
  obtain ⟨t, ht⟩ := Option.isSome_iff_exists.mp
    (List.find?_isSome.mpr ⟨s, s.mem_all, hfound⟩ :
      (Specifier.all.find? (·.code.isPrefixOf (s.code ++ rest))).isSome = true)
  have hprefix : t.code <+: s.code ++ rest :=
    List.isPrefixOf_iff_prefix.mp (by simpa using List.find?_some ht)
  have heq : t = s := by
    rcases List.prefix_or_prefix_of_prefix hprefix (List.prefix_append s.code rest) with h | h
    · exact Specifier.code_prefix_free t t.mem_all s s.mem_all (List.isPrefixOf_iff_prefix.mpr h)
    · exact (Specifier.code_prefix_free s s.mem_all t t.mem_all
        (List.isPrefixOf_iff_prefix.mpr h)).symm
  rw [specifierAt?, ht, heq]

/-- A spelling is not empty, and does not begin like a doubled percent sign. -/
theorem Specifier.exists_code_eq_cons (s : Specifier) : ∃ d tail, s.code = d :: tail ∧ d ≠ '%' := by
  cases s <;> exact ⟨_, _, rfl, by decide⟩

theorem patternItems_specifier (s : Specifier) (rest : Text) :
    patternItems ('%' :: (s.code ++ rest)) = .specifier s :: patternItems rest := by
  obtain ⟨d, tail, hcode, hd⟩ := s.exists_code_eq_cons
  have hfound := specifierAt?_code_append s rest
  have hlength : (tail ++ rest).drop (s.code.length - 1) = rest := by
    rw [hcode, List.length_cons, Nat.add_sub_cancel, List.drop_left]
  rw [hcode, List.cons_append] at hfound ⊢
  rw [patternItems, if_pos rfl]
  simp only [if_neg hd, hfound, hlength]

/-! ## Characters -/

theorem patternItems_char {c : Char} (hc : c ≠ '%') (rest : Text) :
    patternItems (c :: rest) = .char c :: patternItems rest := by
  rw [patternItems.eq_def]
  exact if_neg hc

/-- Characters that stand for themselves stay characters. -/
theorem patternItems_escapePercent (t rest : Text) :
    patternItems (escapePercent t ++ rest) = t.map .char ++ patternItems rest := by
  induction t with
  | nil => rfl
  | cons c t ih =>
    by_cases hc : c = '%'
    · subst hc
      have hescape : escapePercent ('%' :: t) = '%' :: '%' :: escapePercent t := rfl
      rw [hescape, List.cons_append, List.cons_append, patternItems, if_pos rfl]
      simp only [if_true, ih, List.map_cons, List.cons_append]
    · have hescape : escapePercent (c :: t) = c :: escapePercent t := by
        simp [escapePercent, hc]
      rw [hescape, List.cons_append, patternItems_char hc, ih]
      rfl

/-! ## Units -/

theorem ne_of_isFieldLetter {c : Char} (h : isFieldLetter c = true) :
    ¬ (c = '\'' ∨ c = '"') ∧ c ≠ '\\' := by
  refine ⟨?_, ?_⟩
  · rintro (rfl | rfl) <;> exact absurd h (by decide)
  · rintro rfl
    exact absurd h (by decide)

/-- A run of a field letter is one unit, as long as it lasts. -/
theorem pictureUnits_run {letter : Char} (hletter : isFieldLetter letter = true) (n : ℕ)
    {rest : Text} (hrest : rest.head? ≠ some letter) :
    pictureUnits (List.replicate (n + 1) letter ++ rest) =
      .field letter (n + 1) :: pictureUnits rest := by
  obtain ⟨hquote, hbackslash⟩ := ne_of_isFieldLetter hletter
  have hmore : (List.replicate n letter ++ rest).takeWhile (· == letter) =
      List.replicate n letter := by
    have hstop : rest.takeWhile (· == letter) = [] := by
      cases rest with
      | nil => rfl
      | cons d rest => exact List.takeWhile_cons_of_neg (by simpa using hrest)
    rw [List.takeWhile_append_of_pos (by simp), hstop, List.append_nil]
  have hdrop : (List.replicate n letter ++ rest).drop n = rest := by
    rw [List.drop_left' List.length_replicate]
  rw [List.replicate_succ, List.cons_append, pictureUnits.eq_def]
  simp only [if_neg hquote, if_neg hbackslash, if_pos hletter, hmore, List.length_replicate, hdrop]

section

variable {quote : Char} {content : Text}

/-- Whatever stands between two quotes of one sort is one unit. -/
theorem pictureUnits_closed (hquote : quote = '\'' ∨ quote = '"') (hcontent : quote ∉ content)
    (rest : Text) :
    pictureUnits (quote :: (content ++ quote :: rest)) =
      .literal content :: pictureUnits rest := by
  have hstop : (content ++ quote :: rest).takeWhile (· != quote) = content := by
    rw [List.takeWhile_append_of_pos fun c hc => ?_, List.takeWhile_cons_of_neg (by simp),
      List.append_nil]
    exact bne_iff_ne.mpr fun h => hcontent (h ▸ hc)
  have hdrop : (content ++ quote :: rest).drop (content.length + 1) = rest := by
    rw [← List.drop_drop, List.drop_left, List.drop_succ_cons, List.drop_zero]
  rw [pictureUnits.eq_def]
  simp only [if_pos hquote, hstop, hdrop]

/-- A quote that is not closed makes a unit of all the rest. -/
theorem pictureUnits_unclosed (hquote : quote = '\'' ∨ quote = '"') (hcontent : quote ∉ content) :
    pictureUnits (quote :: content) = [.literal content] := by
  have hall : content.takeWhile (· != quote) = content :=
    List.takeWhile_eq_self_iff.mpr fun c hc => bne_iff_ne.mpr fun h => hcontent (h ▸ hc)
  rw [pictureUnits, if_pos hquote]
  simp only [hall]
  rw [List.drop_of_length_le (Nat.le_succ _), pictureUnits]

end

/-- What a unit of a picture asks a text for. -/
def PictureUnit.items : PictureUnit → List PatternItem
  | field letter count =>
    match fieldSpecifier letter count with
    | some s => [.specifier s]
    | none => List.replicate count (.char letter)
  | literal content => content.map .char

theorem patternItems_pattern_append (u : PictureUnit) (rest : Text) :
    patternItems (u.pattern ++ rest) = u.items ++ patternItems rest := by
  cases u with
  | literal content => exact patternItems_escapePercent content rest
  | field letter count =>
    simp only [PictureUnit.pattern, PictureUnit.items]
    cases fieldSpecifier letter count with
    | some s => exact patternItems_specifier s rest
    | none => rw [patternItems_escapePercent, List.map_replicate]

/-- A picture's pattern has the items of the picture's units. -/
theorem patternItems_patternOf (picture : Text) :
    patternItems (patternOf picture) = (pictureUnits picture).flatMap PictureUnit.items := by
  unfold patternOf
  induction pictureUnits picture with
  | nil => rw [List.flatMap_nil, patternItems, List.flatMap_nil]
  | cons u units ih =>
    rw [List.flatMap_cons, patternItems_pattern_append, ih, List.flatMap_cons]

end FormulaEngine.DateFormat
