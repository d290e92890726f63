import FormulaEngine.Proofs.Questions
import FormulaEngine.Proofs.WrittenCalls

/-! # Line breaks

Line breaks do not count anywhere in a formula: not between its tokens, not inside of a name, a
number or a quoted text, and not in the arguments of its calls. At its ends no blanks count. Other
blanks that end a line, such as U+2028, are kept inside, where only the arguments of calls and
quoted texts can have them.

The blanks at the ends are removed before the line breaks are, and an argument is trimmed once more
when it is cut out. The order does not matter, and nothing is left to be removed from a text that is
read inside of a formula. -/

namespace FormulaEngine

namespace Text

/-- The texts are the same on one line, up to the blanks at the ends. -/
def SameLine (t u : Text) : Prop := trim t.oneLine = trim u.oneLine

instance (t u : Text) : Decidable (SameLine t u) := inferInstanceAs (Decidable (_ = _))

theorem sameLine_iff {t u : Text} : SameLine t u ↔ normalize t = normalize u := by
  rw [SameLine, trim_oneLine, trim_oneLine]

/-- The splitter does not see line breaks either. -/
theorem SameLine.isArgument_iff {t u : Text} (h : SameLine t u) :
    IsArgument t ↔ IsArgument u := by
  rw [← isArgument_normalize_iff, sameLine_iff.mp h, isArgument_normalize_iff]

end Text

/-- Inside of a formula nothing is left that its normalization would remove. -/
theorem Subformula.normalize_eq {kind kind' : ValueKind} {t u : Text}
    (h : Subformula kind t kind' u) (ht : normalize t = t) : normalize u = u := by
  induction h with
  | self => exact ht
  | @argument kind _ _ t _ x _ _ hc hx _ ih =>
    refine ih ?_
    have hcut := Lexemes.all_iff.mp (Lexemes.read_cutFrom kind 0 t) _ hc
    obtain ⟨_, htrim, hsub⟩ := hcut.argument hx
    exact normalize_eq_self htrim fun c hc => unbroken_normalize t c (ht.symm ▸ hsub hc)

namespace Surroundings

theorem eval_congr_normalize (s : Surroundings) (kind : ValueKind) {t u : Text}
    (h : normalize t = normalize u) : s.eval kind t = s.eval kind u := by
  cases kind with
  | number => rw [eval, eval, ← s.evalNumber_normalize t, h, s.evalNumber_normalize u]
  | text => rw [eval, eval, ← s.evalText_normalize t, h, s.evalText_normalize u]

/-- Where the lines of a formula end is not seen by its evaluation, and neither are the blanks at
its ends: the questions and the value, or the error with its position, stay. -/
theorem line_breaks_never_count :
    (∀ t, normalize (normalize t) = normalize t) ∧
      (∀ kind t kind' u, Subformula kind (normalize t) kind' u → normalize u = u) ∧
      ∀ (s : Surroundings) (kind : ValueKind) (t u : Text), t.SameLine u →
        s.eval kind t = s.eval kind u :=
  ⟨Text.normalize_normalize,
    fun _ t _ _ h => h.normalize_eq (Text.normalize_normalize t),
    fun s kind _ _ h => s.eval_congr_normalize kind (Text.sameLine_iff.mp h)⟩

/-- Lines that end inside of a name, of a quoted text and of an argument of an argument. -/
theorem line_breaks_never_count_broken :
    (initial {}).eval .text "\u2003le\r\nft('č\naj' & left(na\rme,\r\n 2), \r 3)\n".toList =
      (initial {}).eval .text "left('čaj' & left(name, 2),  3)".toList :=
  line_breaks_never_count.2.2 _ _ _ _ (by decide)

end Surroundings

end FormulaEngine
