import FormulaEngine.Proofs.Comparisons
import FormulaEngine.Proofs.Trees

/-! # Numbers in an interval

A number counts as between two bounds when it is nearly equal to one of them, or lies between them
exactly. For bounds in order that is the same as being greater than or nearly equal to the lower
one and less than or nearly equal to the upper one, however narrow the interval is: rounding is
monotone, so a number beyond both bounds is no further from the nearer one. -/

namespace FormulaEngine

open Binary64

/-! ## Bounds and bands -/

namespace Tolerance

section

variable {v l h β : ℚ}

/-- Above both bounds, the upper one is no further away. -/
theorem abs_nearest_sub_le_of_above (hbounds : l ≤ h) (hv : h ≤ v) :
    |nearest (v - h)| ≤ |nearest (v - l)| := by
  have hpositive : 0 ≤ nearest (v - h) := nearest_nonneg (sub_nonneg.mpr hv)
  have hmono : nearest (v - h) ≤ nearest (v - l) := nearest_mono (by linarith)
  rwa [abs_of_nonneg hpositive, abs_of_nonneg (hpositive.trans hmono)]

/-- Below both bounds, the lower one is no further away. -/
theorem abs_nearest_sub_le_of_below (hbounds : l ≤ h) (hv : v ≤ l) :
    |nearest (v - l)| ≤ |nearest (v - h)| := by
  have habove := abs_nearest_sub_le_of_above (neg_le_neg hbounds) (neg_le_neg hv)
  rwa [neg_sub_neg, neg_sub_neg, ← neg_sub v l, ← neg_sub v h, nearest_neg, nearest_neg, abs_neg,
    abs_neg] at habove

/-- In the band of a bound or between the bounds is in reach of each bound from its side. -/
theorem inBand_or_between_iff (hβ : 0 ≤ β) (hbounds : l ≤ h) :
    (|nearest (v - l)| ≤ β ∨ |nearest (v - h)| ≤ β ∨ (l ≤ v ∧ v ≤ h)) ↔
      (|nearest (v - l)| ≤ β ∨ l < v) ∧ (|nearest (v - h)| ≤ β ∨ v < h) := by
  constructor
  · rintro (hlow | hhigh | ⟨hlow, hhigh⟩)
    · refine ⟨.inl hlow, (lt_or_ge v h).symm.imp_left fun hv => ?_⟩
      exact (abs_nearest_sub_le_of_above hbounds hv).trans hlow
    · refine ⟨(lt_or_ge l v).symm.imp_left fun hv => ?_, .inl hhigh⟩
      exact (abs_nearest_sub_le_of_below hbounds hv).trans hhigh
    · have hself : |nearest (v - v)| ≤ β := by rwa [sub_self, nearest_zero, abs_zero]
      constructor
      · rcases hlow.eq_or_lt with rfl | hlow
        · exact .inl hself
        · exact .inr hlow
      · rcases hhigh.eq_or_lt with rfl | hhigh
        · exact .inl hself
        · exact .inr hhigh
  · rintro ⟨hlow | hlow, hhigh | hhigh⟩
    · exact .inl hlow
    · exact .inl hlow
    · exact .inr (.inl hhigh)
    · exact .inr (.inr ⟨hlow.le, hhigh.le⟩)

end

theorem between_iff {t : Tolerance} {x low high : Float} {v l h : ℚ}
    (ht : t.decimals.toNat ≤ 300) (hx : value? x = some v) (hlow : value? low = some l)
    (hhigh : value? high = some h) (hbounds : l ≤ h) :
    (t.equal x low || t.equal x high || (x ≥ low && x ≤ high)) = true ↔
      t.greaterOrEqual x low = true ∧ t.lessOrEqual x high = true := by
  obtain ⟨β, hβ, hnonneg⟩ := exists_band ht
  simp only [greaterOrEqual, lessOrEqual, Bool.or_eq_true, Bool.and_eq_true, decide_eq_true_eq,
    ge_iff_le, gt_iff_lt, equal_iff hβ hx hlow, equal_iff hβ hx hhigh, le_iff hlow hx,
    le_iff hx hhigh, lt_iff hlow hx, lt_iff hx hhigh, or_assoc]
  exact inBand_or_between_iff hnonneg hbounds

end Tolerance

/-! ## Formulas -/

namespace SpelledOperator

def greaterOrEqual : SpelledOperator :=
  ⟨.greaterOrEqual, ">=".toList, by simp [Symbol.punctuation, InfixOperator.operator]⟩

def lessOrEqual : SpelledOperator :=
  ⟨.lessOrEqual, "<=".toList, by simp [Symbol.punctuation, InfixOperator.operator]⟩

end SpelledOperator

theorem Intrinsic.calls_between : Calls "between".toList (.three between) :=
  ⟨by decide, by decide, by rfl⟩

namespace Surroundings

variable {s : Surroundings} {n : Nat} {x low high : Tree .number} {v l h : Float}

/-- Whether a number is between two bounds is one of the truth values. -/
theorem result_between (hx : (s.evalNumber (x.print n)).result = .ok v)
    (hlow : (s.evalNumber (low.print n)).result = .ok l)
    (hhigh : (s.evalNumber (high.print n)).result = .ok h) :
    (s.evalNumber (Text.call "between".toList [x.print n, low.print n, high.print n])).result =
      .ok (truthValue
        (s.tolerance.equal v l || s.tolerance.equal v h || (v ≥ l && v ≤ h))) := by
  have hstandalone : ∀ t ∈ [x.print n, low.print n, high.print n], t.Standalone := by
    simp [Tree.standalone]
  refine result_of_calls Intrinsic.calls_between hstandalone rfl ?_
  rw [Intrinsic.between, Run.result_bind_of_ok (r := s.ambient.number (x.print n)) hx,
    Run.result_bind_of_ok (r := s.ambient.number (low.print n)) hlow,
    Run.result_bind_of_ok (r := s.ambient.number (high.print n)) hhigh]
  rfl

/-- A finite number is between two finite bounds that are in order when it is greater than or equal
to the lower one and less than or equal to the upper one, and is not when it is not. -/
theorem between_iff_compares (hp : s.tolerance.decimals.toNat ≤ 300)
    (hx : (s.evalNumber (x.print n)).result = .ok v)
    (hlow : (s.evalNumber (low.print n)).result = .ok l)
    (hhigh : (s.evalNumber (high.print n)).result = .ok h) (hv : isFinite v = true)
    (hl : isFinite l = true) (hh : isFinite h = true) (hbounds : ¬ l > h) :
    let between :=
      (s.evalNumber (Text.call "between".toList [x.print n, low.print n, high.print n])).result
    (between = .ok 1 ∨ between = .ok 0) ∧
      (between = .ok 1 ↔
        (s.evalNumber ((Tree.binary .greaterOrEqual x low).print n)).result = .ok 1 ∧
          (s.evalNumber ((Tree.binary .lessOrEqual x high).print n)).result = .ok 1) := by
  intro between
  obtain ⟨v', hv⟩ := Tolerance.exists_value? hv
  obtain ⟨l', hl⟩ := Tolerance.exists_value? hl
  obtain ⟨h', hh⟩ := Tolerance.exists_value? hh
  have hbounds : l' ≤ h' := not_lt.mp fun hlt => hbounds ((lt_iff hh hl).mpr hlt)
  have hbetween : between = _ := result_between hx hlow hhigh
  have hcompares := Tolerance.between_iff hp hv hl hh hbounds
  rw [result_printBinary _ hx hlow, result_printBinary _ hx hhigh, hbetween]
  simp only [Except.ok.injEq, SpelledOperator.greaterOrEqual, SpelledOperator.lessOrEqual,
    InfixOperator.apply, truthValue_eq_one, truthValue_eq_zero]
  exact ⟨Bool.eq_false_or_eq_true _, hcompares⟩

/-- A number outside an interval that is narrower than the band. -/
theorem between_iff_compares_narrow :
    let between := ((initial {}).evalNumber "between(1.000001, 1, 1)".toList).result
    (between = .ok 1 ∨ between = .ok 0) ∧
      (between = .ok 1 ↔ ((initial {}).evalNumber "1.000001 >= 1".toList).result = .ok 1 ∧
        ((initial {}).evalNumber "1.000001 <= 1".toList).result = .ok 1) := by
  let near : NumberLiteral :=
    ⟨['1'], some "000001".toList, by decide, by decide, by decide, by decide⟩
  let one : NumberLiteral := ⟨['1'], none, by decide, by decide, nofun, by decide⟩
  have hvalue : ∀ l : NumberLiteral,
      ((initial {}).evalNumber (Tree.print 1 (.numeral l))).result = .ok l.value.toFloat := by
    intro l
    rw [evalNumber_printTree]
    rfl
  have hbetween : Text.call "between".toList
      [Tree.print 1 (.numeral near), Tree.print 1 (.numeral one), Tree.print 1 (.numeral one)] =
        "between(1.000001, 1, 1)".toList := by decide
  have hge : Tree.print 1 (.binary .greaterOrEqual (.numeral near) (.numeral one)) =
      "1.000001 >= 1".toList := by decide
  have hle : Tree.print 1 (.binary .lessOrEqual (.numeral near) (.numeral one)) =
      "1.000001 <= 1".toList := by decide
  rw [← hbetween, ← hge, ← hle]
  exact between_iff_compares (by decide) (hvalue near) (hvalue one) (hvalue one)
    (by decide +kernel) (by decide +kernel) (by decide +kernel) (by decide +kernel)

end Surroundings

end FormulaEngine
