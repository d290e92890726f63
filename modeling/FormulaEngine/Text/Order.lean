import FormulaEngine.Text.Casing

/-! The order of texts in which letters are compared without their case first. -/

namespace FormulaEngine.Text

/-- Order of the lower-case forms, by code points. -/
def compareIgnoringCase (a b : Text) : Ordering := compare (lowercase a) (lowercase b)

/-- The order of two texts whose lower-case forms agree: at the first place where they differ, the
first text comes first if it has a lower-case letter there. -/
def compareCase : Text → Text → Ordering
  | a :: as, b :: bs =>
    if a = b then compareCase as bs else if isLowercase a then .lt else .gt
  | as, bs => Ord.compare as.length bs.length

/-- Letters are compared without case; only where that finds no difference does case count. -/
def compareCaseLast (a b : Text) : Ordering :=
  (compareIgnoringCase a b).then (compareCase a b)

theorem compareCase_self (a : Text) : compareCase a a = .eq := by
  induction a with
  | nil => rfl
  | cons c a ih => simp [compareCase, ih]

/-- A difference that does not depend on case decides. -/
theorem compareCaseLast_of_ne {a b : Text} (h : compareIgnoringCase a b ≠ .eq) :
    compareCaseLast a b = compareIgnoringCase a b := by
  unfold compareCaseLast
  cases hc : compareIgnoringCase a b <;> simp_all [Ordering.then]

end FormulaEngine.Text
