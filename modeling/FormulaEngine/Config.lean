import FormulaEngine.Evaluation

/-! The settings that an application makes, as it writes them down. -/

namespace FormulaEngine

/-- How many decimals comparisons look at, if that is not left to the shared tolerance, and the day
that begins a week. -/
structure Config where
  precision : Option UInt32 := none
  firstDay : Weekday := .monday
  deriving DecidableEq, Repr

/-- The settings at some time. Without a precision this reads the shared tolerance. -/
def Config.settings (c : Config) (now : DateTime) (shared : SharedTolerance) :
    Settings × SharedTolerance :=
  let (tolerance, shared) := shared.resolve c.precision
  (⟨now, tolerance, c.firstDay⟩, shared)

end FormulaEngine
