import FormulaEngine.DateFormat.Specifier

/-! Patterns as lists of items: specifiers behind a percent sign, and characters. -/

namespace FormulaEngine.DateFormat

inductive PatternItem where
  | char (c : Char)
  | specifier (s : Specifier)
  /-- A percent sign with no specifier behind it. -/
  | invalid
  deriving DecidableEq, Repr

/-- The specifier whose spelling a text begins with. -/
def specifierAt? (t : Text) : Option Specifier := Specifier.all.find? (·.code.isPrefixOf t)

/-- The items of a pattern; two percent signs are one that stands for itself. -/
def patternItems : Text → List PatternItem
  | [] => []
  | c :: rest =>
    if c = '%' then
      match rest with
      | [] => [.invalid]
      | d :: behind =>
        if d = '%' then .char '%' :: patternItems behind
        else
          match specifierAt? (d :: behind) with
          | some s => .specifier s :: patternItems (behind.drop (s.code.length - 1))
          | none => [.invalid]
    else .char c :: patternItems rest
termination_by t => t.length
decreasing_by all_goals (simp only [List.length_drop, List.length_cons]; omega)

example : patternItems "%d/%3f%%".toList =
    [.specifier .day, .char '/', .specifier .milliseconds, .char '%'] := by decide +kernel

end FormulaEngine.DateFormat
