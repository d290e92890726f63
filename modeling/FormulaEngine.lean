import FormulaEngine.Json.Config
import FormulaEngine.Process
import FormulaEngine.Session
import FormulaEngine.Evaluation
import FormulaEngine.DateFormat.Read
import FormulaEngine.Host
import FormulaEngine.Expr.Grammar
import FormulaEngine.Arguments
import FormulaEngine.Token.Lexer
import FormulaEngine.RangeKeyword
import FormulaEngine.Value
import FormulaEngine.Calendar.Components
import FormulaEngine.Calendar.Serial
import FormulaEngine.Calendar.DateTime
import FormulaEngine.Tolerance
import FormulaEngine.Decimal.Places
import FormulaEngine.Decimal.Numeral
import FormulaEngine.Decimal.Notation
import FormulaEngine.Decimal.Shortest
import FormulaEngine.Binary64.Power
import FormulaEngine.Binary64.Rounding
import FormulaEngine.Binary64.Parts
import FormulaEngine.Text.Blank
import FormulaEngine.Text.Letter
import FormulaEngine.Text.Order
import FormulaEngine.Text.Search
import FormulaEngine.Proofs.Nesting
import FormulaEngine.Proofs.Splitting
import FormulaEngine.Proofs.Calls
import FormulaEngine.Proofs.Literals
import FormulaEngine.Proofs.Questions
import FormulaEngine.Proofs.Ranges
import FormulaEngine.Proofs.Meanings
import FormulaEngine.Proofs.Refusals
import FormulaEngine.Proofs.Ownership
import FormulaEngine.Proofs.Dates
import FormulaEngine.Proofs.Comparisons
import FormulaEngine.Proofs.Offsets
import FormulaEngine.Proofs.Decimal.RoundTrip
import FormulaEngine.Proofs.SharedTolerance
import FormulaEngine.Proofs.DateFields
import FormulaEngine.Proofs.WholeNumbers
import FormulaEngine.Proofs.Recasing.Evaluation
import FormulaEngine.Proofs.TextOrder
import FormulaEngine.Proofs.Remainders
import FormulaEngine.Proofs.CompletePictures
import FormulaEngine.Proofs.Depth
import FormulaEngine.Proofs.ArgumentLists
import FormulaEngine.Proofs.Tokens
import FormulaEngine.Proofs.Binary64.Drift
import FormulaEngine.Proofs.Numerals
import FormulaEngine.Proofs.BalancedFormulas
import FormulaEngine.Proofs.DatePeriods
import FormulaEngine.Proofs.Negations
import FormulaEngine.Proofs.Intervals
import FormulaEngine.Proofs.Chronology
import FormulaEngine.Proofs.Extremes
import FormulaEngine.Proofs.Slices
import FormulaEngine.Proofs.PictureUnits
import FormulaEngine.Proofs.Sequencing
import FormulaEngine.Proofs.Unneeded
import FormulaEngine.Proofs.LineBreaks
import FormulaEngine.Proofs.Keywords
import FormulaEngine.Proofs.DigitRuns
import FormulaEngine.Proofs.Attribution
