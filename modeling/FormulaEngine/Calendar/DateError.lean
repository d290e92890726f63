import FormulaEngine.Error
import FormulaEngine.Decimal.Notation

/-! Why there is no date. -/

namespace FormulaEngine

inductive DateError where
  | serialOutOfRange (serial : Float)
  | noSuchDate (year month day : Int)
  | noSuchTime (hour minute second : Int)
  | unreadable (text format : Text)

namespace DateError

def toText : DateError → Text
  | serialOutOfRange serial =>
    "serial ".toList ++ Decimal.plain.write serial ++
      " is outside the representable date range".toList
  | noSuchDate y m d =>
    "no such date ".toList ++ Text.join ['-'] [Text.ofInt y, Text.ofInt m, Text.ofInt d]
  | noSuchTime h m s =>
    "no such time ".toList ++ Text.join [':'] [Text.ofInt h, Text.ofInt m, Text.ofInt s]
  | unreadable text format =>
    ['\''] ++ text ++ "' does not match format '".toList ++ format ++ ['\'']

/-- As an error of a formula. For a text that could not be read the detail is that text. -/
def toFormulaError : DateError → FormulaError
  | unreadable text _ => .invalidDate text
  | e => .invalidDate e.toText

end DateError

end FormulaEngine
