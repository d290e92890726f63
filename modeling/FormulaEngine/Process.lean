import FormulaEngine.Config

/-! A process, as far as the shared tolerance is concerned. Anything in the process may choose it,
read it, or ask which tolerance goes with a precision; evaluating a formula does so too, before the
formula is looked at. -/

namespace FormulaEngine

/-- Who evaluates formulas: the host that answers their questions, the settings as they are written
down, and the time. -/
structure Application where
  host : Host := {}
  config : Config := {}
  now : DateTime

/-- What can be asked of a process. -/
inductive Request where
  | choose (decimals : UInt32)
  | read
  | resolve (precision : Option UInt32)
  | evaluate (a : Application) (kind : ValueKind) (formula : Text)

/-- What a request reports. -/
inductive Response where
  | chosen (r : Except UInt32 Unit)
  | tolerance (t : Tolerance)
  | evaluated (r : Run Value)

namespace SharedTolerance

def step (s : SharedTolerance) : Request → Response × SharedTolerance
  | .choose decimals =>
    let (r, s) := s.choose decimals
    (.chosen r, s)
  | .read =>
    let (t, s) := s.read
    (.tolerance t, s)
  | .resolve precision =>
    let (t, s) := s.resolve precision
    (.tolerance t, s)
  | .evaluate a kind formula =>
    let (settings, s) := a.config.settings a.now s
    (.evaluated (({ settings with host := a.host } : Surroundings).eval kind formula), s)

/-- The responses to requests, one after the other, and the shared tolerance after the last one. -/
def run (s : SharedTolerance) : List Request → List Response × SharedTolerance
  | [] => ([], s)
  | q :: qs =>
    let (response, s) := s.step q
    let (responses, s) := run s qs
    (response :: responses, s)

end SharedTolerance

end FormulaEngine
