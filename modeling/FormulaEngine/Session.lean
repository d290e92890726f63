import FormulaEngine.Config
import FormulaEngine.Record

/-! A record that is worked on: formulas are evaluated, and between them its data and the settings
are changed. Delegated evaluations keep the settings that the session began with. -/

namespace FormulaEngine

structure Session where
  record : Record
  config : Config
  now : DateTime
  delegated : Settings
  shared : SharedTolerance

/-- What can be done in a session. Data that is set to nothing is taken away. -/
inductive Command where
  | evaluate (kind : ValueKind) (formula : Text)
  | setPrecision (decimals : Option UInt32)
  | setFirstDay (day : Weekday)
  | showConfig
  | setClock (now : DateTime)
  | setValue (name : Text) (v : Option Float)
  | setText (name : Text) (t : Option Text)
  | setRange (name : Text) (vs : Option (List Value))

/-- What a command reports. -/
inductive Reply where
  | evaluated (r : Run Value)
  | precision (effective : UInt32)
  | firstDay (day : Weekday)
  | config (c : Config) (effective : UInt32)
  | done
  | valueNames (names : List Text)
  | textNames (names : List Text)
  | rangeNames (names : List Text)

namespace Session

/-- Begins a session; the settings of delegated evaluations are fixed now. -/
def start (record : Record) (config : Config) (now : DateTime) (shared : SharedTolerance) :
    Session :=
  let (delegated, shared) := config.settings now shared
  { record, config, now, delegated, shared }

/-- The settings in force, with the session after they were looked up. -/
def settings (s : Session) : Settings × Session :=
  let (current, shared) := s.config.settings s.now s.shared
  (current, { s with shared })

def step (s : Session) : Command → Reply × Session
  | .evaluate kind formula =>
    let (current, s) := s.settings
    (.evaluated (s.record.eval current s.delegated kind formula), s)
  | .setPrecision precision =>
    let (current, s) := { s with config := { s.config with precision } }.settings
    (.precision current.tolerance.decimals, s)
  | .setFirstDay firstDay =>
    (.firstDay firstDay, { s with config := { s.config with firstDay } })
  | .showConfig =>
    let (current, s) := s.settings
    (.config s.config current.tolerance.decimals, s)
  | .setClock now => (.done, { s with now })
  | .setValue name v =>
    let values := s.record.values.set name v
    (.valueNames values.names, { s with record := { s.record with values } })
  | .setText name t =>
    let texts := s.record.texts.set name t
    (.textNames texts.names, { s with record := { s.record with texts } })
  | .setRange name vs =>
    let ranges := s.record.ranges.set name vs
    (.rangeNames ranges.names, { s with record := { s.record with ranges } })

/-- The replies to commands, one after the other, and the session after the last one. -/
def run (s : Session) : List Command → List Reply × Session
  | [] => ([], s)
  | c :: cs =>
    let (reply, s) := s.step c
    let (replies, s) := run s cs
    (reply :: replies, s)

end Session

end FormulaEngine
