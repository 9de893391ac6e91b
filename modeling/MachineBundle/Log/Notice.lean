import MachineBundle.Datum.Basic
import MachineBundle.Text.LetterCase

/-!
# Notices

What the library has to say beside its results. A notice is kept as data; settings decide later whether and in
which form it becomes a line of a log.
-/

namespace MachineBundle.Log

inductive Level where
  | debug
  | info
  | warning
  | error
  | critical
  deriving DecidableEq, Repr

namespace Level

def name : Level → String
  | debug => "debug"
  | info => "info"
  | warning => "warning"
  | error => "error"
  | critical => "critical"

def rank : Level → Nat
  | debug => 10
  | info => 20
  | warning => 30
  | error => 40
  | critical => 50

end Level

structure Settings where
  /-- Notices below this level are dropped. -/
  threshold : Level
  json : Bool
  deriving DecidableEq, Repr

namespace Settings

/-- Warnings and worse, as text. -/
def usual : Settings := ⟨.warning, false⟩

/-- The threshold that a setting names, in any letter case. A name that is not known means the usual one. -/
def thresholdOf (level : String) : Level :=
  match Text.lower level with
  | "debug" => .debug
  | "info" => .info
  | "error" => .error
  | _ => .warning

/-- Every format but `json` is text. -/
def ofNames (level format : String) : Settings :=
  ⟨thresholdOf level, format = "json"⟩

end Settings

/-- Which settings a notice obeys. -/
inductive Voice where
  /-- The usual settings, whatever has been configured. -/
  | fixed
  | configured
  deriving DecidableEq, Repr

structure Notice where
  voice : Voice
  /-- The name of the part that speaks, empty for none. -/
  logger : String
  level : Level
  event : String
  fields : List (String × Datum)
  /-- The machine that was being read, empty for none. -/
  machine : String

namespace Notice

/-- A notice that obeys the usual settings. -/
def fixed (logger : String) (level : Level) (event : String) (fields : List (String × Datum)) : Notice :=
  ⟨.fixed, logger, level, event, fields, ""⟩

/-- A notice that obeys what has been configured. -/
def configured (logger : String) (level : Level) (event : String) (fields : List (String × Datum)) : Notice :=
  ⟨.configured, logger, level, event, fields, ""⟩

/-- The names of fields that no notice can have. -/
def reserved : List String := ["event", "self"]

/-- The names of fields that a notice can only have if it is dropped. -/
def reservedInLines : List String := ["method_name"]

/-- The names of fields whose values follow the line. In text these values have to be text. -/
def appendices : List String := ["stack", "exception"]

def isTextOrNull : Datum → Bool
  | .text _ | .null => true
  | _ => false

/-- The settings that a notice obeys. -/
def settings (configured : Settings) (n : Notice) : Settings :=
  if n.voice = .fixed then .usual else configured

def isDropped (configured : Settings) (n : Notice) : Bool :=
  n.level.rank < (n.settings configured).threshold.rank

/-- Whether the fields of a notice are such that a line can be made of it, or need not be. -/
def isProper (configured : Settings) (n : Notice) : Bool :=
  n.fields.all fun (k, v) =>
    !reserved.contains k &&
      (n.isDropped configured ||
        (!reservedInLines.contains k &&
          ((n.settings configured).json || !appendices.contains k || isTextOrNull v)))

end Notice

end MachineBundle.Log
