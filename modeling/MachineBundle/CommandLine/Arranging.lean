import MachineBundle.CommandLine.Conversion

/-!
# Commands about arrangements

Showing, saving and converting the arrangement in a directory.
-/

namespace MachineBundle.CommandLine

/-- How a command ends that finds no manifest. -/
def manifestMissing (f : Fault) (path : String) : Action Reply := do
  Action.notify (commandNotice .error "arrangement_load_failed" [("path", .text path)])
  return .failure .manifestMissing f.message [("path", path)]

/-! ## Showing -/

def showFailed (f : Fault) : Action Reply :=
  match f with
  | .manifestMissing path => manifestMissing f path
  | _ => throw f

def showMachines (directory : Path) : Action Reply :=
  tryCatch
    (do
      let names ← Action.query fun t => Arrangement.loadNames t directory
      return .success ((.text "directory", .text directory.text) :: Arrangement.summary names))
    showFailed

/-! ## Saving -/

def saveFailed (f : Fault) : Action Reply := do
  if f.isBadValue || f.isWriteFailure then
    Action.notify (commandNotice .error "arrangement_save_failed" [("error", .text f.message)])
    return .failure .general f.message []
  else throw f

def saveMachines (directory : Path) (names : List String) : Action Reply :=
  tryCatch
    (do
      let manifest ← Arrangement.saveNames directory names
      return .success ((.text "manifest", .text manifest.text) :: Arrangement.summary names))
    saveFailed

/-! ## Converting -/

structure Rearrangement where
  directory : Path
  output : Path
  format : Option String
  isSuspensible : Option Bool
  deriving DecidableEq, Repr

namespace Rearrangement

def failed (f : Fault) : Action Reply :=
  match f with
  | .manifestMissing path => CommandLine.manifestMissing f path
  | _ => conversionFailed "arrangement_convert_failed" f

def options (r : Rearrangement) (s : Settings) : Export.Options :=
  ⟨s.templates, r.isSuspensible.getD s.isSuspensible⟩

def run (r : Rearrangement) (s : Settings) : Action Reply :=
  tryCatch
    (do
      let report ← Arrangement.convert (r.options s) r.directory r.output r.format
      return .success report.summary)
    failed

end Rearrangement

end MachineBundle.CommandLine
