import MachineBundle.CommandLine.Reply
import MachineBundle.Settings

/-!
# Converting machines

The machines that are named are all read before any of them is written.
-/

namespace MachineBundle.CommandLine

structure Conversion where
  machines : List String
  format : Option String
  output : Option Path
  isSuspensible : Option Bool
  /-- Whether totals are printed. -/
  isVerbose : Bool
  deriving DecidableEq, Repr

/-- Notices of commands obey the settings of the log. -/
def commandNotice (level : Log.Level) (event : String) (fields : List (String × Datum)) : Log.Notice :=
  .configured "cli" level event fields

/-- How a conversion ends that a fault has stopped. Other faults are not this command's to report. -/
def conversionFailed (event : String) (f : Fault) : Action Reply := do
  let notice := commandNotice .error event [("error", .text f.message)]
  match f with
  | .unsupportedFormat requested =>
    Action.notify notice
    return .failure .unsupportedFormat f.message [("format", Fault.requestedText requested)]
  | _ =>
    if f.isUnreadable || f.isWriteFailure then
      Action.notify notice
      return .failure .general ("Conversion failed: " ++ f.message) []
    else throw f

namespace Conversion

def started (c : Conversion) : Log.Notice :=
  commandNotice .info "convert_started"
    [("machines", .list (c.machines.map .text)),
      ("format", (c.format.map Datum.text).getD .null),
      ("output", (c.output.map fun p => Datum.text p.text).getD .null)]

/-! ## Reading -/

/-- The bundle that an argument means: the path itself, or the path with the suffix of bundles. -/
def bundle? (t : Tree) (suffix argument : String) : Except Fault (Option Path) := do
  let path := Path.ofText argument
  if ← t.holds path then return some path
  let suffixed := Path.ofText (argument ++ suffix)
  if ← t.holds suffixed then return some suffixed
  return none

/-- The bundles that arguments mean, or the first argument that means none. -/
def bundles (t : Tree) (suffix : String) : List String → Except Fault (Except String (List Path))
  | [] => .ok (.ok [])
  | argument :: rest => do
    match ← bundle? t suffix argument with
    | none => return .error argument
    | some bundle => return (← bundles t suffix rest).map (bundle :: ·)

/-- The machine in a bundle; the default format stands in for a language that is not recorded. -/
def readMachine (s : Settings) (bundle : Path) : Reading Machine := do
  let binding ← match ← Bundle.binding? bundle with
    | some b => pure b
    | none => Reading.query fun _ => Export.bindingFor s.defaultFormat
  Machine.load bundle (some binding)

def checkFormat (c : Conversion) : Except Fault Unit :=
  match c.format with
  | some f => (Export.bindingFor f).map fun _ => ()
  | none => .ok ()

/-! ## Writing -/

def options (c : Conversion) (s : Settings) : Export.Options :=
  ⟨s.templates, c.isSuspensible.getD s.isSuspensible⟩

def bindingOf (c : Conversion) (m : Machine) : Except Fault Binding :=
  match c.format with
  | some f => Export.bindingFor f
  | none => .ok m.binding

def destination (s : Settings) (output : Path) (m : Machine) : Path :=
  output.join (m.name ++ s.machineSuffix)

def writeMachine (c : Conversion) (s : Settings) (output : Path) (m : Machine) : Action Export.Report := do
  let b ← Action.query fun _ => c.bindingOf m
  Export.machine (c.options s) m (destination s output m) b

def writeMachines (c : Conversion) (s : Settings) (machines : List Machine) : Action (List Export.Report) :=
  match c.output with
  | some output => machines.mapM (c.writeMachine s output)
  | none => pure []

/-! ## Reporting -/

def stateTotal (machines : List Machine) : Nat :=
  machines.foldr (fun m n => m.graph.states.length + n) 0

def transitionTotal (machines : List Machine) : Nat :=
  machines.foldr (fun m n => m.graph.transitions.length + n) 0

def totals (machines : List Machine) : String :=
  toString machines.length ++ " FSMs with " ++ toString (stateTotal machines) ++ " states and " ++
    toString (transitionTotal machines) ++ " transitions\n"

def report (c : Conversion) (machines : List Machine) (written : List Export.Report) : Reply :=
  let r := Reply.success
    [(.text "machines", .list (machines.map Machine.summary)),
      (.text "states", .int (stateTotal machines)),
      (.text "transitions", .int (transitionTotal machines)),
      (.text "exported", .list (written.map fun w => .map w.summary))]
  if c.isVerbose then { r with err := totals machines } else r

/-- Converts bundles that have been found. -/
def convertBundles (c : Conversion) (s : Settings) (bundles : List Path) : Action Reply := do
  Action.query fun _ => c.checkFormat
  let machines ← Action.read (bundles.mapM (readMachine s))
  let written ← c.writeMachines s machines
  return c.report machines written

def run (c : Conversion) (s : Settings) : Action Reply := do
  Action.notify c.started
  match ← Action.query fun t => bundles t s.machineSuffix c.machines with
  | .error name => return .failure .machineMissing ("Machine '" ++ name ++ "' does not exist") []
  | .ok found => tryCatch (c.convertBundles s found) (conversionFailed "convert_failed")

end Conversion

end MachineBundle.CommandLine
