import MachineBundle.CommandLine.Arguments
import MachineBundle.CommandLine.Arranging
import MachineBundle.CommandLine.Commands
import MachineBundle.Session

/-!
# The command line

Arguments lead to a task through one or two groups. Settings are read as soon as the first group is known to name a
command; what is left of the arguments is read after them.
-/

namespace MachineBundle.CommandLine

/-- What is asked for. -/
inductive Request where
  | convert (c : Conversion)
  | formats
  | showMachines (directory : Path)
  | saveMachines (directory : Path) (names : List String)
  | convertMachines (r : Rearrangement)
  deriving DecidableEq, Repr

/-! ## Reading arguments -/

/-- The reply to a command that is not carried out. -/
def Command.stopped (c : Command) : Stop → Except Fault Reply
  | .help => .ok ⟨0, c.helpText, ""⟩
  | .version => .ok ⟨0, versionText, ""⟩
  | .nothing => .ok ⟨misuseCode, "", c.helpText⟩
  | .badOption message => .ok ⟨misuseCode, "", "Error: " ++ message ++ "\n"⟩
  | .misuse message => .ok ⟨misuseCode, "", c.misuseText message⟩
  | .fault f => .error f

/-- Names of commands start with a letter or a digit. -/
def startsLikeName (name : String) : Bool :=
  match name.toList with
  | [] => true
  | c :: _ => Text.isAlphanumeric c

/-- Why a name that no command has leads nowhere. If it does not start like a name it may mean an option. -/
def Command.notFound (c : Command) (t : Tree) (known : List String) (name : String) (rest : List String) : Stop :=
  let unknown := noSuchCommand name known
  if startsLikeName name then unknown
  else
    match c.read t (name :: rest) with
    | .error stop => stop
    | .ok _ => unknown

/-- What stands at the front of the operands of a group, and the arguments for it. -/
def Command.enter {α : Type} (c : Command) (t : Tree) (entries : Table String α) (operands : List String) :
    Except Stop (α × List String) :=
  match operands with
  | [] => .error (.misuse "Missing command.")
  | name :: rest =>
    match entries.get? name with
    | some e => .ok (e, rest)
    | none => .error (c.notFound t entries.keys name rest)

/-- The request that checked arguments make. -/
def Task.request (a : Arguments) : Task → Request
  | .convert => .convert
    { machines := a.operands
      format := a.get? formatOption.key
      output := a.path? outputOption.key
      isSuspensible := a.switch? suspensibleOption.key
      isVerbose := (a.get? verboseOption.key).isSome }
  | .formats => .formats
  | .showArrangement => .showMachines a.firstPath
  | .saveArrangement => .saveMachines a.firstPath a.operands.tail
  | .convertArrangement => .convertMachines
    { directory := a.firstPath
      output := (a.path? outputOption.key).getD .here
      format := a.get? formatOption.key
      isSuspensible := a.switch? suspensibleOption.key }

/-- Reads the arguments with which a command has been called. -/
def Command.readOr {α : Type} (c : Command) (r : Except Stop α) : Except (Except Fault Reply) α :=
  r.mapError c.stopped

def Task.read (t : Tree) (arguments : List String) (task : Task) : Except (Except Fault Reply) Request := do
  return task.request (← task.command.readOr (task.command.read t arguments))

/-- The request that arguments make below the first group. -/
def Entry.read (t : Tree) (arguments : List String) : Entry → Except (Except Fault Reply) Request
  | .single task => task.read t arguments
  | .arrangements => do
    let given ← arrangementGroup.readOr (arrangementGroup.read t arguments)
    let (task, rest) ← arrangementGroup.readOr (arrangementGroup.enter t arrangementGroup.entries given.operands)
    task.read t rest

/-! ## Settings -/

/-- The settings in the directory that the options name. -/
def readSettings (t : Tree) (a : Arguments) : Except (Except Fault Reply) Settings :=
  match Settings.load t ((a.path? configOption.key).getD .here) with
  | .ok s => .ok s
  | .error f =>
    match f with
    | .badSetting field _ => .error (.ok (.failure .badSetting f.message [("field", field)]))
    | _ => .error (.error f)

/-- Options win over settings. -/
def logSettings (a : Arguments) (s : Settings) : Log.Settings :=
  .ofNames ((a.get? levelOption.key).getD s.level) ((a.get? logFormatOption.key).getD s.format)

/-! ## Carrying out -/

/-- What is said about formats without a binding. -/
def unsupportedText : String := "unsupported"

def formatList : Reply :=
  .data
    [(.text "formats", .map (Format.all.map fun f =>
      (.text f.name, .text ((f.binding?.map Binding.name).getD unsupportedText))))]

def Request.run (s : Settings) : Request → Action Reply
  | .convert c => c.run s
  | .formats => pure formatList
  | .showMachines directory => CommandLine.showMachines directory
  | .saveMachines directory names => CommandLine.saveMachines directory names
  | .convertMachines r => r.run s

/-- What arguments ask for, with the settings for it and for the log. -/
def plan (t : Tree) (arguments : List String) :
    Except (Except Fault Reply) (Request × Settings × Log.Settings) := do
  let given ← mainGroup.readOr (mainGroup.read t arguments)
  let (entry, rest) ← mainGroup.readOr (mainGroup.enter t mainGroup.entries given.operands)
  let settings ← readSettings t given
  let request ← entry.read t rest
  return (request, settings, logSettings given settings)

/-- Runs the program. Its own notices become lines before whatever else it prints about its progress; the log is
configured as usual before and after. -/
def run (time : String) (arguments : List String) (s : Session) : Except Fault Reply × Session :=
  match plan s.scene.tree arguments with
  | .error reply => (reply, s.configure .usual)
  | .ok (request, settings, logging) =>
    let (result, s) := (s.configure logging).perform (request.run settings)
    let (lines, s) := s.takeConfiguredLines time
    (result.map (·.withLog lines), s.configure .usual)

end MachineBundle.CommandLine
