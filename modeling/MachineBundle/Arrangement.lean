import MachineBundle.Atomic.Single
import MachineBundle.Bundle.Export

/-!
# Arrangements

An arrangement is a directory of bundles with a manifest that lists the machines by name, one a line, in order.
-/

namespace MachineBundle.Arrangement

/-! ## The manifest -/

def manifestFile : String := "Machines"

def manifestPath (directory : Path) : Path :=
  directory.join manifestFile

/-- The text of a manifest. -/
def manifestOf (names : List String) : String :=
  Source.unlines names

/-- The names in the text of a manifest: its lines as they are, except for blank ones. -/
def namesIn (manifest : String) : List String :=
  ((Text.entries manifest.toList).filter fun line => !line.all Text.isBlank).map String.ofList

def hasLineBreak (name : String) : Bool :=
  name.toList.any fun c => c = '\n' || c = '\r'

/-- Writes the manifest and returns its path. A name with a line break could not be read back. -/
def saveNames (directory : Path) (names : List String) : Action Path := do
  match names.find? hasLineBreak with
  | some name => throw (.lineBreakInName name)
  | none =>
    Atomic.writeText (manifestPath directory) (manifestOf names)
    return manifestPath directory

def loadNames (t : Tree) (directory : Path) : Except Fault (List String) := do
  let path := manifestPath directory
  if ← t.isFile path then return namesIn (← t.readText path)
  else throw (.manifestMissing path.text)

/-! ## Bundles -/

/-- The suffix of bundle directories. -/
def bundleSuffix : String := ".machine"

/-- The directory of the bundle for a machine name. -/
def bundleName (name : String) : String :=
  if name.endsWith bundleSuffix then name else name ++ bundleSuffix

/-- The bundle of a machine: a directory of exactly that name, or else one with the suffix. -/
def bundle? (t : Tree) (directory : Path) (name : String) : Except Fault (Option Path) := do
  let bare := directory.join name
  if ← t.isDirectory bare then return some bare
  let suffixed := directory.join (bundleName name)
  if ← t.holds suffixed then return some suffixed
  return none

/-- Where the bundle of a machine is, or would be. -/
def bundlePath (t : Tree) (directory : Path) (name : String) : Except Fault Path := do
  return (← bundle? t directory name).getD (directory.join (bundleName name))

def summary (names : List String) : List (Datum × Datum) :=
  [(.text "machines", .list (names.map .text))]

/-! ## Loading -/

def missingNotice (directory : Path) (name : String) : Log.Notice :=
  .fixed "arrangement" .warning "arrangement_machine_missing"
    [("directory", .text directory.text), ("machine", .text name)]

/-- The machine in a bundle, which is read unless it is among those loaded. -/
def loadOnce (binding : Option Binding) (loaded : Table Path Machine) (bundle : Path) : Reading Machine :=
  match loaded.get? bundle with
  | some m => pure m
  | none => Machine.load bundle binding

/-- The machines with these names, each with its bundle. A machine listed twice is loaded once; names without a
bundle are passed over. -/
def loadFrom (directory : Path) (binding : Option Binding) (loaded : Table Path Machine) :
    List String → Reading (List (Path × Machine))
  | [] => pure []
  | name :: rest => do
    match ← Reading.query fun t => bundle? t directory name with
    | none =>
      Reading.notify (missingNotice directory name)
      loadFrom directory binding loaded rest
    | some bundle =>
      let m ← loadOnce binding loaded bundle
      let more ← loadFrom directory binding (loaded.set bundle m) rest
      return (bundle, m) :: more

def loadMachines (directory : Path) (names : List String) (binding : Option Binding) :
    Reading (List (Path × Machine)) :=
  loadFrom directory binding [] names

/-! ## Exporting -/

/-- The first machine of each name. -/
def firstOfEachName (seen : List String) : List Machine → List Machine
  | [] => []
  | m :: r => if m.name ∈ seen then firstOfEachName seen r else m :: firstOfEachName (m.name :: seen) r

/-- The files of a machine's bundle inside an arrangement. -/
def bundleFiles (b : Binding) (isSuspensible : Bool) (m : Machine) : List Export.File :=
  (Export.files m b m.name isSuspensible).map fun (file, content) =>
    (m.name ++ bundleSuffix ++ "/" ++ file, content)

/-- The files of an arrangement. Every machine is listed, and written once. -/
def files (machines : List Machine) (b : Binding) (isSuspensible : Bool) : List Export.File :=
  [Export.textFile Bundle.languageFile (b.name ++ "\n"),
    Export.textFile manifestFile (manifestOf (machines.map Machine.name))] ++
  (firstOfEachName [] machines).flatMap (bundleFiles b isSuspensible)

/-- The binding of the first machine, unless one is asked for. -/
def bindingOf (machines : List Machine) (binding : Option Binding) : Binding :=
  binding.getD ((machines.head?.map Machine.binding).getD .default)

/-- Writes an arrangement of machines. -/
def write (o : Export.Options) (machines : List Machine) (destination : Path) (binding : Option Binding) :
    Action Export.Report := do
  let b := bindingOf machines binding
  if !machines.isEmpty then Action.query fun _ => Export.checkTemplates o.templates b
  let written ← Export.writeFiles destination (files machines b o.isSuspensible)
  return ⟨destination, b, written⟩

/-- Writes the arrangement in a directory to another one: in the requested format, or else in the language that
the arrangement records, or else in that of its first machine. -/
def convert (o : Export.Options) (directory destination : Path) (format : Option String) :
    Action Export.Report := do
  let binding ← match format with
    | some f => some <$> Action.query fun _ => Export.bindingFor f
    | none => Action.read (Bundle.binding? directory)
  let names ← Action.query fun t => loadNames t directory
  let machines ← Action.read (loadMachines directory names none)
  write o (machines.map Prod.snd) destination binding

end MachineBundle.Arrangement
