import MachineBundle.Atomic.Batch
import MachineBundle.Source.C
import MachineBundle.Source.ObjectiveCpp

/-!
# Exporting machines

All files of a bundle are computed from the machine and written as one batch. The language that is written is
settled before anything else.
-/

namespace MachineBundle.Export

/-- The binding for a requested format. -/
def bindingFor (format : String) : Except Fault Binding :=
  match Binding.ofFormat? format with
  | some b => .ok b
  | none => .error (.unsupportedFormat (some format))

/-! ## Sources -/

def machineHeader (m : Source.MachinePlan) : List String :=
  match m.binding with
  | .c => Source.C.machineHeader m
  | .objectiveCpp => Source.ObjectiveCpp.machineHeader m

def machineImplementation (m : Source.MachinePlan) : List String :=
  match m.binding with
  | .c => Source.C.machineImplementation m
  | .objectiveCpp => Source.ObjectiveCpp.machineImplementation m

def stateHeader (m : Source.MachinePlan) (s : Source.StatePlan) : List String :=
  match m.binding with
  | .c => Source.C.stateHeader m s
  | .objectiveCpp => Source.ObjectiveCpp.stateHeader m s

def stateImplementation (m : Source.MachinePlan) (s : Source.StatePlan) : List String :=
  match m.binding with
  | .c => Source.C.stateImplementation m s
  | .objectiveCpp => Source.ObjectiveCpp.stateImplementation m s

/-! ## Files -/

/-- A file of a bundle: its name inside the bundle and its content. -/
abbrev File := String × ByteArray

def textFile (name text : String) : File :=
  (name, Text.encode text)

def sourceFile (name : String) (lines : List String) : File :=
  textFile name (Source.unlines lines)

/-- The files for the sections of some code. -/
def sectionFiles (code : Boilerplate) (files : List (Section × String)) : List File :=
  files.map fun (s, file) => textFile file (code.get s)

/-- The files of one state: its sources, its code and the guards of its transitions. -/
def stateFiles (m : Machine) (plan : Source.MachinePlan) (s : Source.StatePlan) : List File :=
  [sourceFile (Binding.stateHeaderFile s.name) (stateHeader plan s),
    sourceFile (plan.binding.stateImplementationFile s.name) (stateImplementation plan s)] ++
  sectionFiles (m.boilerplateOf s.id) (Binding.stateSectionFiles s.name) ++
  s.transitions.map fun t => textFile (Binding.guardFile s.name t.index) (t.label ++ "\n")

/-- The files of a bundle, in the order in which they are written. -/
def files (m : Machine) (b : Binding) (name : String) (isSuspensible : Bool) : List File :=
  let plan := Source.MachinePlan.of m b name isSuspensible
  [textFile Bundle.languageFile (b.name ++ "\n"), sourceFile Bundle.statesFile m.graph.stateNames] ++
  (m.windowLayout.map fun layout => (Bundle.windowLayoutFile, layout)).toList ++
  sectionFiles m.boilerplate (b.sectionFiles name) ++
  [sourceFile plan.headerFile (machineHeader plan),
    sourceFile plan.implementationFile (machineImplementation plan)] ++
  plan.states.flatMap (stateFiles m plan)

/-! ## Writing -/

structure Options where
  /-- A folder of templates to use in place of the ones that are built in. -/
  templates : Option Path
  /-- Whether the sources support suspension. -/
  isSuspensible : Bool
  deriving Repr

/-- What an export has written. -/
structure Report where
  destination : Path
  binding : Binding
  files : List String
  deriving Repr

def Report.summary (r : Report) : List (Datum × Datum) :=
  [(.text "destination", .text r.destination.text),
    (.text "binding", .text r.binding.name),
    (.text "files_written", .int r.files.length)]

/-- A folder given for templates holds none. -/
def checkTemplates (templates : Option Path) (b : Binding) : Except Fault Unit :=
  match templates with
  | none => .ok ()
  | some folder => .error (.templateMissing (b.folder ++ "/machine_header.j2") folder.text)

/-- Writes files below a destination as one batch and returns their names. -/
def writeFiles (destination : Path) (files : List File) : Action (List String) := do
  let batch := files.foldl (fun b (name, content) => b.addBytes name content) (Batch.start destination)
  let names ← Action.query fun _ => batch.pending
  let _ ← Action.file batch.commit
  return names

def exportedNotice (machine binding destination : String) (count : Nat) : Log.Notice :=
  .configured "export" .info "machine_exported"
    [("machine", .text machine), ("binding", .text binding), ("destination", .text destination),
      ("files_written", .int count)]

/-- Writes a machine as a bundle. The sources take their names from the destination. -/
def machine (o : Options) (m : Machine) (destination : Path) (b : Binding) : Action Report := do
  Action.query fun _ => checkTemplates o.templates b
  let written ← writeFiles destination (files m b destination.stem o.isSuspensible)
  Action.notify (exportedNotice m.name b.name destination.text written.length)
  return ⟨destination, b, written⟩

end MachineBundle.Export
