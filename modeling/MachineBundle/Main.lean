import MachineBundle.CommandLine.Run
import Std.Time.DateTime.PlainDateTime
import Std.Time.DateTime.Timestamp

/-!
# The program

The part of the file system that the arguments name is read into a tree, the command runs on that tree, and what it
has changed is written back.
-/

namespace MachineBundle.Disk

/-! ## Places -/

def textOf (l : Location) : String :=
  "/" ++ "/".intercalate l

def here : IO Location := do
  return (Path.ofText (← IO.currentDir).toString).parts

/-- The location that a path leads to if there is nothing but directories on the way. -/
def locationOf (home : Location) (p : Path) : Location :=
  p.parts.foldl (fun l part => if part = ".." then l.dropLast else l ++ [part])
    (if p.anchor = .none then home else [])

/-- Two dots lead up only after the components before them have been entered, so these are named as well. -/
def locationsOf (home : Location) (p : Path) : List Location :=
  (List.range (p.parts.length + 1)).map fun n => locationOf home { p with parts := p.parts.take n }

/-! ## Reading -/

/-- How far directories are followed into each other. -/
def depthLimit : Nat := 32

/-- The node at a location, without what it holds. What cannot be read is left out. -/
def readNode (t : Tree) (l : Location) : IO Tree := do
  let place := (← IO.currentDir) / textOf l
  try
    if ← place.isDir then return t.setNode l .directory
    if ← place.pathExists then return t.setNode l (.file (← IO.FS.readBinFile place))
    return t
  catch _ => return t

def namesIn (l : Location) : IO (List String) := do
  let place := (← IO.currentDir) / textOf l
  try
    return (← place.readDir).toList.map fun e => e.fileName
  catch _ => return []

/-- The node at a location with all that it holds, down to a depth. -/
def readAll (t : Tree) (l : Location) : Nat → IO Tree
  | 0 => return t
  | depth + 1 => do
    let t ← readNode t l
    if t.node? l = some .directory then
      (← namesIn l).foldlM (fun t name => readAll t (l ++ [name]) depth) t
    else return t

/-- The way to a path, and all that stands there. -/
def readPath (t : Tree) (p : Path) : IO Tree := do
  let t ← (locationsOf t.home p).foldlM readNode t
  readAll t (locationOf t.home p) depthLimit

/-! ## What arguments name -/

/-- The texts of arguments that can be paths: the arguments, and the values of options. -/
def pathTexts (arguments : List String) : List String :=
  arguments ++ arguments.filterMap fun a => (CommandLine.splitValue a).2

/-- The settings that the directories with these paths hold, as far as there are any. -/
def settingsIn (t : Tree) (directories : List Path) : List Settings :=
  directories.filterMap fun d =>
    match t.readBytes (d.join Settings.fileName) >>= Settings.ofBytes with
    | .ok s => some s
    | .error _ => none

/-- The part of the file system that a command with these arguments may look at. -/
def readFor (home : Location) (arguments : List String) : IO Tree := do
  let texts := pathTexts arguments
  let directories := Path.here :: texts.map Path.ofText
  let t ← (directories.map (·.join Settings.fileName)).foldlM readPath
    ⟨home, [(home, .directory)], []⟩
  let settings := settingsIn t directories
  let suffixes := (Settings.usual :: settings).map Settings.machineSuffix
  let bundles := texts.flatMap fun text => suffixes.map fun suffix => Path.ofText (text ++ suffix)
  (texts.map Path.ofText ++ bundles ++ settings.filterMap Settings.templates).foldlM readPath t

/-! ## Writing -/

/-- The nodes of a tree that another one does not have. -/
def changes (before after : Tree) : List (Location × Node) :=
  after.nodes.filter fun (l, n) => decide (before.node? l ≠ some n)

def scratchFor (l : Location) : String :=
  textOf (l.dropLast ++ [Scratch.nameFor (l.getLast?.getD "")])

/-- All files are written aside before the first of them takes its place. -/
def write (before after : Tree) : IO Unit := do
  let changed := changes before after
  for (l, n) in changed do
    match n with
    | .directory => IO.FS.createDirAll (textOf l)
    | .file _ => pure ()
  for (l, n) in changed do
    match n with
    | .directory => pure ()
    | .file content => IO.FS.writeBinFile (scratchFor l) content
  for (l, n) in changed do
    match n with
    | .directory => pure ()
    | .file _ => IO.FS.rename (scratchFor l) (textOf l)

/-! ## Time -/

/-- The present as logs write it, in universal time. -/
def now : IO String := do
  let stamp ← Std.Time.Timestamp.now
  let t := Std.Time.PlainDateTime.ofWallTime (.ofNanoseconds stamp.toNanosecondsSinceUnixEpoch)
  let date : Date := ⟨t.date.year.toInt.toNat, t.date.month.val.toNat, t.date.day.val.toNat⟩
  let time : TimeOfDay :=
    ⟨t.time.hour.val.toNat, t.time.minute.val.toNat, t.time.second.val.toNat, t.time.nanosecond.val.toNat / 1000⟩
  return date.iso ++ "T" ++ time.iso ++ zoneSuffix 0

end MachineBundle.Disk

open MachineBundle in
/-- Runs the command that the arguments name and ends with its code. -/
def main (arguments : List String) : IO UInt32 := do
  let tree ← Disk.readFor (← Disk.here) arguments
  let time ← Disk.now
  let start := Session.start
  let session := { start with scene := { start.scene with tree } }
  let (reply, session) := CommandLine.run time arguments session
  Disk.write tree session.scene.tree
  let (lines, _) := session.takeLines time
  for line in lines do
    IO.eprintln line
  match reply with
  | .ok reply =>
    IO.print reply.out
    IO.eprint reply.err
    return .ofNat reply.code
  | .error f =>
    IO.eprintln ("Error: " ++ f.message)
    return 1
