import MachineBundle.Tree.Change

/-!
# Batches of files

Files are queued under a base directory and written together: every scratch file is complete before the first
of them takes its place.
-/

namespace MachineBundle

/-- A file to be written, with its content. -/
structure Pending where
  target : Path
  content : ByteArray
  deriving DecidableEq

structure Batch where
  base : Path
  queue : List Pending

namespace Batch

def start (base : Path) : Batch := ⟨base, []⟩

def addBytes (relative : String) (content : ByteArray) (b : Batch) : Batch :=
  { b with queue := b.queue ++ [⟨b.base.join relative, content⟩] }

def addText (relative text : String) (b : Batch) : Batch :=
  b.addBytes relative (Text.encode text)

/-- The name of a queued file as seen from the base. -/
def nameOf (base : Path) (w : Pending) : Except Fault String :=
  match w.target.relativeTo? base with
  | some p => .ok p.text
  | none => .error (.outsideBase w.target.text base.bareText)

/-- The names of the queued files, in order. -/
def pending (b : Batch) : Except Fault (List String) :=
  b.queue.mapM (nameOf b.base)

/-- A batch that has been written or given up holds nothing. -/
def emptied (b : Batch) : Batch :=
  { b with queue := [] }

/-! ## Writing -/

/-- A complete scratch file for a queued file. -/
def stage (w : Pending) : Filing Scratch := do
  let s ← Filing.createScratch w.target
  Filing.fill s w.content

/-- Stages all files; if one fails, none stays staged. -/
def stageAll : List Pending → Filing (List (Scratch × Path))
  | [] => pure []
  | w :: rest => do
    let s ← stage w
    let more ← Filing.orUndo (Filing.discard s) (stageAll rest)
    pure ((s, w.target) :: more)

def discardAll (staged : List (Scratch × Path)) : Filing Unit :=
  staged.forM fun (s, _) => Filing.discard s

/-- Puts staged files in their places, in order; at the first failure the rest is given up. -/
def publishAll : List (Scratch × Path) → Filing Unit
  | [] => pure ()
  | (s, target) :: rest => do
    Filing.orUndo (discardAll ((s, target) :: rest)) (Filing.publish s target)
    publishAll rest

/-- Writes all queued files and returns their number. -/
def commit (b : Batch) : Filing Nat :=
  Filing.within .batchFailed do
    publishAll (← stageAll b.queue)
    pure b.queue.length

end Batch

end MachineBundle
