import MachineBundle.Action
import MachineBundle.Atomic.Access

/-!
# Single files

A file is written aside and takes the place of the old one when it is complete, so that readers see the old
content or the new one.
-/

namespace MachineBundle.Atomic

/-- A part of what is written. -/
inductive Chunk where
  | text (s : String)
  | bytes (b : ByteArray)

/-- What goes into a file, in order, and whether the writer gives up at the end. -/
structure Draft where
  /-- The letters that tell how the file is opened. -/
  mode : String
  charset : Text.Charset
  chunks : List Chunk
  failure : Option String

def Draft.ofText (content : String) (charset : Text.Charset) : Draft :=
  ⟨"w", charset, [.text content], none⟩

def Chunk.encode (charset : Text.Charset) : Chunk → Except Fault ByteArray
  | .text s =>
    match charset.encode s with
    | .ok b => .ok b
    | .error u => .error (.unencodable u)
  | .bytes b => .ok b

/-- What the chunks come to in a file opened for `access`. -/
def written (s : Scratch) (access : Access) (charset : Text.Charset) (chunks : List Chunk) :
    Except Fault ByteArray :=
  if access.purpose = .create then .error (.refused .alreadyThere s.text)
  else if access.isWritable then do return (← chunks.mapM (Chunk.encode charset)).foldl (· ++ ·) .empty
  else if chunks.isEmpty then .ok .empty
  else .error (.notWritable access.isBinary)

def Draft.content (d : Draft) (s : Scratch) : Except Fault ByteArray := do
  let access ← (Access.ofLetters d.mode).mapError .badMode
  let content ← written s access d.charset d.chunks
  match d.failure with
  | some text => throw (.interrupted text)
  | none => pure content

/-- Fills the scratch file and lets it take the place of `path`. -/
def complete (path : Path) (d : Draft) (s : Scratch) : Filing Unit := do
  let content ← Filing.orUndo (Filing.discard s) (liftExcept (d.content s))
  let filled ← Filing.fill s content
  Filing.orUndo (Filing.discard filled) (Filing.publish filled path)
where
  liftExcept (r : Except Fault ByteArray) : Filing ByteArray := ExceptT.mk (pure r)

def failureNotice (path : Path) (f : Fault) : Log.Notice :=
  .fixed "utils.atomic" .error "atomic_write_failed" [("path", .text path.text), ("error", .text f.message)]

/-- Writes a file. Without a scratch file nothing has been written yet, and its fault is reported as it is. -/
def write (path : Path) (d : Draft) : Action Unit := do
  let s ← Action.file (Filing.createScratch path)
  tryCatch (Action.file (complete path d s)) fun f => do
    Action.notify (failureNotice path f)
    throw (.writeFailed path.text f)

def writeText (path : Path) (content : String) : Action Unit :=
  write path (.ofText content .utf8)

end MachineBundle.Atomic
