import MachineBundle.Tree.Basic

/-!
# Changes of the tree

Directories are created and files replaced one call at a time. A call that fails leaves behind what the calls
before it have done.
-/

namespace MachineBundle

/-- A series of calls on the tree. -/
abbrev Filing := ExceptT Fault (StateM Tree)

namespace Filing

/-- Carries out `undo` if `act` fails. -/
def orUndo {α : Type} (undo : Filing Unit) (act : Filing α) : Filing α :=
  tryCatch act fun f => do
    undo
    throw f

/-- Reports a failure of `act` as a part of a larger one. -/
def within {α : Type} (wrap : Fault → Fault) (act : Filing α) : Filing α :=
  tryCatch act fun f => throw (wrap f)

/-! ## Directories -/

def makeDirectory (p : Path) : Filing Unit := do
  if Tree.hasNull p then throw .nullCharacter
  let t ← get
  match t.place p with
  | .ok (.taken ..) => throw (.refused .alreadyThere p.text)
  | .ok (.free directory name) => set (t.setNode (directory ++ [name]) .directory)
  | .error e => throw (.refused e p.text)

/-- A directory that is there already is as good as one made. -/
def acceptDirectory (p : Path) (f : Fault) : Filing Unit := do
  match (← get).isDirectory p with
  | .ok true => pure ()
  | _ => throw f

/-- Makes the directory with these components, last one first, after those above it that are missing. -/
def makeDirectoriesUp (anchor : Anchor) : List String → Filing Unit
  | [] => acceptDirectory ⟨anchor, []⟩ (.refused .notFound (Path.text ⟨anchor, []⟩))
  | name :: above =>
    let p : Path := ⟨anchor, (name :: above).reverse⟩
    tryCatch (makeDirectory p) fun
      | .refused .notFound _ => do
        makeDirectoriesUp anchor above
        tryCatch (makeDirectory p) (acceptDirectory p)
      | f => acceptDirectory p f

def makeDirectories (p : Path) : Filing Unit :=
  makeDirectoriesUp p.anchor p.parts.reverse

/-! ## Scratch files -/

/-- An empty scratch file beside `target`, whose directory is made if it is missing. -/
def createScratch (target : Path) : Filing Scratch := do
  makeDirectories target.parent
  if Tree.hasNull target then throw .nullCharacter
  let t ← get
  match t.place target.parent with
  | .ok (.taken directory .directory) =>
    let s := Scratch.start t.home directory target.name
    if Tree.nameLimit < (Scratch.nameFor target.name).utf8ByteSize ∨ Tree.pathLimit ≤ s.text.utf8ByteSize then
      throw (.refused .nameTooLong s.text)
    set { t with scratch := t.scratch ++ [s] }
    pure s
  | .ok _ => throw (.refused .notDirectory target.parent.text)
  | .error e => throw (.refused e target.parent.text)

def discard (s : Scratch) : Filing Unit :=
  modify fun t => { t with scratch := t.scratch.erase s }

def fill (s : Scratch) (content : ByteArray) : Filing Scratch := do
  let filled := { s with content }
  modify fun t => { t with scratch := t.scratch.erase s ++ [filled] }
  pure filled

/-- Lets a scratch file take the place of `target`, which must not be a directory. -/
def publish (s : Scratch) (target : Path) : Filing Unit := do
  let t ← get
  let refuse (r : Refusal) : Filing Unit := throw (.renameRefused r s.text target.text)
  let settle (l : Location) : Filing Unit := do
    set (t.setNode l (.file s.content))
    discard s
  if target.name = "" ∨ target.name = ".." then refuse .busy
  else
    match t.place target with
    | .ok (.taken _ .directory) => refuse .isDirectory
    | .ok (.taken l (.file _)) => settle l
    | .ok (.free directory name) => settle (directory ++ [name])
    | .error e => refuse e

end Filing

end MachineBundle
