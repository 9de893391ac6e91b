import MachineBundle.Action
import MachineBundle.Format
import MachineBundle.Graph.Basic

/-!
# What a bundle records

A bundle is a directory. Its transitions, targets, suspend state and sections are found in the files where the
language binding keeps them; a file that cannot be read counts as recording nothing.
-/

namespace MachineBundle.Bundle

def languageFile : String := "Language"

def statesFile : String := "States"

def windowLayoutFile : String := "WindowLayout.plist"

/-- The guard of a transition whose file cannot be read. -/
def defaultGuard : String := "true"

/-- The content of a file of the bundle, or nothing if it cannot be read. -/
def content? (t : Tree) (bundle : Path) (file : String) : Except Fault (Option String) :=
  match t.readText (bundle.join file) with
  | .ok s => .ok (some s)
  | .error f => if f.isUnreadable then .ok none else .error f

/-- The number that a pattern finds in the content of a file, if there is any. -/
def number? (p : Scan.Pattern) : Option String → Except Fault (Option Nat)
  | none => .ok none
  | some text =>
    match Scan.firstNumber p text with
    | .ok n => .ok n
    | .error long => .error (.numberTooLong long.length)

/-- The state at a recorded position. -/
def stateAt? (states : List State) (index : Option Int) : Option Ident :=
  match index with
  | some (.ofNat i) => states[i]?.map State.id
  | _ => none

/-! ## Language -/

def unreadableLanguage (bundle : Path) (f : Fault) : Log.Notice :=
  .fixed "bindings" .warning "language_file_unreadable" [("path", .text bundle.text), ("error", .text f.message)]

/-- The text of the language record. -/
def languageRecord? (bundle : Path) : Reading (Option String) := do
  if ← Reading.query (·.isFile (bundle.join languageFile)) then
    tryCatch (some <$> Reading.query (·.readText (bundle.join languageFile))) fun f => do
      if !f.isUnreadable then throw f
      Reading.notify (unreadableLanguage bundle f)
      pure none
  else pure none

/-- The binding of the recorded language, if it has one. -/
def binding? (bundle : Path) : Reading (Option Binding) := do
  return (← languageRecord? bundle).bind Binding.ofLanguage?

def bindingOrDefault (bundle : Path) : Reading Binding := do
  return (← binding? bundle).getD .default

/-! ## States -/

/-- The names in a list of states: its lines without the blanks around them, as far as anything is left. -/
def namesIn (text : String) : List String :=
  ((Text.lines text.toList).map Text.trimBlanks).filterMap fun name =>
    if name.isEmpty then none else some (String.ofList name)

def stateNames (t : Tree) (bundle : Path) : Except Fault (List String) := do
  return namesIn (← t.readText (bundle.join statesFile))

/-! ## Transitions -/

/-- The number of transitions that leave a state; none if the state header records no number. -/
def transitionCount (b : Binding) (t : Tree) (bundle : Path) (state : String) : Except Fault Nat := do
  let header ← content? t bundle (Binding.stateHeaderFile state)
  return (← number? b.countPattern header).getD 0

/-- Fails unless the state has a transition at the index. -/
def checkIndex (b : Binding) (t : Tree) (bundle : Path) (state : String) (index : Int) : Except Fault Unit := do
  let count ← transitionCount b t bundle state
  if 0 ≤ index ∧ index < count then pure ()
  else throw (.transitionOutOfRange index state bundle.name count)

def unreadableGuard (b : Binding) (bundle : Path) (file : String) (f : Fault) : Log.Notice :=
  .fixed ("bindings." ++ b.name) .warning "binding_file_unreadable"
    [("path", .text bundle.text), ("file", .text file), ("error", .text f.message)]

/-- The guard of a transition, without the blanks around it. -/
def guardOf (b : Binding) (bundle : Path) (state : String) (index : Int) : Reading String := do
  Reading.query fun t => checkIndex b t bundle state index
  let file := Binding.guardFile state index
  tryCatch (Text.trimmed <$> Reading.query (·.readText (bundle.join file))) fun f => do
    if !f.isUnreadable then throw f
    Reading.notify (unreadableGuard b bundle file f)
    pure defaultGuard

/-- The target of a transition among the given states. -/
def targetOf (b : Binding) (t : Tree) (bundle : Path) (states : List State) (state : String) (index : Int) :
    Except Fault (Option Ident) := do
  checkIndex b t bundle state index
  let header ← content? t bundle (Binding.stateHeaderFile state)
  let position ← number? (b.targetPattern index) header
  return stateAt? states (position.map Int.ofNat)

/-- The suspend state among the given states. -/
def suspendState (b : Binding) (t : Tree) (bundle : Path) (states : List State) : Except Fault (Option Ident) := do
  let implementation ← content? t bundle (b.implementationFile bundle.stem)
  let position ← number? b.suspendPattern implementation
  return stateAt? states (position.map Int.ofNat)

/-! ## Sections -/

/-- Adds the sections that the files hold. -/
def addSections (t : Tree) (bundle : Path) :
    List (Section × String) → Boilerplate → Except Fault Boilerplate
  | [], p => .ok p
  | (s, file) :: rest, p => do
    match ← content? t bundle file with
    | some code => addSections t bundle rest (p.set s code)
    | none => addSections t bundle rest p

def boilerplate (b : Binding) (t : Tree) (bundle : Path) : Except Fault Boilerplate :=
  addSections t bundle (b.sectionFiles bundle.stem) .blank

def stateBoilerplate (t : Tree) (bundle : Path) (state : String) : Except Fault Boilerplate :=
  addSections t bundle (Binding.stateSectionFiles state) .blank

/-- The window layout, which is kept as it is. -/
def windowLayout (t : Tree) (bundle : Path) : Except Fault (Option ByteArray) := do
  if ← t.isFile (bundle.join windowLayoutFile) then
    return some (← t.readBytes (bundle.join windowLayoutFile))
  else return none

end MachineBundle.Bundle
