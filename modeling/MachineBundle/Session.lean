import MachineBundle.Action
import MachineBundle.Log.Line

/-!
# Sessions

A session is a series of actions on one tree, with one supply of identifiers, one identifier for the lines of its
log, and logging settings that may change on the way.
-/

namespace MachineBundle

structure Session where
  scene : Scene
  settings : Log.Settings
  /-- What ties the lines of the log together, empty until it is needed. -/
  correlation : String

namespace Session

def start : Session :=
  ⟨.start, .usual, ""⟩

def perform {α : Type} (act : Action α) (s : Session) : Except Fault α × Session :=
  let (result, scene) := act.run.run s.scene
  (result, { s with scene })

def configure (settings : Log.Settings) (s : Session) : Session :=
  { s with settings }

/-- How much of an identifier ties the lines of a log together. -/
def correlationLength : Nat := 8

/-- The identifier that ties the lines of the log together; one is made up if there is none. -/
def correlate (s : Session) : String × Session :=
  if s.correlation.isEmpty then
    let (id, supply) := s.scene.trail.supply.draw
    let correlation := String.ofList (id.text.toList.take correlationLength)
    (correlation, { s with correlation, scene := { s.scene with trail := { s.scene.trail with supply } } })
  else (s.correlation, s)

/-- Takes notices as lines of a log; those in `others` stay. -/
def takeFrom (time : String) (notices others : List Log.Notice) (s : Session) : List String × Session :=
  let lines := notices.filterMap fun n => n.line? s.settings ⟨time, s.correlation⟩
  (lines, { s with scene := { s.scene with trail := { s.scene.trail with notices := others } } })

/-- Takes the notices left so far as lines of a log. -/
def takeLines (time : String) (s : Session) : List String × Session :=
  s.takeFrom time s.scene.trail.notices []

/-- Takes the notices that obey what has been configured as lines of a log of their own. -/
def takeConfiguredLines (time : String) (s : Session) : List String × Session :=
  let (configured, fixed) := s.scene.trail.notices.partition (·.voice = .configured)
  s.takeFrom time configured fixed

end Session

end MachineBundle
