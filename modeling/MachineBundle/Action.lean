import MachineBundle.Ident
import MachineBundle.Log.Notice
import MachineBundle.Tree.Change

/-!
# Readings and actions

A reading looks at a tree that stays as it is; an action may change it. Both can draw identifiers and leave
notices, also when they fail.
-/

namespace MachineBundle

/-- What readings leave behind. -/
structure Trail where
  supply : Supply
  notices : List Log.Notice

abbrev Reading := ReaderT Tree (ExceptT Fault (StateM Trail))

namespace Reading

/-- A question to the tree. -/
def query {α : Type} (ask : Tree → Except Fault α) : Reading α := fun t =>
  ExceptT.mk fun trail => (ask t, trail)

def notify (n : Log.Notice) : Reading Unit :=
  modify fun trail => { trail with notices := trail.notices ++ [n] }

/-- A fresh identifier. -/
def draw : Reading Ident :=
  modifyGet fun trail => (trail.supply.draw.1, { trail with supply := trail.supply.draw.2 })

/-- Marks the notices that `act` leaves as being about a machine. -/
def about {α : Type} (machine : String) (act : Reading α) : Reading α := fun t =>
  ExceptT.mk fun trail =>
    let (result, after) := (act.run t).run.run { trail with notices := [] }
    (result, { after with notices := trail.notices ++ after.notices.map fun n => { n with machine } })

end Reading

structure Scene where
  tree : Tree
  trail : Trail

def Scene.start : Scene :=
  ⟨.empty, ⟨.start, []⟩⟩

abbrev Action := ExceptT Fault (StateM Scene)

namespace Action

def read {α : Type} (act : Reading α) : Action α :=
  ExceptT.mk fun scene =>
    let (result, trail) := (act.run scene.tree).run.run scene.trail
    (result, { scene with trail })

def file {α : Type} (act : Filing α) : Action α :=
  ExceptT.mk fun scene =>
    let (result, tree) := act.run.run scene.tree
    (result, { scene with tree })

def query {α : Type} (ask : Tree → Except Fault α) : Action α :=
  read (.query ask)

def notify (n : Log.Notice) : Action Unit :=
  read (.notify n)

end Action

end MachineBundle
