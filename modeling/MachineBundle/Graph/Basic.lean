import MachineBundle.Ident
import MachineBundle.Table

/-!
# Machine graphs

A graph lists its states and transitions by identifier, in order, and keeps a record for each. The list and the
records are separate: an identifier may be listed without a record, and a record may outlive its listing.
-/

namespace MachineBundle

structure State where
  id : Ident
  name : String
  deriving DecidableEq, Repr

/-- An edge that leaves `source`. Without a target it leads to no known state. -/
structure Transition where
  id : Ident
  source : Ident
  label : String
  target : Option Ident
  deriving DecidableEq, Repr

/-- What stands for a state that is not there. -/
def absentState : String := "(none)"

def Transition.description (t : Transition) : String :=
  "( " ++ t.source.text ++ " -- " ++ t.label ++ " --> " ++ (t.target.map Ident.text).getD absentState ++ ")"

/-- The sequence with `id` in front: in place of the first state, or as the only one. -/
def replaceInitial (id : Ident) : List Ident → List Ident
  | [] => [id]
  | _ :: r => id :: r

structure Graph where
  states : List Ident
  transitions : List Ident
  stateRecords : Table Ident State
  transitionRecords : Table Ident Transition
  suspendState : Option Ident
  deriving DecidableEq, Repr

namespace Graph

def empty : Graph := ⟨[], [], [], [], none⟩

/-- The graph of the given records, in their order. Of two records with one identifier the later one counts. -/
def ofRecords (states : List State) (transitions : List Transition) (suspendState : Option Ident) : Graph where
  states := states.map State.id
  transitions := transitions.map Transition.id
  stateRecords := Table.ofEntries (states.map fun s => (s.id, s))
  transitionRecords := Table.ofEntries (transitions.map fun t => (t.id, t))
  suspendState := suspendState

/-! ## Queries -/

def state? (g : Graph) (id : Ident) : Option State :=
  g.stateRecords.get? id

def transition? (g : Graph) (id : Ident) : Option Transition :=
  g.transitionRecords.get? id

def initial? (g : Graph) : Option Ident :=
  g.states.head?

/-- The transitions that leave a state, in order. -/
def transitionsFrom (g : Graph) (id : Ident) : List Ident :=
  g.transitions.filter fun t =>
    match g.transition? t with
    | some r => r.source = id
    | none => false

def stateName? (g : Graph) (id : Ident) : Option String :=
  (g.state? id).map State.name

/-- The name of a state; its identifier if it has no name or an empty one. -/
def displayName (g : Graph) (id : Ident) : String :=
  match g.stateName? id with
  | some n => if n.isEmpty then id.text else n
  | none => id.text

def stateNames (g : Graph) : List String :=
  g.states.map g.displayName

/-- The position of a state in the sequence. -/
def stateIndex? (g : Graph) (id : Option Ident) : Option Nat :=
  id.bind fun i => g.states.findIdx? (· = i)

def label? (g : Graph) (id : Ident) : Option String :=
  (g.transition? id).map Transition.label

def isSuspensible (g : Graph) : Bool :=
  g.suspendState.isSome

/-- The records of the listed states, in order. -/
def listedStates (g : Graph) : List State :=
  g.states.filterMap g.state?

/-! ## Changes -/

def setInitial (id : Ident) (g : Graph) : Graph :=
  { g with states := replaceInitial id g.states }

/-- Gives a state a name. A state without a record is appended to the sequence. -/
def setName (name : String) (id : Ident) (g : Graph) : Graph :=
  { g with
    states := if (g.state? id).isSome then g.states else g.states ++ [id]
    stateRecords := g.stateRecords.set id ⟨id, name⟩ }

/-- The last state; an empty sequence first gets a fresh state with the name `Initial`. -/
def lastState (g : Graph) (supply : Supply) : Ident × Graph × Supply :=
  match g.states.getLast? with
  | some s => (s, g, supply)
  | none =>
    let (id, supply) := supply.draw
    (id, { g with states := [id], stateRecords := g.stateRecords.set id ⟨id, "Initial"⟩ }, supply)

/-- Labels a transition. One without a record is appended and leaves the last state. -/
def setLabel (label : String) (id : Ident) (g : Graph) (supply : Supply) : Graph × Supply :=
  match g.transition? id with
  | some t => ({ g with transitionRecords := g.transitionRecords.set id { t with label := label } }, supply)
  | none =>
    let (source, g, supply) := g.lastState supply
    ({ g with
        transitions := g.transitions ++ [id]
        transitionRecords := g.transitionRecords.set id ⟨id, source, label, none⟩ }, supply)

/-! ## Descriptions -/

def describeState (g : Graph) (id : Ident) : String :=
  ((g.state? id).map State.name).getD id.text

def describeSuspendState (g : Graph) : String :=
  (g.suspendState.map g.describeState).getD absentState

/-- A line for each state and one for the suspend state. -/
def description (g : Graph) : String :=
  "\n".intercalate (g.states.map g.describeState ++ [g.describeSuspendState])

end Graph

end MachineBundle
