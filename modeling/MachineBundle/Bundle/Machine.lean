import MachineBundle.Bundle.Query
import MachineBundle.Datum.Basic
import MachineBundle.Layout

/-!
# Machines

A machine is a graph together with what its bundle carries besides.
-/

namespace MachineBundle

structure Machine where
  name : String
  binding : Binding
  graph : Graph
  boilerplate : Boilerplate
  stateBoilerplate : Table Ident Boilerplate
  stateLayout : Table Ident StateLayout
  windowLayout : Option ByteArray

namespace Machine

/-- A machine without states. -/
def empty (name : String) (binding : Binding) : Machine :=
  ⟨name, binding, .empty, .blank, [], [], none⟩

/-- The hand-written code of a state, blank if none is known. -/
def boilerplateOf (m : Machine) (state : Ident) : Boilerplate :=
  (m.stateBoilerplate.get? state).getD .blank

/-- The name of the suspend state, if there is one and it has a record. -/
def suspendStateName? (m : Machine) : Option String :=
  m.graph.suspendState.bind m.graph.stateName?

def summary (m : Machine) : Datum :=
  .map
    [(.text "name", .text m.name),
      (.text "language", .text m.binding.name),
      (.text "states", .list (m.graph.stateNames.map .text)),
      (.text "transitions", .int m.graph.transitions.length),
      (.text "suspend_state", (m.suspendStateName?.map Datum.text).getD .null)]

/-- Sets a section of the machine's own code. -/
def setCode (s : Section) (code : String) (m : Machine) : Machine :=
  { m with boilerplate := m.boilerplate.set s code }

/-- Makes room for the code of a state. -/
def ensureBoilerplate (state : Ident) (m : Machine) : Machine :=
  if (m.stateBoilerplate.get? state).isSome then m
  else { m with stateBoilerplate := m.stateBoilerplate.set state .blank }

/-- Sets a section of the code of a state. -/
def setStateCode (state : Ident) (s : Section) (code : String) (m : Machine) : Machine :=
  { m with stateBoilerplate := m.stateBoilerplate.set state ((m.boilerplateOf state).set s code) }

/-! ## Loading -/

/-- A state with a fresh identifier. -/
def freshState (name : String) : Reading State := do
  return ⟨← Reading.draw, name⟩

def readTransition (b : Binding) (bundle : Path) (states : List State) (s : State) (index : Nat) :
    Reading Transition := do
  let label ← Bundle.guardOf b bundle s.name index
  let target ← Reading.query fun t => Bundle.targetOf b t bundle states s.name index
  return ⟨← Reading.draw, s.id, label, target⟩

/-- The transitions that leave a state, by index. -/
def readTransitions (b : Binding) (bundle : Path) (states : List State) (s : State) : Reading (List Transition) := do
  let count ← Reading.query fun t => Bundle.transitionCount b t bundle s.name
  (List.range count).mapM fun index => readTransition b bundle states s index

def readGraph (b : Binding) (bundle : Path) : Reading (List State × Graph) := do
  let names ← Reading.query fun t => Bundle.stateNames t bundle
  let states ← names.mapM freshState
  let transitions ← states.mapM (readTransitions b bundle states)
  let suspend ← Reading.query fun t => Bundle.suspendState b t bundle states
  return (states, .ofRecords states transitions.flatten suspend)

/-- The grid places of states in order. -/
def gridLayout (states : List State) : Table Ident StateLayout :=
  .ofEntries (states.mapIdx fun i s => (s.id, StateLayout.usual i))

def readParts (b : Binding) (bundle : Path) : Reading Machine := do
  let (states, graph) ← readGraph b bundle
  let boilerplate ← Reading.query fun t => Bundle.boilerplate b t bundle
  let stateBoilerplate ← states.mapM fun s => do
    return (s.id, ← Reading.query fun t => Bundle.stateBoilerplate t bundle s.name)
  let windowLayout ← Reading.query fun t => Bundle.windowLayout t bundle
  return {
    name := bundle.stem
    binding := b
    graph
    boilerplate
    stateBoilerplate := .ofEntries stateBoilerplate
    stateLayout := gridLayout states
    windowLayout }

/-- Reads the machine in a bundle, through the binding of its language unless another one is given. -/
def load (bundle : Path) (binding : Option Binding) : Reading Machine :=
  Reading.about bundle.stem do
    let b ← match binding with
      | some b => pure b
      | none => Bundle.bindingOrDefault bundle
    readParts b bundle

end Machine

end MachineBundle
