import MachineBundle.Bundle.Machine
import MachineBundle.Text.Alphanumeric

/-!
# Plans of sources

What the generated sources of a machine depend on: names, positions and guards, without identifiers to follow.
-/

namespace MachineBundle.Source

structure TransitionPlan where
  index : Nat
  label : String
  /-- The position of the target, if it is one of the machine's states. -/
  target : Option Nat
  deriving DecidableEq, Repr

structure StatePlan where
  id : Ident
  name : String
  transitions : List TransitionPlan
  deriving DecidableEq, Repr

structure MachinePlan where
  name : String
  binding : Binding
  states : List StatePlan
  isSuspensible : Bool
  /-- The position of the suspend state, in sources that support suspension. -/
  suspendIndex : Option Nat
  deriving DecidableEq, Repr

/-! ## Plans of machines -/

def transitionPlan (g : Graph) (index : Nat) (t : Transition) : TransitionPlan :=
  ⟨index, t.label, g.stateIndex? t.target⟩

/-- The records of the transitions that leave a state, in order. -/
def outgoing (g : Graph) (state : Ident) : List Transition :=
  (g.transitionsFrom state).filterMap g.transition?

def statePlan (g : Graph) (s : State) : StatePlan :=
  ⟨s.id, s.name, (outgoing g s.id).mapIdx (transitionPlan g)⟩

/-- The plan for writing a machine under a name, in the language of a binding. -/
def MachinePlan.of (m : Machine) (b : Binding) (name : String) (isSuspensible : Bool) : MachinePlan where
  name := name
  binding := b
  states := m.graph.listedStates.map (statePlan m.graph)
  isSuspensible := isSuspensible
  suspendIndex := if isSuspensible then m.graph.stateIndex? m.graph.suspendState else none

/-! ## Names in sources -/

/-- A name as a part of constants: in upper case, with a low line for all that is no letter or digit. -/
def constantName (name : String) : String :=
  Text.upper (String.ofList (name.toList.map fun c => if Text.isAlphanumeric c then c else '_'))

def StatePlan.constant (s : StatePlan) : String :=
  constantName s.name

def StatePlan.lowerName (s : StatePlan) : String :=
  Text.lower s.name

def MachinePlan.constant (m : MachinePlan) : String :=
  constantName m.name

def MachinePlan.lowerName (m : MachinePlan) : String :=
  Text.lower m.name

def MachinePlan.headerFile (m : MachinePlan) : String :=
  m.binding.headerFile m.name

def MachinePlan.implementationFile (m : MachinePlan) : String :=
  m.binding.implementationFile m.name

/-! ## Lines -/

/-- Text from its lines, each of which is ended. -/
def unlines (lines : List String) : String :=
  String.join (lines.map (· ++ "\n"))

/-- Lines that are there only under a condition. -/
def onlyIf (condition : Bool) (lines : List String) : List String :=
  if condition then lines else []

/-- The comment at the top of a source file. -/
def banner (file : String) : List String :=
  ["//",
    "// " ++ file,
    "//",
    "// Automatically created using fsmconvert -- do not change manually!",
    "//"]

end MachineBundle.Source
