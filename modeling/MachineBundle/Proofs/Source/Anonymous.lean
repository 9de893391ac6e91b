import MachineBundle.Bundle.Export

/-!
# Sources without identifiers

The sources of a machine name its states by their names and positions. So they are the same for two plans that differ
in the identifiers of states only.
-/

namespace MachineBundle.Source

/-- The plan of a state with an identifier that tells nothing. -/
def StatePlan.anonymous (s : StatePlan) : StatePlan :=
  { s with id := .generated 0 }

def MachinePlan.anonymous (m : MachinePlan) : MachinePlan :=
  { m with states := m.states.map StatePlan.anonymous }

variable (m : MachinePlan) (s : StatePlan)

@[simp] theorem StatePlan.name_anonymous : s.anonymous.name = s.name := rfl

@[simp] theorem StatePlan.transitions_anonymous : s.anonymous.transitions = s.transitions := rfl

@[simp] theorem MachinePlan.binding_anonymous : m.anonymous.binding = m.binding := rfl

theorem length_states_anonymous : m.anonymous.states.length = m.states.length :=
  List.length_map _

theorem mapIdx_anonymous {α : Type} (states : List StatePlan) (f : Nat → StatePlan → α) :
    (states.map StatePlan.anonymous).mapIdx f = states.mapIdx fun i s => f i s.anonymous :=
  List.ext_getElem (by simp) fun i _ _ => by simp

theorem machineHeader_anonymous : Export.machineHeader m.anonymous = Export.machineHeader m := by
  unfold Export.machineHeader
  rw [m.binding_anonymous]
  cases m.binding with
  | c =>
    unfold C.machineHeader
    rw [length_states_anonymous]
    rfl
  | objectiveCpp =>
    unfold ObjectiveCpp.machineHeader
    rw [length_states_anonymous]
    rfl

theorem machineImplementation_anonymous :
    Export.machineImplementation m.anonymous = Export.machineImplementation m := by
  have hstates : m.anonymous.states = m.states.map StatePlan.anonymous := rfl
  unfold Export.machineImplementation
  rw [m.binding_anonymous]
  cases m.binding with
  | c =>
    unfold C.machineImplementation C.implementationTop C.stateAssignments
    rw [hstates, List.map_map, mapIdx_anonymous]
    rfl
  | objectiveCpp =>
    unfold ObjectiveCpp.machineImplementation ObjectiveCpp.implementationTop ObjectiveCpp.stateCreations
      ObjectiveCpp.implementationEnd
    rw [hstates, List.map_map, mapIdx_anonymous, mapIdx_anonymous]
    rfl

theorem stateHeader_anonymous : Export.stateHeader m.anonymous s.anonymous = Export.stateHeader m s := by
  unfold Export.stateHeader
  rw [m.binding_anonymous]
  cases m.binding <;> rfl

theorem stateImplementation_anonymous :
    Export.stateImplementation m.anonymous s.anonymous = Export.stateImplementation m s := by
  unfold Export.stateImplementation
  rw [m.binding_anonymous]
  cases m.binding <;> rfl

end MachineBundle.Source
