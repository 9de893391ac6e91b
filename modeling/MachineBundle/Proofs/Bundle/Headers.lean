import MachineBundle.Bundle.Export
import MachineBundle.Proofs.Source.Guards
import MachineBundle.Proofs.Source.Statements.C

/-!
# Headers that are read together

The implementation of a machine includes the header of the machine and those of all states. Each of them is read, if the
guards differ, and each declares a function of its own, if the names that are made for the functions differ. Both are
decided by the names of the states.
-/

namespace MachineBundle.Export

open Source

/-- The headers of a machine with their names: that of the machine, and those of its states in order. -/
def headers (m : MachinePlan) : List (String × List String) :=
  (m.headerFile, machineHeader m) :: m.states.map fun s => (Binding.stateHeaderFile s.name, stateHeader m s)

/-- The guards of the headers. -/
def guards (m : MachinePlan) : List String :=
  (headers m).flatMap fun h => readLines guard? h.2

/-- The functions that state headers in C declare. -/
def accessors (m : MachinePlan) : List String :=
  m.states.flatMap fun s => readLines C.declared? (stateHeader m s)

/-- No two headers come to have one guard. In C names count by their constants, and the guard of a machine is taken for that
of a state only if both constants are made of one word. In Objective-C++ names count as they are. -/
def NamesApart (b : Binding) (machine : String) (states : List String) : Prop :=
  match b with
  | .c => (states.map constantName).Nodup ∧
      ¬(C.MachineOnly (constantName machine) ∧ "MACHINE" ∈ states.map constantName)
  | .objectiveCpp => states.Nodup

/-! ## What headers tell -/

section

variable {m : MachinePlan}

theorem guard_machineHeader (m : MachinePlan) : readLines guard? (machineHeader m) =
    [match m.binding with | .c => C.machineGuard m | .objectiveCpp => ObjectiveCpp.machineGuard m] := by
  unfold machineHeader
  cases m.binding with
  | c => exact C.readLines_guard_machineHeader m
  | objectiveCpp => exact ObjectiveCpp.readLines_guard_machineHeader m

theorem guard_stateHeader (m : MachinePlan) (s : StatePlan) : readLines guard? (stateHeader m s) =
    [match m.binding with | .c => C.stateGuard m s | .objectiveCpp => ObjectiveCpp.stateGuard m s] := by
  unfold stateHeader
  cases m.binding with
  | c => exact C.readLines_guard_stateHeader m s
  | objectiveCpp => exact ObjectiveCpp.readLines_guard_stateHeader m s

theorem exists_guard : ∀ header ∈ (headers m).map Prod.snd, ∃ g, readLines guard? header = [g] := by
  unfold headers
  rw [List.map_cons, List.map_map, List.forall_mem_cons, List.forall_mem_map]
  exact ⟨⟨_, guard_machineHeader m⟩, fun s _ => ⟨_, guard_stateHeader m s⟩⟩

theorem guards_eq (m : MachinePlan) : guards m = match m.binding with
    | .c => C.machineGuard m :: m.states.map (C.stateGuard m)
    | .objectiveCpp => ObjectiveCpp.machineGuard m :: m.states.map (ObjectiveCpp.stateGuard m) := by
  unfold guards headers
  rw [List.flatMap_cons, guard_machineHeader, List.flatMap_map, List.flatMap_congr fun s _ => guard_stateHeader m s,
    List.map_eq_flatMap, List.map_eq_flatMap]
  cases m.binding <;> rfl

/-- All headers are read exactly if their guards differ. -/
theorem readOnce_headers_iff (m : MachinePlan) :
    readOnce [] ((headers m).map Prod.snd) = (headers m).map Prod.snd ↔ (guards m).Nodup := by
  have hguards : ((headers m).map Prod.snd).flatMap (readLines guard?) = guards m := List.flatMap_map ..
  rw [readOnce_eq_self_iff exists_guard, hguards]
  simp

theorem nodup_guards_iff (m : MachinePlan) :
    (guards m).Nodup ↔ NamesApart m.binding m.name (m.states.map StatePlan.name) := by
  have hconstants : (m.states.map StatePlan.name).map constantName = m.states.map StatePlan.constant := List.map_map
  unfold NamesApart
  rw [guards_eq, hconstants]
  cases m.binding with
  | c => exact C.nodup_guards_iff m
  | objectiveCpp => exact ObjectiveCpp.nodup_guards_iff m

theorem nodup_accessors_iff (hb : m.binding = .c) :
    (accessors m).Nodup ↔ ((m.states.map StatePlan.name).map Text.lower).Nodup := by
  have hdeclared : ∀ s, readLines C.declared? (stateHeader m s) = [C.accessor m s] := by
    intro s
    rw [stateHeader, hb]
    exact C.readLines_declared
  have haccessors : accessors m = ((m.states.map StatePlan.name).map Text.lower).map fun lower =>
      "fsm_" ++ m.lowerName ++ "_" ++ lower ++ "_state" := by
    rw [accessors, List.flatMap_congr fun s _ => hdeclared s, List.map_map, List.map_map, List.map_eq_flatMap]
    rfl
  rw [haccessors, List.nodup_map_iff (surround_injective _ _)]

theorem readLines_headers (m : MachinePlan) :
    readLines included? (machineImplementation m) = (headers m).map Prod.fst := by
  unfold machineImplementation headers
  rw [List.map_cons, List.map_map]
  cases m.binding with
  | c => exact C.readLines_included m
  | objectiveCpp => exact ObjectiveCpp.readLines_included m

end

/-! ## Headers of a machine -/

/-- The implementation of a machine includes all of its headers, and all of them have different guards, and so all of them are
read, exactly if the names are apart. In C the functions of the states are different exactly if the names of the states are so
in lower case. -/
theorem headers_differ_iff (m : Machine) (b : Binding) (name : String) (isSuspensible : Bool) :
    let plan := MachinePlan.of m b name isSuspensible
    let names := m.graph.listedStates.map State.name
    readLines included? (machineImplementation plan) = (headers plan).map Prod.fst ∧
    ((guards plan).Nodup ↔ NamesApart b name names) ∧
    (readOnce [] ((headers plan).map Prod.snd) = (headers plan).map Prod.snd ↔ NamesApart b name names) ∧
    (b = .c → ((accessors plan).Nodup ↔ (names.map Text.lower).Nodup)) := by
  intro plan names
  have hnames : plan.states.map StatePlan.name = names := List.map_map
  have hguards : (guards plan).Nodup ↔ NamesApart b name names := hnames ▸ nodup_guards_iff plan
  exact ⟨readLines_headers plan, hguards, (readOnce_headers_iff plan).trans hguards, fun hb => hnames ▸ nodup_accessors_iff hb⟩

/-- Two states whose names differ in case only. -/
def twoCases : Machine where
  name := "M"
  binding := .c
  graph := .ofRecords [⟨.generated 1, "a"⟩, ⟨.generated 2, "A"⟩] [] none
  boilerplate := .blank
  stateBoilerplate := []
  stateLayout := []
  windowLayout := none

/-- Of two states whose names differ in case only, the header of the second one is passed over, and would declare the function
of the first one. -/
theorem headers_of_two_cases :
    let plan := MachinePlan.of twoCases .c "M" true
    (twoCases.graph.listedStates.map State.name).Nodup ∧ "" ∉ twoCases.graph.listedStates.map State.name ∧
      ¬(guards plan).Nodup ∧ ¬(accessors plan).Nodup ∧
      readOnce [] ((headers plan).map Prod.snd) ≠ (headers plan).map Prod.snd := by
  intro plan
  have hnames : twoCases.graph.listedStates.map State.name = ["a", "A"] := rfl
  have hconstants : ["a", "A"].map constantName = ["A", "A"] := rfl
  have hlower : ["a", "A"].map Text.lower = ["a", "a"] := rfl
  have hguards : ¬(guards plan).Nodup := by
    rw [nodup_guards_iff]
    rintro ⟨hnodup, -⟩
    change (["a", "A"].map constantName).Nodup at hnodup
    rw [hconstants] at hnodup
    exact absurd hnodup (by decide)
  have haccessors : ¬(accessors plan).Nodup := by
    rw [nodup_accessors_iff rfl]
    change ¬(["a", "A"].map Text.lower).Nodup
    rw [hlower]
    decide
  rw [hnames, ne_eq, readOnce_headers_iff]
  exact ⟨by decide, by decide, hguards, haccessors, hguards⟩

end MachineBundle.Export
