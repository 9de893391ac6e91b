import MachineBundle.Bundle.Export
import MachineBundle.Proofs.Source.C
import MachineBundle.Proofs.Source.ObjectiveCpp

/-!
# Numbers in sources

In either language the numbers that were written into the sources of a machine are found there again: how many
transitions leave a state, where they lead, and which state is the suspend state.
-/

namespace MachineBundle.Source

open Scan

/-- A name that can be a part of identifiers and does not look like the method with the number of transitions. -/
structure FitName (name : String) : Prop where
  nonempty : name ≠ ""
  plain : Text.PlainText name
  lacksWord : ¬"numberOfTransitions".toList <:+: name.toList

instance (name : String) : Decidable (FitName name) :=
  decidable_of_iff (name ≠ "" ∧ Text.PlainText name ∧ ¬"numberOfTransitions".toList <:+: name.toList)
    ⟨fun h => ⟨h.1, h.2.1, h.2.2⟩, fun h => ⟨h.nonempty, h.plain, h.lacksWord⟩⟩

/-- The names of a plan fit into sources. -/
structure FitPlan (m : MachinePlan) : Prop where
  name : FitName m.name
  states : ∀ s ∈ m.states, FitName s.name

variable {m : MachinePlan}

theorem FitPlan.plain (h : FitPlan m) : PlainPlan m :=
  ⟨h.name.plain, fun s hs => (h.states s hs).plain⟩

theorem search_stateHeader_count (h : FitPlan m) {s : StatePlan} (hs : s ∈ m.states) :
    search m.binding.countPattern (unlines (Export.stateHeader m s)).toList =
      some (toString s.transitions.length).toList := by
  have hn := h.states s hs
  unfold Export.stateHeader
  cases m.binding with
  | c => exact C.search_count h.name.plain hn.plain
  | objectiveCpp => exact ObjectiveCpp.search_count h.name.lacksWord hn.lacksWord

theorem search_stateHeader_target (h : FitPlan m) {s : StatePlan} (hs : s ∈ m.states) (k : Nat) :
    search (m.binding.targetPattern k) (unlines (Export.stateHeader m s)).toList =
      (targetAt k s.transitions).map fun n => (toString n).toList := by
  have hn := h.states s hs
  unfold Export.stateHeader
  cases m.binding with
  | c => exact C.search_target h.name.plain hn.plain k
  | objectiveCpp => exact ObjectiveCpp.search_target h.name.plain hn.plain k

theorem search_machineImplementation (h : FitPlan m) :
    search m.binding.suspendPattern (unlines (Export.machineImplementation m)).toList =
      (if m.isSuspensible then m.suspendIndex else none).map fun i => (toString i).toList := by
  unfold Export.machineImplementation
  cases m.binding with
  | c => exact C.search_suspend h.plain
  | objectiveCpp => exact ObjectiveCpp.search_suspend h.plain

theorem noReturn_stateHeader (h : FitPlan m) {s : StatePlan} (hs : s ∈ m.states) :
    '\r' ∉ (unlines (Export.stateHeader m s)).toList := by
  have hn := h.states s hs
  unfold Export.stateHeader
  cases m.binding with
  | c => exact C.noReturn_stateHeader h.name.plain hn.plain
  | objectiveCpp => exact ObjectiveCpp.noReturn_stateHeader h.name.plain hn.plain

theorem noReturn_machineImplementation (h : FitPlan m) :
    '\r' ∉ (unlines (Export.machineImplementation m)).toList := by
  unfold Export.machineImplementation
  cases m.binding with
  | c => exact C.noReturn_machineImplementation h.plain
  | objectiveCpp => exact ObjectiveCpp.noReturn_machineImplementation h.plain

/-! ## Numbers that can be read -/

/-- A number that a search comes to is read as long as it does not have too many digits. -/
theorem number?_of_search {p : Pattern} {text : String} {n : Option Nat}
    (h : search p text.toList = n.map fun i => (toString i).toList) (hn : ∀ i ∈ n, i < 10 ^ digitLimit) :
    Bundle.number? p (some text) = .ok n := by
  cases n with
  | none =>
    rw [Option.map_none] at h
    simp only [Bundle.number?, firstNumber_of_search_none h]
  | some i =>
    rw [Option.map_some] at h
    simp only [Bundle.number?, firstNumber_of_search h (hn i rfl)]

theorem number?_count (h : FitPlan m) {s : StatePlan} (hs : s ∈ m.states)
    (hn : s.transitions.length < 10 ^ digitLimit) :
    Bundle.number? m.binding.countPattern (some (unlines (Export.stateHeader m s))) =
      .ok (some s.transitions.length) := by
  refine number?_of_search (n := some s.transitions.length) (search_stateHeader_count h hs) fun i hi => ?_
  cases hi
  exact hn

theorem number?_target (h : FitPlan m) {s : StatePlan} (hs : s ∈ m.states) (k : Nat)
    (hn : ∀ t ∈ s.transitions, ∀ i ∈ t.target, i < 10 ^ digitLimit) :
    Bundle.number? (m.binding.targetPattern k) (some (unlines (Export.stateHeader m s))) =
      .ok (targetAt k s.transitions) := by
  refine number?_of_search (search_stateHeader_target h hs k) fun i hi => ?_
  obtain ⟨t, ht, hti⟩ := List.exists_of_findSome?_eq_some hi
  split at hti
  · exact hn t ht i hti
  · cases hti

theorem number?_suspend (h : FitPlan m) (hn : ∀ i ∈ m.suspendIndex, i < 10 ^ digitLimit) :
    Bundle.number? m.binding.suspendPattern (some (unlines (Export.machineImplementation m))) =
      .ok (if m.isSuspensible then m.suspendIndex else none) := by
  refine number?_of_search (search_machineImplementation h) fun i hi => ?_
  split at hi
  · exact hn i hi
  · cases hi

end MachineBundle.Source
