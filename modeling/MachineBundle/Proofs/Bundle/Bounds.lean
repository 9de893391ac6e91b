import MachineBundle.Proofs.Bundle.Loaded
import MachineBundle.Proofs.Source.Subscripts

/-!
# Arrays of exported machines

Positions in a plan are positions of states that are listed, and transitions are numbered by position. So the arrays in the
sources of a machine have room for all subscripts, with one exception: in C the array of states is as long as there are
states, and the initial state is the first one even if there is none.
-/

namespace MachineBundle

namespace Source

/-- All positions in a plan are those of states and transitions that are there. -/
structure Positioned (m : MachinePlan) : Prop where
  targets : ∀ s ∈ m.states, ∀ t ∈ s.transitions, ∀ i ∈ t.target, i < m.states.length
  suspend : ∀ i ∈ m.suspendIndex, i < m.states.length
  indices : ∀ s ∈ m.states, s.transitions.map TransitionPlan.index = List.range s.transitions.length

theorem positioned_of {m : Machine} (h : m.graph.StatesKnown) (b : Binding) (name : String) (isSuspensible : Bool) :
    Positioned (.of m b name isSuspensible) := by
  have hlength : (MachinePlan.of m b name isSuspensible).states.length = m.graph.states.length := by
    rw [← h.length_listedStates]
    exact List.length_map _
  refine ⟨?_, ?_, ?_⟩
  · intro s hs p hp i hi
    obtain ⟨s, -, rfl⟩ := List.mem_map.mp hs
    obtain ⟨-, -, t, -, -, htarget⟩ := mem_statePlan hp
    rw [htarget] at hi
    rw [hlength]
    exact Graph.stateIndex?_lt hi
  · intro i hi
    rw [hlength]
    cases isSuspensible with
    | false => cases hi
    | true => exact Graph.stateIndex?_lt hi
  · intro s hs
    obtain ⟨s, -, rfl⟩ := List.mem_map.mp hs
    exact map_index_statePlan m.graph s

/-- The suspend state is one of the states, if it is used at all. -/
theorem Positioned.suspend_lt {m : MachinePlan} (h : Positioned m) {k : Nat}
    (hk : k ∈ if m.isSuspensible then m.suspendIndex.toList else []) : k < m.states.length := by
  cases hsuspensible : m.isSuspensible with
  | false => simp [hsuspensible] at hk
  | true =>
    rw [hsuspensible, if_pos rfl] at hk
    exact h.suspend k (Option.mem_toList.mp hk)

end Source

namespace Export

open Source

/-- The arrays in the sources of a plan have room for all subscripts there. -/
structure SubscriptsFit (m : MachinePlan) : Prop where
  machine : InBounds (stateLengths (machineHeader m) m.binding)
    (readLines (stateSubscript? m.binding) (machineImplementation m))
  states : ∀ s ∈ m.states, InBounds (stateLengths (machineHeader m) m.binding)
    (readLines (stateSubscript? m.binding) (stateImplementation m s))
  transitions : ∀ s ∈ m.states, InBounds (transitionLengths (stateHeader m s) m.binding)
    (readLines (transitionSubscript? m.binding) (stateImplementation m s))

/-- Subscripts fit if the only length that is declared is above them. -/
theorem inBounds_iff {lengths subscripts : List Nat} {n : Nat} (h : ∀ k, k ∈ lengths ↔ k = n) :
    InBounds lengths subscripts ↔ ∀ k ∈ subscripts, k < n := by
  have hn : n ∈ lengths := (h n).mpr rfl
  constructor
  · exact fun hfit k hk => (hfit k hk).2 n hn
  · intro hfit k hk
    refine ⟨List.ne_nil_of_mem hn, fun n' hn' => ?_⟩
    rw [(h n').mp hn']
    exact hfit k hk

variable {m : MachinePlan}

/-- In C there has to be a state to begin with. -/
theorem subscriptsFit_c_iff (hb : m.binding = .c) (h : Positioned m) : SubscriptsFit m ↔ m.states ≠ [] := by
  have hheader : machineHeader m = C.machineHeader m := by rw [machineHeader, hb]
  have himplementation : machineImplementation m = C.machineImplementation m := by rw [machineImplementation, hb]
  have hstate : ∀ s, stateImplementation m s = C.stateImplementation m s := fun s => by rw [stateImplementation, hb]
  have hlengths : ∀ k, k ∈ stateLengths (C.machineHeader m) .c ↔ k = m.states.length := fun k => C.mem_stateLengths
  constructor
  · rintro ⟨hmachine, -, -⟩ hnone
    rw [hb, hheader, himplementation, C.subscripts_machineImplementation, inBounds_iff hlengths, hnone] at hmachine
    exact absurd (hmachine 0 (by simp)) (Nat.lt_irrefl 0)
  · intro hne
    refine ⟨?_, fun s hs => ?_, fun s _ => ?_⟩
    · rw [hb, hheader, himplementation, C.subscripts_machineImplementation, inBounds_iff hlengths]
      intro k hk
      rcases List.mem_append.mp hk with hk | hk
      · rcases List.mem_append.mp hk with hk | hk
        · exact List.mem_range.mp hk
        · rw [List.mem_singleton.mp hk]
          exact List.length_pos_iff.mpr hne
      · exact h.suspend_lt hk
    · rw [hb, hheader, hstate, C.subscripts_stateImplementation, inBounds_iff hlengths]
      intro k hk
      obtain ⟨t, ht, htarget⟩ := List.mem_filterMap.mp hk
      exact h.targets s hs t ht k htarget
    · have hnone : readLines (transitionSubscript? .c) (stateImplementation m s) = [] :=
        (skips_subscript _).needs.readLines fun _ _ _ hhead => nomatch hhead
      rw [hb, hnone]
      exact fun k hk => nomatch hk

/-- In Objective-C++ there is room for a state and for a transition in any case. -/
theorem subscriptsFit_objectiveCpp (hb : m.binding = .objectiveCpp) (h : Positioned m) : SubscriptsFit m := by
  have hheader : machineHeader m = ObjectiveCpp.machineHeader m := by rw [machineHeader, hb]
  have himplementation : machineImplementation m = ObjectiveCpp.machineImplementation m := by
    rw [machineImplementation, hb]
  have hstate : ∀ s, stateImplementation m s = ObjectiveCpp.stateImplementation m s := fun s => by
    rw [stateImplementation, hb]
  have hstateHeader : ∀ s, stateHeader m s = ObjectiveCpp.stateHeader m s := fun s => by rw [stateHeader, hb]
  have hlengths : ∀ k, k ∈ stateLengths (ObjectiveCpp.machineHeader m) .objectiveCpp ↔ k = max m.states.length 1 :=
    fun k => ObjectiveCpp.mem_stateLengths
  refine ⟨?_, fun s hs => ?_, fun s hs => ?_⟩
  · rw [hb, hheader, himplementation, ObjectiveCpp.subscripts_machineImplementation, inBounds_iff hlengths]
    have hslots : ∀ k ∈ List.range m.states.length, k < max m.states.length 1 := fun k hk =>
      (List.mem_range.mp hk).trans_le (le_max_left _ _)
    intro k hk
    rcases List.mem_append.mp hk with hk | hk
    · rcases List.mem_append.mp hk with hk | hk
      · exact hslots k hk
      · exact (h.suspend_lt hk).trans_le (le_max_left _ _)
    · rcases List.mem_append.mp hk with hk | hk
      · rw [List.mem_singleton.mp hk]
        exact Nat.lt_of_lt_of_le Nat.zero_lt_one (le_max_right _ _)
      · exact hslots k hk
  · rw [hb, hstate, ObjectiveCpp.stateSubscripts_stateImplementation]
    exact fun k hk => nomatch hk
  · have hcreated : ∀ k ∈ s.transitions.map TransitionPlan.index, k < max s.transitions.length 1 := by
      intro k hk
      rw [h.indices s hs, List.mem_range] at hk
      exact hk.trans_le (le_max_left _ _)
    rw [hb, hstate, hstateHeader, ObjectiveCpp.subscripts_stateImplementation,
      inBounds_iff fun k => ObjectiveCpp.mem_transitionLengths]
    intro k hk
    rcases List.mem_append.mp hk with hk | hk
    · exact hcreated k hk
    · exact hcreated k hk

/-- Whatever machine was loaded, in the sources that are exported the arrays have room for all subscripts, unless it is a
machine without states that is written in C. -/
theorem subscripts_fit_iff {path : Path} {binding : Option Binding} {t : Tree} {trail trail' : Trail} {m : Machine}
    (h : outcome (Machine.load path binding t) trail = (.ok m, trail')) (b : Binding) (name : String) (isSuspensible : Bool) :
    SubscriptsFit (.of m b name isSuspensible) ↔ ¬(b = .c ∧ m.graph.states = []) := by
  obtain ⟨states, rows, hgraph, -⟩ := Machine.load_eq_ok h
  have hpositioned := positioned_of hgraph.wellFormed.statesKnown b name isSuspensible
  have hstates : (MachinePlan.of m b name isSuspensible).states = [] ↔ m.graph.states = [] := by
    rw [MachinePlan.of, List.map_eq_nil_iff, hgraph.listedStates_eq, hgraph.states_eq, List.map_eq_nil_iff]
  cases b with
  | c => rw [subscriptsFit_c_iff rfl hpositioned, ne_eq, hstates, eq_self, true_and]
  | objectiveCpp => exact iff_of_true (subscriptsFit_objectiveCpp rfl hpositioned) (by simp)

theorem subscripts_of_doubled_fit :
    ∃ m trail', outcome (Machine.load ⟨.none, ["M.machine"]⟩ (some .c) Machine.doubled) ⟨.start, []⟩ = (.ok m, trail') ∧
      SubscriptsFit (.of m .c "M" true) := by
  have hcounts := Machine.load_doubled
  rcases h : outcome (Machine.load ⟨.none, ["M.machine"]⟩ (some .c) Machine.doubled) ⟨.start, []⟩ with ⟨f | m, trail'⟩
  · rw [h] at hcounts
    cases hcounts
  · rw [h] at hcounts
    have hstates : m.graph.states.length = 2 := (Prod.ext_iff.mp (Option.some.inj hcounts)).1
    refine ⟨m, trail', rfl, (subscripts_fit_iff h .c "M" true).mpr ?_⟩
    rintro ⟨-, hnone⟩
    rw [hnone] at hstates
    cases hstates

/-- A bundle in C that lists no states. -/
def stateless : Tree where
  home := ["work"]
  nodes :=
    [(["work"], .directory), (["work", "A"], .directory), (["work", "A", "Language"], .file "c".toUTF8),
      (["work", "A", "States"], .file "".toUTF8)]
  scratch := []

/-- The initial state of a machine without states is taken from an array of no length. -/
theorem initial_state_of_stateless :
    (outcome (Machine.load (.ofText "A") none stateless) ⟨.start, []⟩).1.toOption.map (fun m =>
      (readLines (stateSubscript? .c) (machineImplementation (.of m .c "B" false)),
        stateLengths (machineHeader (.of m .c "B" false)) .c)) = some ([0], [0]) := by
  decide +kernel

end Export

end MachineBundle
