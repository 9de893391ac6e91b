import MachineBundle.Proofs.Graph.Records
import MachineBundle.Source.Plan

/-!
# Well-formed graphs

In a well-formed graph all states and transitions that are listed have records. The plan of such a graph has its
states in order, and the transitions of each one by position.
-/

namespace MachineBundle

namespace Graph

/-- Different identifiers are listed, each with a record, and transitions leave states that are listed. -/
structure WellFormed (g : Graph) : Prop where
  states : g.states.Nodup
  state : ∀ i ∈ g.states, ∃ s, g.state? i = some s ∧ s.id = i
  transitions : g.transitions.Nodup
  transition : ∀ i ∈ g.transitions, ∃ t, g.transition? i = some t ∧ t.source ∈ g.states

/-- No guard has a carriage return. -/
def Unbroken (g : Graph) : Prop :=
  ∀ i ∈ g.transitions, ∀ t ∈ g.transition? i, '\r' ∉ t.label.toList

/-- Different states are listed, each with a record. Nothing is said of transitions. -/
structure StatesKnown (g : Graph) : Prop where
  nodup : g.states.Nodup
  record : ∀ i ∈ g.states, ∃ s, g.state? i = some s ∧ s.id = i

variable {g : Graph}

namespace StatesKnown

theorem map_listedStates (h : g.StatesKnown) : g.listedStates.map State.id = g.states := by
  have hall : ∀ l : List Ident, (∀ i ∈ l, ∃ s, g.state? i = some s ∧ s.id = i) →
      (l.filterMap g.state?).map State.id = l := by
    intro l
    induction l with
    | nil => exact fun _ => rfl
    | cons i r ih =>
      intro hl
      obtain ⟨s, hs, hi⟩ := hl i List.mem_cons_self
      rw [List.filterMap_cons_some hs, List.map_cons, hi, ih fun j hj => hl j (List.mem_cons_of_mem i hj)]
  exact hall g.states h.record

theorem length_listedStates (h : g.StatesKnown) : g.listedStates.length = g.states.length := by
  rw [← h.map_listedStates, List.length_map]

theorem getElem?_states (h : g.StatesKnown) (k : Nat) : g.states[k]? = g.listedStates[k]?.map State.id := by
  rw [← List.getElem?_map, h.map_listedStates]

/-- The record of the state at a position. -/
theorem state?_listed (h : g.StatesKnown) {s : State} (hs : s ∈ g.listedStates) : g.state? s.id = some s := by
  obtain ⟨i, hi, hr⟩ := List.mem_filterMap.mp hs
  obtain ⟨s', hs', he⟩ := h.record i hi
  rw [hr] at hs'
  cases hs'
  rw [he, hr]

theorem stateNames_eq (h : g.StatesKnown) (hne : ∀ s ∈ g.listedStates, s.name ≠ "") :
    g.stateNames = g.listedStates.map State.name := by
  unfold stateNames
  conv => lhs; rw [← h.map_listedStates, List.map_map]
  refine List.map_congr_left fun s hs => ?_
  have he : s.name.isEmpty = false := by
    rw [Bool.eq_false_iff, ne_eq, String.isEmpty_iff]
    exact hne s hs
  simp [displayName, stateName?, h.state?_listed hs, he]

end StatesKnown

namespace WellFormed

theorem statesKnown (h : g.WellFormed) : g.StatesKnown :=
  ⟨h.states, h.state⟩

theorem map_listedStates (h : g.WellFormed) : g.listedStates.map State.id = g.states :=
  h.statesKnown.map_listedStates

theorem stateNames_eq (h : g.WellFormed) (hne : ∀ s ∈ g.listedStates, s.name ≠ "") :
    g.stateNames = g.listedStates.map State.name :=
  h.statesKnown.stateNames_eq hne

end WellFormed

theorem wellFormed_ofRecords {states : List State} {transitions : List Transition} {suspend : Option Ident}
    (hs : (states.map State.id).Nodup) (ht : (transitions.map Transition.id).Nodup)
    (hsource : ∀ t ∈ transitions, t.source ∈ states.map State.id) :
    (ofRecords states transitions suspend).WellFormed where
  states := hs
  state := by
    intro i hi
    obtain ⟨s, hs', rfl⟩ := List.mem_map.mp hi
    exact ⟨s, state?_ofRecords hs hs', rfl⟩
  transitions := ht
  transition := by
    intro i hi
    obtain ⟨t, ht', rfl⟩ := List.mem_map.mp hi
    exact ⟨t, transition?_ofRecords ht ht', hsource t ht'⟩

theorem wellFormed_empty : empty.WellFormed where
  states := List.nodup_nil
  state := fun i hi => by cases hi
  transitions := List.nodup_nil
  transition := fun i hi => by cases hi

theorem unbroken_empty : empty.Unbroken := fun i hi => by cases hi

theorem stateIndex?_lt {i : Option Ident} {k : Nat} (h : g.stateIndex? i = some k) : k < g.states.length := by
  obtain ⟨j, _, hk⟩ := Option.bind_eq_some_iff.mp h
  exact (List.findIdx?_eq_some_iff_getElem.mp hk).1

end Graph

namespace Source

theorem mem_outgoing {g : Graph} {i : Ident} {t : Transition} (h : t ∈ outgoing g i) :
    ∃ j ∈ g.transitions, g.transition? j = some t := by
  obtain ⟨j, hj, ht⟩ := List.mem_filterMap.mp h
  exact ⟨j, List.mem_of_mem_filter hj, ht⟩

/-- A planned transition is the record of one that is listed. -/
theorem mem_statePlan {g : Graph} {s : State} {p : TransitionPlan} (h : p ∈ (statePlan g s).transitions) :
    ∃ j ∈ g.transitions, ∃ t, g.transition? j = some t ∧ p.label = t.label ∧ p.target = g.stateIndex? t.target := by
  obtain ⟨i, hi, rfl⟩ := List.mem_mapIdx.mp h
  obtain ⟨j, hj, ht⟩ := mem_outgoing (List.getElem_mem hi)
  exact ⟨j, hj, _, ht, rfl, rfl⟩

/-- Transitions are numbered by position. -/
theorem map_index_statePlan (g : Graph) (s : State) :
    (statePlan g s).transitions.map TransitionPlan.index = List.range (statePlan g s).transitions.length := by
  refine List.ext_getElem (by simp) fun i _ _ => ?_
  simp [statePlan, transitionPlan]

end Source

end MachineBundle
