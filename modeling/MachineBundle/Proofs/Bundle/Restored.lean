import MachineBundle.Proofs.Bundle.Load

/-!
# What is loaded again

A loaded machine has the states of the exported one in order, and at each of them its transitions. Identifiers are new,
so targets are compared by the positions of states.
-/

namespace MachineBundle

/-- The record of a transition, with its guard and its target as others see them. -/
def Graph.edge? (g : Graph) (guard : String → String) (target : Option Ident → Option Ident) (t : Ident) :
    Option (String × Option Ident) :=
  (g.transition? t).map fun r => (guard r.label, target r.target)

/-- What comes back of a machine: a graph with its states by name, the transitions of each one in order, with their
guards trimmed and their targets by position, and the suspend state by position if there is one. -/
structure Restored (m : Machine) (b : Binding) (isSuspensible : Bool) (m' : Machine) : Prop where
  binding : m'.binding = b
  graph : m'.graph.WellFormed
  stateNames : m'.graph.stateNames = m.graph.stateNames
  transitions : ∀ (k : Nat) (s s' : Ident), m.graph.states[k]? = some s → m'.graph.states[k]? = some s' →
    (m'.graph.transitionsFrom s').map (m'.graph.edge? id id) =
      (m.graph.transitionsFrom s).map (m.graph.edge? Text.trimmed fun target =>
        (m.graph.stateIndex? target).bind fun i => m'.graph.states[i]?)
  suspendState : m'.graph.suspendState =
    (if isSuspensible then m.graph.stateIndex? m.graph.suspendState else none).bind fun i => m'.graph.states[i]?

namespace Bundle

variable {d : Nat}

theorem map_freshTransitions (states : List State) (source : Ident) (ps : List Source.TransitionPlan) :
    (freshTransitions states source d ps).map (fun t => (t.label, t.target)) =
      ps.map fun p => (Text.trimmed p.label, stateOf states p.target) := by
  induction ps generalizing d with
  | nil => rfl
  | cons p r ih => rw [freshTransitions, List.map_cons, ih, List.map_cons]

theorem listed_freshRows (states : List State) {ss : List State} {ps : List Source.StatePlan} (h : ss.length = ps.length) :
    Graph.Listed ss (freshRows states d ss ps) := by
  induction ss generalizing d ps with
  | nil => exact List.Forall₂.nil
  | cons s ss ih =>
    cases ps with
    | nil => cases h
    | cons p ps =>
      rw [freshRows]
      exact List.Forall₂.cons (source_freshTransitions states s.id d p.transitions) (ih (by simpa using h))

theorem ids_freshRows (states ss : List State) (ps : List Source.StatePlan) :
    ∃ n, (freshRows states d ss ps).flatten.map Transition.id = drawnIds d n := by
  induction ss generalizing d ps with
  | nil => exact ⟨0, rfl⟩
  | cons s ss ih =>
    cases ps with
    | nil => exact ⟨0, rfl⟩
    | cons p ps =>
      obtain ⟨n, hn⟩ := ih (d := d + p.transitions.length) ps
      refine ⟨p.transitions.length + n, ?_⟩
      rw [freshRows, List.flatten_cons, List.map_append, map_id_freshTransitions, hn, drawnIds_append]

theorem getElem?_freshRows (states : List State) {ss : List State} {ps : List Source.StatePlan} {k : Nat} {s : State}
    {p : Source.StatePlan} (hs : ss[k]? = some s) (hp : ps[k]? = some p) :
    ∃ d', (freshRows states d ss ps)[k]? = some (freshTransitions states s.id d' p.transitions) := by
  induction ss generalizing d ps k with
  | nil => cases hs
  | cons s₀ ss ih =>
    cases ps with
    | nil => cases hp
    | cons p₀ ps =>
      cases k with
      | zero =>
        cases hs
        cases hp
        exact ⟨d, rfl⟩
      | succ k => exact ih hs hp

theorem map_id_loadedStates (d : Nat) (plan : Source.MachinePlan) :
    (loadedStates d plan).map State.id = drawnIds d plan.states.length := by
  rw [loadedStates, map_id_freshStates, List.length_map]

theorem length_loadedStates (d : Nat) (plan : Source.MachinePlan) :
    (loadedStates d plan).length = plan.states.length := by
  rw [loadedStates, length_freshStates, List.length_map]

theorem nodup_loadedStates (d : Nat) (plan : Source.MachinePlan) : ((loadedStates d plan).map State.id).Nodup := by
  rw [map_id_loadedStates]
  exact nodup_drawnIds d _

theorem nodup_loadedRows (d : Nat) (plan : Source.MachinePlan) :
    ((loadedRows d plan).flatten.map Transition.id).Nodup := by
  obtain ⟨n, hn⟩ := ids_freshRows (d := d + plan.states.length) (loadedStates d plan) (loadedStates d plan) plan.states
  rw [loadedRows, hn]
  exact nodup_drawnIds _ _

theorem states_loadedMachine (bundle : Path) (m : Machine) (plan : Source.MachinePlan) (layout : Option ByteArray)
    (d : Nat) : (loadedMachine bundle m plan layout d).graph.states = (loadedStates d plan).map State.id := rfl

theorem stateOf_loaded (bundle : Path) (m : Machine) (plan : Source.MachinePlan) (layout : Option ByteArray) (d : Nat)
    (position : Option Nat) :
    stateOf (loadedStates d plan) position =
      position.bind fun i => (loadedMachine bundle m plan layout d).graph.states[i]? := by
  simp only [stateOf, states_loadedMachine, List.getElem?_map]

variable {bundle : Path} {m : Machine} {b : Binding} {name : String} {isSuspensible : Bool} {layout : Option ByteArray}

/-- The transitions that a loaded machine has at a state are those of the plan. -/
theorem transitions_loadedMachine (plan : Source.MachinePlan) {k : Nat} {s' : Ident} {p : Source.StatePlan}
    (hs : (loadedMachine bundle m plan layout d).graph.states[k]? = some s') (hp : plan.states[k]? = some p) :
    ((loadedMachine bundle m plan layout d).graph.transitionsFrom s').map
        ((loadedMachine bundle m plan layout d).graph.edge? id id) =
      p.transitions.map fun q => some (Text.trimmed q.label, stateOf (loadedStates d plan) q.target) := by
  rw [states_loadedMachine, List.getElem?_map] at hs
  obtain ⟨s, hk, rfl⟩ := Option.map_eq_some_iff.mp hs
  obtain ⟨d', hrow⟩ := getElem?_freshRows (d := d + plan.states.length) (loadedStates d plan) hk hp
  have hnodup := nodup_loadedRows d plan
  have hrecord : ∀ t ∈ freshTransitions (loadedStates d plan) s.id d' p.transitions,
      (loadedMachine bundle m plan layout d).graph.edge? id id t.id = some (t.label, t.target) := by
    intro t ht
    have hmem : t ∈ (loadedRows d plan).flatten := List.mem_flatten.mpr ⟨_, List.mem_of_getElem? hrow, ht⟩
    unfold Graph.edge?
    rw [loadedMachine, Graph.transition?_ofRecords hnodup hmem]
    rfl
  have hgraph : (loadedMachine bundle m plan layout d).graph.transitionsFrom s.id =
      (freshTransitions (loadedStates d plan) s.id d' p.transitions).map Transition.id :=
    Graph.transitionsFrom_listed (listed_freshRows _ (length_loadedStates d plan)) (nodup_loadedStates d plan) hnodup
      hk hrow
  rw [hgraph, List.map_map]
  calc (freshTransitions (loadedStates d plan) s.id d' p.transitions).map
        ((loadedMachine bundle m plan layout d).graph.edge? id id ∘ Transition.id)
      = (freshTransitions (loadedStates d plan) s.id d' p.transitions).map fun t => some (t.label, t.target) :=
        List.map_congr_left hrecord
    _ = ((freshTransitions (loadedStates d plan) s.id d' p.transitions).map fun t => (t.label, t.target)).map some := by
        rw [List.map_map]
        rfl
    _ = _ := by
        rw [map_freshTransitions, List.map_map]
        rfl

/-- The transitions of a state, as its plan has them. -/
theorem map_edge?_outgoing (g : Graph) (guard : String → String) (target : Option Ident → Option Ident) (s : Ident) :
    (g.transitionsFrom s).map (g.edge? guard target) =
      (Source.outgoing g s).map fun r => some (guard r.label, target r.target) := by
  have hall : ∀ l : List Ident, (∀ t ∈ l, (g.transition? t).isSome = true) → l.map (g.edge? guard target) =
      (l.filterMap g.transition?).map fun r => some (guard r.label, target r.target) := by
    intro l
    induction l with
    | nil => exact fun _ => rfl
    | cons t r ih =>
      intro hl
      obtain ⟨e, he⟩ := Option.isSome_iff_exists.mp (hl t List.mem_cons_self)
      rw [List.map_cons, ih fun u hu => hl u (List.mem_cons_of_mem t hu), List.filterMap_cons_some he, List.map_cons,
        Graph.edge?, he]
      rfl
  refine hall (g.transitionsFrom s) fun t ht => ?_
  have hr := (List.mem_filter.mp ht).2
  split at hr
  · rename_i r hr'
    rw [hr']
    rfl
  · cases hr

/-- A machine that is loaded from its own bundle has been restored. -/
theorem restored_loadedMachine (hwf : m.graph.WellFormed) (hne : ∀ s ∈ m.graph.listedStates, s.name ≠ "") :
    Restored m b isSuspensible (loadedMachine bundle m (.of m b name isSuspensible) layout d) where
  binding := rfl
  graph := Graph.wellFormed_ofRecords (nodup_loadedStates d _) (nodup_loadedRows d _)
    (listed_freshRows _ (length_loadedStates d _)).source_mem
  stateNames := by
    have hplan : (Source.MachinePlan.of m b name isSuspensible).states.map Source.StatePlan.name =
        m.graph.listedStates.map State.name := List.map_map
    have hnames := map_name_freshStates d
      ((Source.MachinePlan.of m b name isSuspensible).states.map Source.StatePlan.name)
    rw [hwf.stateNames_eq hne, loadedMachine, Graph.stateNames_ofRecords (nodup_loadedStates d _), loadedStates,
      hnames, hplan]
    intro s hs
    have hm : s.name ∈ (loadedStates d (.of m b name isSuspensible)).map State.name := List.mem_map.mpr ⟨s, hs, rfl⟩
    rw [loadedStates, hnames, hplan] at hm
    obtain ⟨s₀, hs₀, he⟩ := List.mem_map.mp hm
    rw [← he]
    exact hne s₀ hs₀
  transitions := by
    intro k s s' hs hs'
    rw [← hwf.map_listedStates, List.getElem?_map] at hs
    obtain ⟨r, hr, rfl⟩ := Option.map_eq_some_iff.mp hs
    have hp : (Source.MachinePlan.of m b name isSuspensible).states[k]? = some (Source.statePlan m.graph r) := by
      rw [Source.MachinePlan.of, List.getElem?_map, hr]
      rfl
    rw [transitions_loadedMachine _ hs' hp, map_edge?_outgoing, Source.statePlan]
    refine List.ext_getElem (by simp) fun i _ _ => ?_
    simp [Source.transitionPlan, stateOf_loaded bundle m _ layout]
  suspendState := by
    have h : (loadedMachine bundle m (.of m b name isSuspensible) layout d).graph.suspendState =
        stateOf (loadedStates d (.of m b name isSuspensible))
          (if isSuspensible then (Source.MachinePlan.of m b name isSuspensible).suspendIndex else none) := rfl
    rw [h, stateOf_loaded bundle m _ layout]
    unfold Source.MachinePlan.of
    cases isSuspensible <;> rfl

end Bundle

end MachineBundle
