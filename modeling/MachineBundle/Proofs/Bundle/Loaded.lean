import MachineBundle.Proofs.Bundle.Faults
import MachineBundle.Proofs.Bundle.Load

/-!
# Loaded machines

Whatever a bundle holds, a machine that is loaded from it is well-formed: its states are the names that the bundle
lists, its transitions are those that the state headers count, and what is not recorded for a listed state is left
out.
-/

namespace MachineBundle

/-! ## Drawing -/

/-- The identifiers that are drawn between two trails. -/
def Draws (trail : Trail) (ids : List Ident) (trail' : Trail) : Prop :=
  ids = Bundle.drawnIds trail.supply.drawn ids.length ∧ trail'.supply.drawn = trail.supply.drawn + ids.length

namespace Draws

variable {trail trail₁ trail₂ : Trail} {ids ids' : List Ident}

theorem none_of_supply (h : trail₁.supply = trail.supply) : Draws trail [] trail₁ :=
  ⟨rfl, congrArg Supply.drawn h⟩

theorem append (h : Draws trail ids trail₁) (h' : Draws trail₁ ids' trail₂) : Draws trail (ids ++ ids') trail₂ := by
  constructor
  · rw [List.length_append, ← Bundle.drawnIds_append, ← h.2, ← h.1, ← h'.1]
  · rw [h'.2, h.2, List.length_append, Nat.add_assoc]

theorem nodup (h : Draws trail ids trail₁) : ids.Nodup := by
  rw [h.1]
  exact Bundle.nodup_drawnIds _ _

end Draws

/-- What each reading of a row draws and gives, the row draws and gives in order. -/
theorem outcome_mapM_eq_ok {α β : Type} {act : α → Reading β} (ids : β → List Ident) {R : α → β → Prop} {t : Tree}
    {l : List α}
    (step : ∀ a ∈ l, ∀ trail r trail', outcome (act a t) trail = (.ok r, trail') → R a r ∧ Draws trail (ids r) trail')
    {trail trail' : Trail} {rs : List β} (h : outcome ((l.mapM act : Reading (List β)) t) trail = (.ok rs, trail')) :
    List.Forall₂ R l rs ∧ Draws trail (rs.flatMap ids) trail' := by
  induction l generalizing trail rs with
  | nil =>
    rw [List.mapM_nil, outcome_reading_pure, Prod.mk.injEq, Except.ok.injEq] at h
    obtain ⟨rfl, rfl⟩ := h
    exact ⟨.nil, .none_of_supply rfl⟩
  | cons a l ih =>
    rw [List.mapM_cons] at h
    obtain ⟨r, trail₁, hr, h⟩ := outcome_reading_bind_eq_ok h
    obtain ⟨rs', trail₂, hrs, h⟩ := outcome_reading_bind_eq_ok h
    rw [outcome_reading_pure, Prod.mk.injEq, Except.ok.injEq] at h
    obtain ⟨rfl, rfl⟩ := h
    obtain ⟨hfirst, hdraw⟩ := step a List.mem_cons_self trail r trail₁ hr
    obtain ⟨hall, hdraws⟩ := ih (fun x hx => step x (List.mem_cons_of_mem a hx)) hrs
    exact ⟨.cons hfirst hall, hdraw.append hdraws⟩

/-! ## Names -/

/-- The names that a bundle lists can be listed again as they are. -/
theorem Bundle.isListed_of_stateNames {t : Tree} {bundle : Path} {names : List String}
    (h : Bundle.stateNames t bundle = .ok names) : ∀ n ∈ names, Text.IsListed n := by
  unfold Bundle.stateNames at h
  obtain ⟨text, -, h⟩ := except_bind_eq_ok h
  cases h
  exact fun n hn => Text.isListed_of_mem_namesIn hn

/-! ## Transitions -/

namespace Bundle

variable {b : Binding} {t : Tree} {bundle : Path} {states : List State}

/-- The guard that a file records, without the blanks around it; the default where the file cannot be read. -/
def recordedGuard (t : Tree) (bundle : Path) (state : String) (index : Nat) : String :=
  match t.readText (bundle.join (Binding.guardFile state index)) with
  | .ok text => Text.trimmed text
  | .error _ => defaultGuard

theorem guardOf_eq_ok {state label : String} {index : Nat} {trail trail' : Trail}
    (h : outcome (guardOf b bundle state index t) trail = (.ok label, trail')) :
    label = recordedGuard t bundle state index ∧ trail'.supply = trail.supply := by
  unfold guardOf at h
  obtain ⟨_, trail₁, hcheck, h⟩ := outcome_reading_bind_eq_ok h
  rw [outcome_reading_query, Prod.mk.injEq] at hcheck
  obtain ⟨-, rfl⟩ := hcheck
  rw [outcome_reading_tryCatch, outcome_tryCatch, outcome_reading_map, outcome_map, outcome_reading_query] at h
  unfold recordedGuard
  cases htext : t.readText (bundle.join (Binding.guardFile state index)) with
  | ok text =>
    rw [htext] at h
    cases h
    exact ⟨rfl, rfl⟩
  | error f =>
    rw [htext] at h
    dsimp only at h
    cases hf : f.isUnreadable with
    | false =>
      rw [hf] at h
      cases h
    | true =>
      rw [hf] at h
      cases h
      exact ⟨rfl, rfl⟩

theorem stateAt?_mem {position : Option Int} {s : Ident} (h : stateAt? states position = some s) :
    s ∈ states.map State.id := by
  unfold stateAt? at h
  split at h
  · obtain ⟨r, hr, rfl⟩ := Option.map_eq_some_iff.mp h
    exact List.mem_map.mpr ⟨r, List.mem_of_getElem? hr, rfl⟩
  · cases h

/-- A target is one of the given states. -/
theorem targetOf_mem {state : String} {index : Int} {target : Option Ident}
    (h : targetOf b t bundle states state index = .ok target) : ∀ s ∈ target, s ∈ states.map State.id := by
  intro s hs
  unfold targetOf at h
  obtain ⟨_, -, h⟩ := except_bind_eq_ok h
  obtain ⟨_, -, h⟩ := except_bind_eq_ok h
  obtain ⟨_, -, h⟩ := except_bind_eq_ok h
  cases h
  exact stateAt?_mem hs

theorem suspendState_mem {suspend : Option Ident} (h : suspendState b t bundle states = .ok suspend) :
    ∀ s ∈ suspend, s ∈ states.map State.id := by
  intro s hs
  unfold suspendState at h
  obtain ⟨_, -, h⟩ := except_bind_eq_ok h
  obtain ⟨_, -, h⟩ := except_bind_eq_ok h
  cases h
  exact stateAt?_mem hs

end Bundle

namespace Machine

variable {b : Binding} {t : Tree} {bundle : Path} {states : List State}

/-- A transition as a bundle records it at an index. -/
structure Records (t : Tree) (bundle : Path) (states : List State) (s : State) (index : Nat) (r : Transition) : Prop where
  source : r.source = s.id
  label : r.label = Bundle.recordedGuard t bundle s.name index
  target : ∀ i ∈ r.target, i ∈ states.map State.id

theorem readTransition_eq_ok {s : State} {index : Nat} {trail trail' : Trail} {r : Transition}
    (h : outcome (readTransition b bundle states s index t) trail = (.ok r, trail')) :
    (Records t bundle states s index r ∧ Bundle.targetOf b t bundle states s.name index = .ok r.target) ∧
      Draws trail [r.id] trail' := by
  unfold readTransition at h
  obtain ⟨label, trail₁, hlabel, h⟩ := outcome_reading_bind_eq_ok h
  obtain ⟨target, trail₂, htarget, h⟩ := outcome_reading_bind_eq_ok h
  obtain ⟨id, trail₃, hdraw, h⟩ := outcome_reading_bind_eq_ok h
  rw [outcome_reading_pure, Prod.mk.injEq, Except.ok.injEq] at h
  obtain ⟨rfl, rfl⟩ := h
  rw [outcome_reading_query, Prod.mk.injEq] at htarget
  obtain ⟨htarget, rfl⟩ := htarget
  rw [outcome_draw, Prod.mk.injEq, Except.ok.injEq] at hdraw
  obtain ⟨rfl, rfl⟩ := hdraw
  obtain ⟨hlabel, hsupply⟩ := Bundle.guardOf_eq_ok hlabel
  refine ⟨⟨⟨rfl, hlabel, Bundle.targetOf_mem htarget⟩, htarget⟩, ?_, ?_⟩
  · rw [hsupply]
    rfl
  · rw [hsupply]
    rfl

/-- The transitions of a state as a bundle records them: as many as its header counts, by index. -/
structure RecordsAll (b : Binding) (t : Tree) (bundle : Path) (states : List State) (s : State)
    (rs : List Transition) : Prop where
  count : Bundle.transitionCount b t bundle s.name = .ok rs.length
  each : List.Forall₂ (Records t bundle states s) (List.range rs.length) rs

/-- The transitions of a state lead where a bundle records it. -/
def LeadsAs (b : Binding) (t : Tree) (bundle : Path) (states : List State) (s : State) (rs : List Transition) : Prop :=
  ∀ (index : Nat) (r : Transition), rs[index]? = some r →
    Bundle.targetOf b t bundle states s.name index = .ok r.target

theorem readTransitions_eq_ok {s : State} {trail trail' : Trail} {rs : List Transition}
    (h : outcome (readTransitions b bundle states s t) trail = (.ok rs, trail')) :
    (RecordsAll b t bundle states s rs ∧ LeadsAs b t bundle states s rs) ∧
      Draws trail (rs.map Transition.id) trail' := by
  unfold readTransitions at h
  obtain ⟨count, trail₁, hcount, h⟩ := outcome_reading_bind_eq_ok h
  rw [outcome_reading_query, Prod.mk.injEq] at hcount
  obtain ⟨hcount, rfl⟩ := hcount
  obtain ⟨hall, hdraws⟩ := outcome_mapM_eq_ok (fun r => [r.id])
    (fun index _ _ _ _ hr => readTransition_eq_ok hr) h
  have hlength : rs.length = count := by rw [← hall.length_eq, List.length_range]
  rw [← List.map_eq_flatMap] at hdraws
  refine ⟨⟨⟨?_, ?_⟩, fun index r hr => ?_⟩, hdraws⟩
  · rw [hcount, hlength]
  · rw [hlength]
    exact hall.imp fun _ _ hr => hr.1
  · obtain ⟨hindex, rfl⟩ := List.getElem?_eq_some_iff.mp hr
    have htarget := ((List.forall₂_iff_get.mp hall).2 index (by simpa [← hlength] using hindex) hindex).2
    simpa only [List.get_eq_getElem, List.getElem_range] using htarget

/-- The transition at an index is the one recorded at this index. -/
theorem RecordsAll.at_index {s : State} {rs : List Transition} (h : RecordsAll b t bundle states s rs) {index : Nat}
    (hi : index < rs.length) : Records t bundle states s index rs[index] := by
  have hrecord := (List.forall₂_iff_get.mp h.each).2 index (by simpa using hi) hi
  simpa only [List.get_eq_getElem, List.getElem_range] using hrecord

theorem RecordsAll.source {s : State} {rs : List Transition} (h : RecordsAll b t bundle states s rs) :
    ∀ r ∈ rs, r.source = s.id := by
  intro r hr
  obtain ⟨i, hi, rfl⟩ := List.getElem_of_mem hr
  exact (h.at_index hi).source

/-! ## Graphs -/

/-- The graph of some states and of the transitions that a bundle records for each of them. -/
structure GraphOf (b : Binding) (t : Tree) (bundle : Path) (states : List State) (rows : List (List Transition))
    (g : Graph) : Prop where
  names : Bundle.stateNames t bundle = .ok (states.map State.name)
  states_nodup : (states.map State.id).Nodup
  recorded : List.Forall₂ (RecordsAll b t bundle states) states rows
  rows_nodup : (rows.flatten.map Transition.id).Nodup
  suspend : ∀ i ∈ g.suspendState, i ∈ states.map State.id
  graph : g = .ofRecords states rows.flatten g.suspendState

theorem readGraph_eq_ok {g : Graph} {trail trail' : Trail}
    (h : outcome (readGraph b bundle t) trail = (.ok (states, g), trail')) :
    ∃ rows, GraphOf b t bundle states rows g ∧ List.Forall₂ (LeadsAs b t bundle states) states rows ∧
      Bundle.suspendState b t bundle states = .ok g.suspendState := by
  unfold readGraph at h
  obtain ⟨names, trail₁, hnames, h⟩ := outcome_reading_bind_eq_ok h
  obtain ⟨states', trail₂, hstates, h⟩ := outcome_reading_bind_eq_ok h
  obtain ⟨rows, trail₃, hrows, h⟩ := outcome_reading_bind_eq_ok h
  obtain ⟨suspend, trail₄, hsuspend, h⟩ := outcome_reading_bind_eq_ok h
  rw [outcome_reading_pure, Prod.mk.injEq, Except.ok.injEq, Prod.mk.injEq] at h
  obtain ⟨⟨rfl, rfl⟩, rfl⟩ := h
  rw [outcome_reading_query, Prod.mk.injEq] at hnames hsuspend
  rw [Bundle.outcome_freshStates, Prod.mk.injEq, Except.ok.injEq] at hstates
  obtain ⟨rfl, -⟩ := hstates
  obtain ⟨hall, hdraws⟩ := outcome_mapM_eq_ok (fun rs => rs.map Transition.id)
    (fun s _ _ _ _ hr => readTransitions_eq_ok hr) hrows
  refine ⟨rows, ⟨?_, ?_, hall.imp fun _ _ hr => hr.1, ?_, Bundle.suspendState_mem hsuspend.1, rfl⟩,
    hall.imp fun _ _ hr => hr.2, hsuspend.1⟩
  · rw [hnames.1, Bundle.map_name_freshStates]
  · rw [Bundle.map_id_freshStates]
    exact Bundle.nodup_drawnIds _ _
  · rw [List.map_flatten, ← List.flatMap_def]
    exact hdraws.nodup

namespace GraphOf

variable {rows : List (List Transition)} {g : Graph}

theorem states_eq (h : GraphOf b t bundle states rows g) : g.states = states.map State.id := by
  rw [h.graph]
  rfl

theorem transitions_eq (h : GraphOf b t bundle states rows g) : g.transitions = rows.flatten.map Transition.id := by
  rw [h.graph]
  rfl

theorem state?_eq (h : GraphOf b t bundle states rows g) {s : State} (hs : s ∈ states) : g.state? s.id = some s := by
  rw [h.graph]
  exact Graph.state?_ofRecords h.states_nodup hs

theorem transition?_eq (h : GraphOf b t bundle states rows g) {r : Transition} (hr : r ∈ rows.flatten) :
    g.transition? r.id = some r := by
  rw [h.graph]
  exact Graph.transition?_ofRecords h.rows_nodup hr

theorem listed (h : GraphOf b t bundle states rows g) : Graph.Listed states rows :=
  h.recorded.imp fun _ _ hr => hr.source

/-- The transitions that leave a state are those recorded for its place in the list of states. -/
theorem transitionsFrom_eq (h : GraphOf b t bundle states rows g) {k : Nat} {s : State} {rs : List Transition}
    (hs : states[k]? = some s) (hr : rows[k]? = some rs) : g.transitionsFrom s.id = rs.map Transition.id := by
  rw [h.graph]
  exact Graph.transitionsFrom_listed h.listed h.states_nodup h.rows_nodup hs hr

theorem wellFormed (h : GraphOf b t bundle states rows g) : g.WellFormed := by
  rw [h.graph]
  exact Graph.wellFormed_ofRecords h.states_nodup h.rows_nodup h.listed.source_mem

/-- The records of the listed states are the states that were read. -/
theorem listedStates_eq (h : GraphOf b t bundle states rows g) : g.listedStates = states := by
  unfold Graph.listedStates
  rw [h.states_eq, List.filterMap_map]
  have hrecord : ∀ s ∈ states, (g.state? ∘ State.id) s = some s := fun s hs => h.state?_eq hs
  rw [List.filterMap_congr hrecord, List.filterMap_some]

/-- Each state has a name that was listed. -/
theorem isListed (h : GraphOf b t bundle states rows g) : ∀ s ∈ states, Text.IsListed s.name :=
  fun _ hs => Bundle.isListed_of_stateNames h.names _ (List.mem_map_of_mem hs)

/-- A listed state has a place in the list of states, and the transitions that leave it are those recorded there. -/
theorem place (h : GraphOf b t bundle states rows g) {i : Ident} (hi : i ∈ g.states) {name : String}
    (hname : name ∈ g.stateName? i) :
    ∃ s ∈ states, ∃ rs ∈ rows, s.id = i ∧ s.name = name ∧ RecordsAll b t bundle states s rs ∧
      g.transitionsFrom i = rs.map Transition.id := by
  have hlength := h.recorded.length_eq
  rw [h.states_eq] at hi
  obtain ⟨s, hs, rfl⟩ := List.mem_map.mp hi
  rw [Graph.stateName?, h.state?_eq hs] at hname
  cases hname
  obtain ⟨k, hk, rfl⟩ := List.getElem_of_mem hs
  have hk' : k < rows.length := by omega
  have hrecords := (List.forall₂_iff_get.mp h.recorded).2 k hk hk'
  have hfrom := h.transitionsFrom_eq (List.getElem?_eq_getElem hk) (List.getElem?_eq_getElem hk')
  exact ⟨states[k], hs, rows[k], List.getElem_mem hk', rfl, rfl, hrecords, hfrom⟩

/-- Each transition is recorded for a state at an index. -/
theorem recorded_of_mem (h : GraphOf b t bundle states rows g) {r : Transition} (hr : r ∈ rows.flatten) :
    ∃ s index, Records t bundle states s index r := by
  obtain ⟨rs, hrs, hr⟩ := List.mem_flatten.mp hr
  obtain ⟨k, hk, rfl⟩ := List.getElem_of_mem hrs
  have hk' : k < states.length := by
    rw [h.recorded.length_eq]
    exact hk
  have hrecords := (List.forall₂_iff_get.mp h.recorded).2 k hk' hk
  obtain ⟨index, hindex, rfl⟩ := List.getElem_of_mem hr
  exact ⟨states[k], index, hrecords.at_index hindex⟩

theorem keys_stateRecords (h : GraphOf b t bundle states rows g) : g.stateRecords.keys = states.map State.id := by
  rw [h.graph]
  refine Table.keys_ofEntries ?_ h.states_nodup
  rw [List.map_map]
  rfl

theorem keys_transitionRecords (h : GraphOf b t bundle states rows g) :
    g.transitionRecords.keys = rows.flatten.map Transition.id := by
  rw [h.graph]
  refine Table.keys_ofEntries ?_ h.rows_nodup
  rw [List.map_map]
  rfl

theorem map_stateName? (h : GraphOf b t bundle states rows g) :
    g.states.map g.stateName? = (states.map State.name).map some := by
  rw [h.states_eq, List.map_map, List.map_map]
  refine List.map_congr_left fun s hs => ?_
  simp [Graph.stateName?, h.state?_eq hs]

theorem map_transitionsFrom (h : GraphOf b t bundle states rows g) :
    g.states.map g.transitionsFrom = rows.map (List.map Transition.id) := by
  have hlength := h.recorded.length_eq
  rw [h.states_eq, List.map_map]
  refine List.ext_getElem (by simp [hlength]) fun k hk hk' => ?_
  rw [List.length_map] at hk hk'
  simp only [List.getElem_map, Function.comp_apply]
  exact h.transitionsFrom_eq (List.getElem?_eq_getElem hk) (List.getElem?_eq_getElem hk')

end GraphOf

/-! ## Machines -/

theorem keys_gridLayout (hn : (states.map State.id).Nodup) : (gridLayout states).keys = states.map State.id := by
  have hkeys : (states.mapIdx fun i s => (s.id, StateLayout.usual i)).map Prod.fst = states.map State.id := by
    exact List.ext_getElem (by simp) fun k _ _ => by simp
  exact Table.keys_ofEntries hkeys hn

/-- A machine that is what a bundle records. -/
structure LoadedFrom (t : Tree) (bundle : Path) (m : Machine) : Prop where
  /-- The states are different, and the names that the bundle lists are theirs in order. -/
  states_nodup : m.graph.states.Nodup
  names : ∃ names, Bundle.stateNames t bundle = .ok names ∧ m.graph.states.map m.graph.stateName? = names.map some
  /-- The transitions are different, and listed state by state. -/
  transitions_nodup : m.graph.transitions.Nodup
  blocks : m.graph.transitions = (m.graph.states.map m.graph.transitionsFrom).flatten
  /-- A state has as many transitions as its header counts. -/
  count : ∀ state ∈ m.graph.states, ∀ name ∈ m.graph.stateName? state,
    Bundle.transitionCount m.binding t bundle name = .ok (m.graph.transitionsFrom state).length
  /-- The guard of the transition at an index is the one that is recorded at this index. -/
  guard : ∀ state ∈ m.graph.states, ∀ name ∈ m.graph.stateName? state,
    ∀ index id, (m.graph.transitionsFrom state)[index]? = some id →
      ∃ r, m.graph.transition? id = some r ∧ r.id = id ∧ r.source = state ∧
        r.label = Bundle.recordedGuard t bundle name index
  target : ∀ id ∈ m.graph.transitions, ∀ r ∈ m.graph.transition? id, ∀ state ∈ r.target, state ∈ m.graph.states
  suspend : ∀ state ∈ m.graph.suspendState, state ∈ m.graph.states
  /-- What is recorded is recorded for what is listed, and for nothing else. -/
  stateRecords : m.graph.stateRecords.keys = m.graph.states
  transitionRecords : m.graph.transitionRecords.keys = m.graph.transitions
  stateBoilerplate : m.stateBoilerplate.keys = m.graph.states
  stateLayout : m.stateLayout.keys = m.graph.states

theorem readParts_eq_ok {m : Machine} {trail trail' : Trail}
    (h : outcome (readParts b bundle t) trail = (.ok m, trail')) :
    ∃ states rows, GraphOf m.binding t bundle states rows m.graph ∧
      (List.Forall₂ (LeadsAs m.binding t bundle states) states rows ∧
        Bundle.suspendState m.binding t bundle states = .ok m.graph.suspendState) ∧
      m.stateBoilerplate.keys = states.map State.id ∧ m.stateLayout.keys = states.map State.id := by
  obtain ⟨states, _, hgraph, hparts⟩ := Bundle.parts_of_readParts h
  obtain ⟨rows, hrows, hleads⟩ := readGraph_eq_ok hgraph
  rw [hparts.binding, hparts.stateLayout]
  exact ⟨states, rows, hrows, hleads, hparts.keys_stateBoilerplate hrows.states_nodup,
    keys_gridLayout hrows.states_nodup⟩

theorem GraphOf.loadedFrom {m : Machine} {rows : List (List Transition)}
    (h : GraphOf m.binding t bundle states rows m.graph) (hcode : m.stateBoilerplate.keys = states.map State.id)
    (hlayout : m.stateLayout.keys = states.map State.id) : LoadedFrom t bundle m where
  states_nodup := by
    rw [h.states_eq]
    exact h.states_nodup
  names := ⟨_, h.names, h.map_stateName?⟩
  transitions_nodup := by
    rw [h.transitions_eq]
    exact h.rows_nodup
  blocks := by rw [h.map_transitionsFrom, h.transitions_eq, List.map_flatten]
  count := by
    intro i hi name hname
    obtain ⟨s, -, rs, -, -, rfl, hrecords, hfrom⟩ := h.place hi hname
    rw [hfrom, List.length_map, hrecords.count]
  guard := by
    intro i hi name hname index id hid
    obtain ⟨s, -, rs, hrs, rfl, rfl, hrecords, hfrom⟩ := h.place hi hname
    rw [hfrom, List.getElem?_map, Option.map_eq_some_iff] at hid
    obtain ⟨r, hr, rfl⟩ := hid
    obtain ⟨hindex, rfl⟩ := List.getElem?_eq_some_iff.mp hr
    have hmem : rs[index] ∈ rows.flatten := List.mem_flatten.mpr ⟨rs, hrs, List.getElem_mem hindex⟩
    have hrecord := hrecords.at_index hindex
    exact ⟨rs[index], h.transition?_eq hmem, rfl, hrecord.source, hrecord.label⟩
  target := by
    intro id hid r hr i hi
    rw [h.transitions_eq] at hid
    obtain ⟨r', hr', rfl⟩ := List.mem_map.mp hid
    rw [h.transition?_eq hr'] at hr
    cases hr
    obtain ⟨s, index, hrecord⟩ := h.recorded_of_mem hr'
    rw [h.states_eq]
    exact hrecord.target i hi
  suspend := by
    rw [h.states_eq]
    exact h.suspend
  stateRecords := by rw [h.keys_stateRecords, h.states_eq]
  transitionRecords := by rw [h.keys_transitionRecords, h.transitions_eq]
  stateBoilerplate := by rw [h.states_eq, hcode]
  stateLayout := by rw [h.states_eq, hlayout]

theorem load_eq_ok {binding : Option Binding} {m : Machine} {trail trail' : Trail}
    (h : outcome (load bundle binding t) trail = (.ok m, trail')) :
    ∃ states rows, GraphOf m.binding t bundle states rows m.graph ∧
      m.stateBoilerplate.keys = states.map State.id ∧ m.stateLayout.keys = states.map State.id := by
  obtain ⟨b, trail₁, trail₂, h⟩ := Bundle.readParts_of_load h
  obtain ⟨states, rows, hgraph, -, hkeys⟩ := readParts_eq_ok h
  exact ⟨states, rows, hgraph, hkeys⟩

theorem load_leads {binding : Option Binding} {m : Machine} {trail trail' : Trail}
    (h : outcome (load bundle binding t) trail = (.ok m, trail')) :
    ∃ states rows, GraphOf m.binding t bundle states rows m.graph ∧
      List.Forall₂ (LeadsAs m.binding t bundle states) states rows ∧
      Bundle.suspendState m.binding t bundle states = .ok m.graph.suspendState := by
  obtain ⟨b, trail₁, trail₂, h⟩ := Bundle.readParts_of_load h
  obtain ⟨states, rows, hgraph, hleads, -⟩ := readParts_eq_ok h
  exact ⟨states, rows, hgraph, hleads⟩

/-- What is loaded is well-formed, whatever the bundle holds, and nothing is looked up where there is nothing. -/
theorem load_well_formed (t : Tree) (bundle : Path) (binding : Option Binding) (trail : Trail) :
    (∀ m trail', outcome (load bundle binding t) trail = (.ok m, trail') → LoadedFrom t bundle m) ∧
      ∀ f trail', outcome (load bundle binding t) trail = (.error f, trail') → f.isIndexFault = false := by
  constructor
  · intro m trail' h
    obtain ⟨states, rows, hgraph, hcode, hlayout⟩ := load_eq_ok h
    exact hgraph.loadedFrom hcode hlayout
  · intro f trail' h
    exact Fault.isIndexFault_of_isOfReading (load_reads bundle binding t trail f trail' h)

/-- A bundle that lists one name twice, with targets within and beyond its list. -/
def doubled : Tree where
  home := ["work"]
  nodes :=
    [(["work"], .directory), (["work", "M.machine"], .directory),
      (["work", "M.machine", "States"], .file "A\n\n A\n".toUTF8),
      (["work", "M.machine", "State_A.h"], .file
        "#define NUMBER_OF_TRANSITIONS 2\n#define TRANSITION_0_TARGET 1\n#define TRANSITION_1_TARGET 7\n".toUTF8),
      (["work", "M.machine", "State_A_Transition_0.expr"], .file " x > 1 \n".toUTF8)]
  scratch := []

theorem load_doubled :
    (outcome (load ⟨.none, ["M.machine"]⟩ (some .c) doubled) ⟨.start, []⟩).1.toOption.map (fun m =>
      (m.graph.states.length, m.graph.transitions.length)) = some (2, 4) := by
  decide +kernel

theorem doubled_is_loaded :
    ∃ m trail', outcome (load ⟨.none, ["M.machine"]⟩ (some .c) doubled) ⟨.start, []⟩ = (.ok m, trail') ∧
      m.graph.transitions.length = 4 ∧ LoadedFrom doubled ⟨.none, ["M.machine"]⟩ m := by
  have hcounts := load_doubled
  rcases h : outcome (load ⟨.none, ["M.machine"]⟩ (some .c) doubled) ⟨.start, []⟩ with ⟨f | m, trail'⟩
  · rw [h] at hcounts
    cases hcounts
  · rw [h] at hcounts
    have htransitions : m.graph.transitions.length = 4 := (Prod.ext_iff.mp (Option.some.inj hcounts)).2
    exact ⟨m, trail', rfl, htransitions, (load_well_formed _ _ _ _).1 m trail' h⟩

end Machine

end MachineBundle
