import MachineBundle.Proofs.Bundle.Kept
import MachineBundle.Proofs.Source.Anonymous

/-!
# Machines in canonical form

What is loaded is in a form that a bundle keeps as it is: guards are trimmed, line ends are unified, and whatever is
listed has a record. Such a machine has the same files again when it has been exported and loaded.
-/

namespace MachineBundle

namespace Text

theorem not_mem_unifyBreaks (cs : List Char) : '\r' ∉ unifyBreaks cs := by
  induction cs using unifyBreaks.induct with
  | case1 => simp [unifyBreaks]
  | case2 r ih => simpa [unifyBreaks] using ih
  | case3 r hr ih =>
    rw [unifyBreaks]
    · simpa using ih
    · exact hr
  | case4 c r hr hc ih =>
    rw [unifyBreaks]
    · exact List.not_mem_cons_of_ne_of_not_mem (fun he => hc he.symm) ih
    · exact hr
    · exact hc

theorem trimmed_trimmed (s : String) : trimmed (trimmed s) = trimmed s := by
  rw [trimmed, trimmed, String.toList_ofList, trimBlanks_trimBlanks]

theorem not_mem_trimmed {s : String} {c : Char} (h : c ∉ s.toList) : c ∉ (trimmed s).toList := by
  rw [trimmed, String.toList_ofList]
  exact fun hc => h (trimBlanks_subset _ hc)

end Text

theorem Tree.not_mem_of_readText {t : Tree} {p : Path} {text : String} (h : t.readText p = .ok text) :
    '\r' ∉ text.toList := by
  obtain ⟨content, -, h⟩ := except_bind_eq_ok h
  unfold textOf at h
  split at h
  · cases h
    rw [String.toList_ofList]
    exact Text.not_mem_unifyBreaks _
  · cases h

/-- A machine of which a bundle keeps everything but identifiers and places. -/
structure Machine.Canonical (m : Machine) : Prop where
  graph : m.graph.WellFormed
  named : ∀ s ∈ m.graph.listedStates, s.name ≠ ""
  unbroken : m.graph.Unbroken
  trimmed : ∀ i ∈ m.graph.transitions, ∀ r ∈ m.graph.transition? i, Text.trimmed r.label = r.label
  code : m.CodeUnbroken

namespace Bundle

variable {t : Tree} {bundle : Path} {names : List String} {m m' : Machine}

/-! ## What is loaded -/

theorem recordedGuard_canonical (t : Tree) (bundle : Path) (state : String) (index : Nat) :
    Text.trimmed (recordedGuard t bundle state index) = recordedGuard t bundle state index ∧
      '\r' ∉ (recordedGuard t bundle state index).toList := by
  unfold recordedGuard
  split
  · rename_i text htext
    exact ⟨Text.trimmed_trimmed text, Text.not_mem_trimmed (Tree.not_mem_of_readText htext)⟩
  · decide

theorem addSections_unbroken {files : List (Section × String)} {p code : Boilerplate}
    (h : addSections t bundle files p = .ok code) (hp : ∀ s, '\r' ∉ (p.get s).toList) :
    ∀ s, '\r' ∉ (code.get s).toList := by
  induction files generalizing p with
  | nil =>
    cases h
    exact hp
  | cons f r ih =>
    unfold addSections at h
    obtain ⟨content, hcontent, h⟩ := except_bind_eq_ok h
    cases content with
    | none => exact ih h hp
    | some text =>
      refine ih h fun s => ?_
      rw [get_set]
      split
      · refine Tree.not_mem_of_readText (t := t) (p := bundle.join f.2) ?_
        unfold content? at hcontent
        split at hcontent
        · rename_i hread
          cases hcontent
          exact hread
        · split at hcontent <;> cases hcontent
      · exact hp s

theorem CodeFrom.unbroken (h : CodeFrom t bundle names m) : m.CodeUnbroken where
  machine := addSections_unbroken h.machine fun s => by simp [get_blank]
  states := by
    intro i hi
    obtain ⟨k, hk, rfl⟩ := List.getElem_of_mem hi
    have hk' : k < names.length := by rwa [← h.length]
    exact addSections_unbroken (h.states k _ _ (List.getElem?_eq_getElem hk) (List.getElem?_eq_getElem hk'))
      fun s => by simp [get_blank]

/-- What is loaded is in canonical form, whatever the bundle holds. -/
theorem canonical_of_load {binding : Option Binding} {trail trail' : Trail}
    (h : outcome (Machine.load bundle binding t) trail = (.ok m, trail')) : m.Canonical := by
  obtain ⟨states, rows, hgraph, -, -⟩ := Machine.load_eq_ok h
  have hguard : ∀ i ∈ m.graph.transitions, ∀ r ∈ m.graph.transition? i,
      Text.trimmed r.label = r.label ∧ '\r' ∉ r.label.toList := by
    intro i hi r hr
    rw [hgraph.transitions_eq] at hi
    obtain ⟨r', hr', rfl⟩ := List.mem_map.mp hi
    rw [hgraph.transition?_eq hr'] at hr
    cases hr
    obtain ⟨s, index, hrecord⟩ := hgraph.recorded_of_mem hr'
    rw [hrecord.label]
    exact recordedGuard_canonical t bundle s.name index
  exact {
    graph := hgraph.wellFormed
    named := by
      rw [hgraph.listedStates_eq]
      exact fun s hs => (hgraph.isListed s hs).nonempty
    unbroken := fun i hi r hr => (hguard i hi r hr).2
    trimmed := fun i hi r hr => (hguard i hi r hr).1
    code := (load_code hgraph.names h).2.unbroken }

end Bundle

/-! ## Plans -/

namespace Graph

/-- Where no state is listed twice, the state at a position has this position. -/
theorem stateIndex?_getElem? {g : Graph} (hn : g.states.Nodup) {i : Nat} (hi : i < g.states.length) :
    g.stateIndex? g.states[i]? = some i := by
  rw [List.getElem?_eq_getElem hi]
  refine List.findIdx?_eq_some_iff_getElem.mpr ⟨hi, by simp, fun j hj => ?_⟩
  have hne : g.states[j] ≠ g.states[i] := fun he => absurd (hn.getElem_inj_iff.mp he) (Nat.ne_of_lt hj)
  simpa using hne

/-- The state at the position of another one has this position. -/
theorem stateIndex?_bind {g g' : Graph} (hn : g'.states.Nodup) (hlength : g'.states.length = g.states.length)
    (i : Option Ident) : g'.stateIndex? ((g.stateIndex? i).bind fun k => g'.states[k]?) = g.stateIndex? i := by
  cases hk : g.stateIndex? i with
  | none => rfl
  | some k =>
    rw [Option.bind_some, stateIndex?_getElem? hn]
    rw [hlength]
    exact stateIndex?_lt hk

end Graph

section Plans

open Source Export

variable {m m' : Machine} {b₀ b : Binding} {name : String} {s₀ isSuspensible : Bool}

theorem Restored.names_eq (h : Restored m b₀ s₀ m') (hm : m.Canonical) (hm' : m'.Canonical) :
    m'.graph.listedStates.map State.name = m.graph.listedStates.map State.name := by
  have hnames := h.stateNames
  rwa [hm.graph.stateNames_eq hm.named, hm'.graph.stateNames_eq hm'.named] at hnames

theorem Restored.length_listedStates (h : Restored m b₀ s₀ m') (hm : m.Canonical) (hm' : m'.Canonical) :
    m'.graph.listedStates.length = m.graph.listedStates.length := by
  simpa using congrArg List.length (h.names_eq hm hm')

theorem Restored.length_states (h : Restored m b₀ s₀ m') (hm : m.Canonical) (hm' : m'.Canonical) :
    m'.graph.states.length = m.graph.states.length := by
  rw [← hm.graph.statesKnown.length_listedStates, ← hm'.graph.statesKnown.length_listedStates,
    h.length_listedStates hm hm']

/-- The transitions that leave two states at the same position have the same plans. -/
theorem Restored.transitions_eq (h : Restored m b₀ s₀ m') (hm : m.Canonical) (hm' : m'.Canonical)
    {k : Nat} {s s' : State} (hs : m.graph.listedStates[k]? = some s) (hs' : m'.graph.listedStates[k]? = some s') :
    (statePlan m'.graph s').transitions = (statePlan m.graph s).transitions := by
  have hid : m.graph.states[k]? = some s.id := by
    rw [hm.graph.statesKnown.getElem?_states, hs]
    rfl
  have hid' : m'.graph.states[k]? = some s'.id := by
    rw [hm'.graph.statesKnown.getElem?_states, hs']
    rfl
  have hedges := h.transitions k s.id s'.id hid hid'
  rw [Bundle.map_edge?_outgoing, Bundle.map_edge?_outgoing] at hedges
  have hlength : (outgoing m'.graph s'.id).length = (outgoing m.graph s.id).length := by
    simpa using congrArg List.length hedges
  unfold statePlan
  refine List.ext_getElem (by simpa using hlength) fun index hi hi' => ?_
  rw [List.length_mapIdx] at hi hi'
  have hedge := List.getElem_of_eq hedges (by simpa using hi)
  simp only [List.getElem_map, Option.some.injEq, Prod.mk.injEq, id_eq] at hedge
  obtain ⟨j, hj, hr⟩ := mem_outgoing (List.getElem_mem hi')
  simp only [List.getElem_mapIdx, transitionPlan, hedge.1, hedge.2, hm.trimmed j hj _ hr,
    Graph.stateIndex?_bind hm'.graph.states (h.length_states hm hm')]

theorem Restored.statePlan_eq (h : Restored m b₀ s₀ m') (hm : m.Canonical) (hm' : m'.Canonical)
    {k : Nat} {s s' : State} (hs : m.graph.listedStates[k]? = some s) (hs' : m'.graph.listedStates[k]? = some s') :
    (statePlan m'.graph s').anonymous = (statePlan m.graph s).anonymous := by
  have hname : s'.name = s.name := by
    have hnames := congrArg (·[k]?) (h.names_eq hm hm')
    simpa [hs, hs'] using hnames
  have htransitions := h.transitions_eq hm hm' hs hs'
  unfold StatePlan.anonymous
  rw [htransitions]
  unfold statePlan
  rw [hname]

/-- Two plans of machines that have been restored from one another differ in identifiers only. -/
theorem Restored.plan_eq (h : Restored m b₀ s₀ m') (hs₀ : isSuspensible = true → s₀ = true) (hm : m.Canonical)
    (hm' : m'.Canonical) :
    (MachinePlan.of m' b name isSuspensible).anonymous = (MachinePlan.of m b name isSuspensible).anonymous := by
  have hstates : (m'.graph.listedStates.map (statePlan m'.graph)).map StatePlan.anonymous =
      (m.graph.listedStates.map (statePlan m.graph)).map StatePlan.anonymous := by
    refine List.ext_getElem (by simpa using h.length_listedStates hm hm') fun k hk hk' => ?_
    simp only [List.length_map] at hk hk'
    simp only [List.getElem_map]
    exact h.statePlan_eq hm hm' (List.getElem?_eq_getElem hk') (List.getElem?_eq_getElem hk)
  have hsuspend : (if isSuspensible then m'.graph.stateIndex? m'.graph.suspendState else none) =
      if isSuspensible then m.graph.stateIndex? m.graph.suspendState else none := by
    cases isSuspensible with
    | false => rfl
    | true =>
      have hsuspend := h.suspendState
      rw [if_pos (hs₀ rfl)] at hsuspend
      rw [if_pos rfl, if_pos rfl, hsuspend, Graph.stateIndex?_bind hm'.graph.states (h.length_states hm hm')]
  unfold MachinePlan.of MachinePlan.anonymous
  rw [hstates, hsuspend]

/-! ## Files -/

theorem sectionFiles_congr {code code' : Boilerplate} {files : List (Section × String)}
    (h : ∀ s ∈ files.map Prod.fst, code'.get s = code.get s) : sectionFiles code' files = sectionFiles code files :=
  List.map_congr_left fun f hf => congrArg (textFile f.2) (h f.1 (List.mem_map_of_mem hf))

theorem stateFiles_congr {plan plan' : MachinePlan} {p p' : StatePlan} (hplan : plan'.anonymous = plan.anonymous)
    (hp : p'.anonymous = p.anonymous)
    (hcode : ∀ s ∈ Binding.stateSections, (m'.boilerplateOf p'.id).get s = (m.boilerplateOf p.id).get s) :
    stateFiles m' plan' p' = stateFiles m plan p := by
  have hbinding : plan'.binding = plan.binding := by rw [← plan'.binding_anonymous, hplan, plan.binding_anonymous]
  have hname : p'.name = p.name := by rw [← p'.name_anonymous, hp, p.name_anonymous]
  have htransitions : p'.transitions = p.transitions := by
    rw [← p'.transitions_anonymous, hp, p.transitions_anonymous]
  have hsections : sectionFiles (m'.boilerplateOf p'.id) (Binding.stateSectionFiles p.name) =
      sectionFiles (m.boilerplateOf p.id) (Binding.stateSectionFiles p.name) :=
    sectionFiles_congr fun s hs => hcode s (by rwa [Binding.map_fst_stateSectionFiles] at hs)
  unfold stateFiles
  rw [← stateHeader_anonymous, ← stateImplementation_anonymous, hplan, hp, stateHeader_anonymous,
    stateImplementation_anonymous, hbinding, hname, htransitions, hsections]

theorem CodeKept.code_eq (h : CodeKept m m') (hcode : m.CodeUnbroken) {s : Section}
    (hs : s ∈ Binding.machineSections) : m'.boilerplate.get s = m.boilerplate.get s := by
  rw [h.code, if_pos hs, Bundle.unified_of_not_mem (hcode.machine s)]

theorem CodeKept.stateCode_eq (h : CodeKept m m') (hcode : m.CodeUnbroken) {k : Nat} {i i' : Ident}
    (hi : m.graph.states[k]? = some i) (hi' : m'.graph.states[k]? = some i') {s : Section}
    (hs : s ∈ Binding.stateSections) : (m'.boilerplateOf i').get s = (m.boilerplateOf i).get s := by
  rw [h.stateCode k i i' hi hi', if_pos hs, Bundle.unified_of_not_mem (hcode.states i (List.mem_of_getElem? hi) s)]

/-- The states at a position have the same files. -/
theorem Restored.stateFiles_eq (h : Restored m b₀ s₀ m') (hs₀ : isSuspensible = true → s₀ = true) (hk : CodeKept m m')
    (hm : m.Canonical) (hm' : m'.Canonical) {k : Nat} {s s' : State} (hs : m.graph.listedStates[k]? = some s)
    (hs' : m'.graph.listedStates[k]? = some s') :
    stateFiles m' (.of m' b name isSuspensible) (statePlan m'.graph s') =
      stateFiles m (.of m b name isSuspensible) (statePlan m.graph s) := by
  have hid : m.graph.states[k]? = some s.id := by
    rw [hm.graph.statesKnown.getElem?_states, hs]
    rfl
  have hid' : m'.graph.states[k]? = some s'.id := by
    rw [hm'.graph.statesKnown.getElem?_states, hs']
    rfl
  exact stateFiles_congr (h.plan_eq hs₀ hm hm') (h.statePlan_eq hm hm' hs hs') fun sec hsec =>
    hk.stateCode_eq hm.code hid hid' hsec

/-- A machine in canonical form that has been restored has the same files as before, in each language. -/
theorem Restored.files_eq (h : Restored m b₀ s₀ m') (hs₀ : isSuspensible = true → s₀ = true) (hk : CodeKept m m')
    (hm : m.Canonical) (hm' : m'.Canonical) : files m' b name isSuspensible = files m b name isSuspensible := by
  have hplan : (MachinePlan.of m' b name isSuspensible).anonymous = (MachinePlan.of m b name isSuspensible).anonymous :=
    h.plan_eq hs₀ hm hm'
  have hsections : sectionFiles m'.boilerplate (b.sectionFiles name) = sectionFiles m.boilerplate (b.sectionFiles name) :=
    sectionFiles_congr fun s hs => hk.code_eq hm.code (by rwa [Binding.map_fst_sectionFiles] at hs)
  have hheader : machineHeader (.of m' b name isSuspensible) = machineHeader (.of m b name isSuspensible) := by
    rw [← machineHeader_anonymous, hplan, machineHeader_anonymous]
  have himplementation : machineImplementation (.of m' b name isSuspensible) =
      machineImplementation (.of m b name isSuspensible) := by
    rw [← machineImplementation_anonymous, hplan, machineImplementation_anonymous]
  have hstates : (MachinePlan.of m' b name isSuspensible).states.map (stateFiles m' (.of m' b name isSuspensible)) =
      (MachinePlan.of m b name isSuspensible).states.map (stateFiles m (.of m b name isSuspensible)) := by
    refine List.ext_getElem (by simpa [MachinePlan.of] using h.length_listedStates hm hm') fun k hk₁ hk₂ => ?_
    simp only [MachinePlan.of, List.length_map] at hk₁ hk₂
    simpa [MachinePlan.of] using
      h.stateFiles_eq hs₀ hk hm hm' (List.getElem?_eq_getElem hk₂) (List.getElem?_eq_getElem hk₁)
  unfold files
  dsimp only
  rw [List.flatMap_def, List.flatMap_def, hstates, hheader, himplementation, hsections, h.stateNames, hk.windowLayout]
  rfl

end Plans

end MachineBundle
