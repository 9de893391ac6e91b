import MachineBundle.Proofs.Bundle.Code
import MachineBundle.Proofs.Bundle.Loadable

/-!
# Code that comes back

An exported machine can be loaded again whatever its transitions are. Each section that a bundle keeps comes back with
its line ends unified, all others are empty, and the window layout comes back byte by byte.
-/

namespace MachineBundle

/-- A machine with the code of another one as far as a bundle keeps it, state by state, and with its window layout. -/
structure CodeKept (m m' : Machine) : Prop where
  length : m'.graph.states.length = m.graph.states.length
  code : ∀ s, m'.boilerplate.get s =
    if s ∈ Binding.machineSections then Bundle.unified (m.boilerplate.get s) else ""
  stateCode : ∀ (k : Nat) (i i' : Ident), m.graph.states[k]? = some i → m'.graph.states[k]? = some i' →
    ∀ s, (m'.boilerplateOf i').get s =
      if s ∈ Binding.stateSections then Bundle.unified ((m.boilerplateOf i).get s) else ""
  windowLayout : m'.windowLayout = m.windowLayout

namespace Bundle

open Export

variable {t : Tree} {bundle : Path} {b : Binding} {names : List String} {m m' : Machine} {trail trail' : Trail}

/-! ## The code of a loaded machine -/

/-- A machine with the code that a bundle holds, and with that of its states by their names. -/
structure CodeFrom (t : Tree) (bundle : Path) (names : List String) (m : Machine) : Prop where
  length : m.graph.states.length = names.length
  machine : Bundle.boilerplate m.binding t bundle = .ok m.boilerplate
  states : ∀ (k : Nat) (i : Ident) (name : String), m.graph.states[k]? = some i → names[k]? = some name →
    Bundle.stateBoilerplate t bundle name = .ok (m.boilerplateOf i)

theorem readParts_code (hnames : stateNames t bundle = .ok names)
    (h : outcome (Machine.readParts b bundle t) trail = (.ok m, trail')) : m.binding = b ∧ CodeFrom t bundle names m := by
  obtain ⟨states, _, hgraph, hparts⟩ := parts_of_readParts h
  obtain ⟨rows, hrows, -⟩ := Machine.readGraph_eq_ok hgraph
  have hlisted : states.map State.name = names := Except.ok.inj (hrows.names.symm.trans hnames)
  refine ⟨hparts.binding, ?_, ?_, ?_⟩
  · rw [← hlisted, List.length_map, hrows.states_eq, List.length_map]
  · rw [hparts.binding]
    exact hparts.boilerplate
  · intro k i name hi hname
    rw [hrows.states_eq, List.getElem?_map] at hi
    obtain ⟨s, hs, rfl⟩ := Option.map_eq_some_iff.mp hi
    rw [← hlisted, List.getElem?_map, hs] at hname
    cases hname
    exact hparts.boilerplateOf hrows.states_nodup (List.mem_of_getElem? hs)

theorem load_code {binding : Option Binding} (hnames : stateNames t bundle = .ok names)
    (h : outcome (Machine.load bundle binding t) trail = (.ok m, trail')) :
    m.binding = binding.getD (recordedBinding t bundle) ∧ CodeFrom t bundle names m := by
  obtain ⟨_, _, hparts⟩ := readParts_of_load_through hnames h
  exact readParts_code hnames hparts

/-! ## Loading a stored bundle -/

section Stored

variable {isSuspensible : Bool}

theorem recordedBinding_stored {name : String} (h : Stored t bundle (files m b name isSuspensible)) :
    recordedBinding t bundle = b := by
  have hread := h.readText languageFile_mem (language_noReturn b)
  unfold recordedBinding text?
  rw [show t.readText (bundle.join languageFile) = .ok (b.name ++ "\n") from hread]
  exact congrArg (Option.getD · .default) (ofLanguage?_record b)

/-- All that is read of a stored bundle can be read as long as the path of a window layout can be looked at. -/
theorem loadable_stored (h : Stored t bundle (files m b bundle.stem isSuspensible))
    (hfit : Source.FitPlan (.of m b bundle.stem isSuspensible)) (hstates : m.graph.StatesKnown)
    (hroom : (bundle.join windowLayoutFile).text.utf8ByteSize < Tree.pathLimit) :
    Loadable t bundle b ((Source.MachinePlan.of m b bundle.stem isSuspensible).states.map Source.StatePlan.name) := by
  obtain ⟨d, -, hb⟩ := directory?_stored h languageFile_mem fileName_languageFile
  have hcount : ∀ s ∈ (Source.MachinePlan.of m b bundle.stem isSuspensible).states,
      transitionCount b t bundle s.name = .ok s.transitions.length := fun s hs =>
    transitionCount_stored h hfit hs (numbered_of hs)
  refine {
    noNull := ?_
    room := hroom
    count := ?_
    target := ?_
    suspend := ?_ }
  · rw [List.forall_mem_map]
    exact fun s hs => (hfit.states s hs).plain.not_mem (by decide)
  · rw [List.forall_mem_map]
    exact fun s hs => ((transitionCount_isOk_iff hb s.name).mp ⟨_, hcount s hs⟩).2
  · rw [List.forall_mem_map]
    intro s hs header hh count hc index hi
    rw [hcount s hs, Except.ok.injEq] at hc
    subst hc
    have hindex : index ∈ s.transitions.map Source.TransitionPlan.index := by
      rw [numbered_of hs]
      exact List.mem_range.mpr hi
    obtain ⟨p, hp, rfl⟩ := List.mem_map.mp hindex
    have htarget := targetOf_stored h hfit hs (numbered_of hs) (target_lt_stored h hfit hstates hs) hp []
    exact (targetOf_isOk_iff hb (hcount s hs) hi []).mp ⟨_, htarget⟩ header hh
  · have hsuspend := suspendState_stored h hfit (suspendIndex_lt_stored h hfit hstates) []
    exact (suspendState_isOk_iff hb []).mp ⟨_, hsuspend⟩

theorem get_blank (s : Section) : Boilerplate.blank.get s = "" := by
  cases s <;> rfl

/-- The code of a stored bundle is that of the machine, with its line ends unified. -/
theorem codeKept_stored (h : Stored t bundle (files m b bundle.stem isSuspensible)) (hstates : m.graph.StatesKnown)
    (hbinding : m'.binding = b) (hcode : CodeFrom t bundle
      ((Source.MachinePlan.of m b bundle.stem isSuspensible).states.map Source.StatePlan.name) m')
    (hlayout : m'.windowLayout = m.windowLayout) : CodeKept m m' where
  length := by rw [hcode.length, List.length_map, length_states_of hstates]
  code := by
    have hstored := addSections_stored h m.boilerplate (b.sectionFiles bundle.stem) (fun f hf => sectionFile_mem hf) .blank
    have hread := hcode.machine
    rw [hbinding, Bundle.boilerplate, hstored, Except.ok.injEq] at hread
    intro s
    rw [← hread, get_kept, Binding.map_fst_sectionFiles, get_blank]
  stateCode := by
    intro k i i' hi hi' s
    rw [hstates.getElem?_states] at hi
    obtain ⟨r, hr, rfl⟩ := Option.map_eq_some_iff.mp hi
    have hp : (Source.MachinePlan.of m b bundle.stem isSuspensible).states[k]? = some (Source.statePlan m.graph r) := by
      rw [Source.MachinePlan.of, List.getElem?_map, hr]
      rfl
    have hname : ((Source.MachinePlan.of m b bundle.stem isSuspensible).states.map Source.StatePlan.name)[k]? =
        some r.name := by
      rw [List.getElem?_map, hp]
      rfl
    have hread := hcode.states k i' r.name hi' hname
    have hstored := addSections_stored h (m.boilerplateOf r.id) (Binding.stateSectionFiles r.name)
      (fun f hf => stateSectionFile_mem (List.mem_of_getElem? hp) hf) .blank
    rw [Bundle.stateBoilerplate, hstored, Except.ok.injEq] at hread
    rw [← hread, get_kept, Binding.map_fst_stateSectionFiles, get_blank]
  windowLayout := hlayout

end Stored

end Bundle

namespace Export

open Bundle

variable {o : Options} {m m' : Machine} {destination : Path} {b : Binding} {scene scene' : Scene} {report : Report}
  {trail trail' : Trail}

/-- A window layout that was written is read back, and none is found where none was written and none stood. -/
theorem windowLayout_restored (h : outcome (machine o m destination b) scene = (.ok report, scene'))
    (hstored : Stored scene'.tree destination (files m b destination.stem o.isSuspensible))
    (hfree : m.windowLayout = none →
      scene.tree.file? (scene.tree.locate (destination.join windowLayoutFile)) = none)
    (hload : outcome (Machine.load destination none scene'.tree) trail = (.ok m', trail')) :
    m'.windowLayout = m.windowLayout := by
  cases hl : m.windowLayout with
  | none => rw [windowLayout_kept h hl hload, hfree hl]
  | some layout =>
    have hread := hstored.readBytes _ (windowLayoutFile_mem hl)
    have hlayout := (load_ok hload).2
    unfold windowLayout at hlayout
    rw [isFile_of_readBytes hread, hread] at hlayout
    exact (Except.ok.inj hlayout).symm

/-- An exported machine can be loaded if the path of a window layout can be looked at. -/
theorem load_exported (hstates : m.graph.StatesKnown) (hnames : ∀ s ∈ m.graph.listedStates, Source.FitName s.name)
    (hstem : Source.FitName destination.stem)
    (hroom : (destination.join windowLayoutFile).text.utf8ByteSize < Tree.pathLimit)
    (h : outcome (machine o m destination b) scene = (.ok report, scene')) (hn : report.files.Nodup) (trail : Trail) :
    ∃ m' trail', outcome (Machine.load destination none scene'.tree) trail = (.ok m', trail') := by
  have hfit : Source.FitPlan (.of m b destination.stem o.isSuspensible) := fitPlan_of hstem hnames
  have hstored := machine_stored h hn hfit.plain hstem.nonempty
  refine Loadable.load_succeeds ?_ (stateNames_stored hstored hfit hstates) trail
  rw [show (none : Option Binding).getD (recordedBinding scene'.tree destination) = b from recordedBinding_stored hstored]
  exact loadable_stored hstored hfit hstates hroom

/-- An exported machine can be loaded if the path of a window layout can be looked at, and then its code and its
layout come back. No window layout of an earlier bundle may stand in the place of one that the machine does not have. -/
theorem machine_keeps_code (o : Options) (m : Machine) (destination : Path) (b : Binding) (scene scene' : Scene)
    (report : Report) (hstates : m.graph.StatesKnown) (hnames : ∀ s ∈ m.graph.listedStates, Source.FitName s.name)
    (hstem : Source.FitName destination.stem)
    (hfree : m.windowLayout = none →
      scene.tree.file? (scene.tree.locate (destination.join windowLayoutFile)) = none)
    (h : outcome (machine o m destination b) scene = (.ok report, scene')) (hn : report.files.Nodup) (trail : Trail) :
    ((∃ m' trail', outcome (Machine.load destination none scene'.tree) trail = (.ok m', trail')) ↔
        (destination.join windowLayoutFile).text.utf8ByteSize < Tree.pathLimit) ∧
      ∀ m' trail', outcome (Machine.load destination none scene'.tree) trail = (.ok m', trail') → CodeKept m m' := by
  have hfit : Source.FitPlan (.of m b destination.stem o.isSuspensible) := fitPlan_of hstem hnames
  have hstored := machine_stored h hn hfit.plain hstem.nonempty
  have hlisted := stateNames_stored hstored hfit hstates
  have hrecorded : (none : Option Binding).getD (recordedBinding scene'.tree destination) = b :=
    recordedBinding_stored hstored
  refine ⟨⟨?_, fun hroom => load_exported hstates hnames hstem hroom h hn trail⟩, ?_⟩
  · rintro ⟨m', trail', hload⟩
    exact (loadable_of_load hlisted hload).room
  · intro m' trail' hload
    obtain ⟨hbinding, hcode⟩ := load_code hlisted hload
    exact codeKept_stored hstored hstates (hbinding.trans hrecorded) hcode
      (windowLayout_restored h hstored hfree hload)

/-- A machine with line ends of all kinds in its code, and with one in a guard. -/
def returning : Machine :=
  { Machine.empty "A" .objectiveCpp with
    graph := .ofRecords [⟨.generated 1, "S"⟩] [⟨.generated 2, .generated 1, "x\ry", some (.generated 3)⟩] none
    boilerplate := Boilerplate.blank.set .includes "a\r\nb\rc"
    stateBoilerplate := [(.generated 1, Boilerplate.blank.set .onEntry "d\r")] }

theorem statesKnown_returning : returning.graph.StatesKnown where
  nodup := by decide
  record := by
    intro i hi
    cases List.mem_singleton.mp hi
    exact ⟨_, rfl, rfl⟩

theorem returning_keeps_code :
    ∃ report scene m' trail',
      outcome (machine ⟨none, true⟩ returning (.ofText "B") .c) ⟨besideNothing, ⟨.start, []⟩⟩ = (.ok report, scene) ∧
      outcome (Machine.load (.ofText "B") none scene.tree) ⟨.start, []⟩ = (.ok m', trail') ∧ CodeKept returning m' ∧
      m'.boilerplate.get .includes = "a\nb\nc" := by
  have hexported : isExported returning besideNothing = true := by decide +kernel
  obtain ⟨report, scene, h, hnodup⟩ := exists_of_isExported hexported
  have hstem : Source.FitName (Path.ofText "B").stem := by decide
  have hnames : ∀ s ∈ returning.graph.listedStates, Source.FitName s.name := by decide
  have hfree : besideNothing.file? (besideNothing.locate ((Path.ofText "B").join windowLayoutFile)) = none := by decide
  have hroom : ((Path.ofText "B").join windowLayoutFile).text.utf8ByteSize < Tree.pathLimit := by decide
  obtain ⟨hloads, hkept⟩ := machine_keeps_code ⟨none, true⟩ returning (.ofText "B") .c ⟨besideNothing, ⟨.start, []⟩⟩
    scene report statesKnown_returning hnames hstem (fun _ => hfree) h hnodup ⟨.start, []⟩
  obtain ⟨m', trail', hload⟩ := hloads.mpr hroom
  refine ⟨report, scene, m', trail', h, hload, hkept m' trail' hload, ?_⟩
  rw [(hkept m' trail' hload).code]
  decide

end Export

end MachineBundle
