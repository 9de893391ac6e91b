import MachineBundle.Proofs.Bundle.Alike
import MachineBundle.Proofs.Bundle.RoundTrip

/-!
# Exporting over an earlier bundle

An export writes every file that is read when its bundle is loaded, except for the window layout of a machine without
one. So nothing else of an earlier bundle shows through, as long as no header counts transitions that were not written.
-/

namespace MachineBundle

namespace Export

open Bundle

section Files

variable {m : Machine} {b : Binding} {name : String} {isSuspensible : Bool}

/-! ## The ends of file names -/

theorem getLast?_append (s : String) {suffix : String} {c : Char} (h : suffix.toList.getLast? = some c) :
    (s ++ suffix).toList.getLast? = some c := by
  rw [String.toList_append, List.getLast?_append, h]
  rfl

/-- The last characters of the file names that are not fixed. -/
def sourceEnds : List Char := ['h', 'c', 'm', 'r']

theorem sectionFiles_end (b : Binding) (name : String) :
    ∀ e ∈ b.sectionFiles name, ∃ c ∈ sourceEnds, e.2.toList.getLast? = some c := by
  intro e he
  refine ⟨'h', by decide, ?_⟩
  simp only [Binding.sectionFiles, List.mem_cons, List.not_mem_nil, or_false] at he
  rcases he with rfl | rfl | rfl | rfl
  · rfl
  · exact getLast?_append _ (by rfl)
  · exact getLast?_append _ (by rfl)
  · exact getLast?_append _ (by rfl)

theorem implementationSuffix_end (b : Binding) :
    ∃ c ∈ sourceEnds, b.implementationSuffix.toList.getLast? = some c := by
  cases b with
  | c => exact ⟨'c', by decide, rfl⟩
  | objectiveCpp => exact ⟨'m', by decide, rfl⟩

theorem stateSectionFiles_end (state : String) :
    ∀ e ∈ Binding.stateSectionFiles state, ∃ c ∈ sourceEnds, e.2.toList.getLast? = some c := by
  intro e he
  simp only [Binding.stateSectionFiles, List.mem_cons, List.not_mem_nil, or_false] at he
  rcases he with rfl | rfl | rfl | rfl | rfl | rfl | rfl | rfl
  iterate 3 exact ⟨'h', by decide, getLast?_append _ (by rfl)⟩
  all_goals exact ⟨'m', by decide, getLast?_append _ (by rfl)⟩

theorem stateFiles_end (m : Machine) (plan : Source.MachinePlan) (s : Source.StatePlan) :
    ∀ f ∈ stateFiles m plan s, ∃ c ∈ sourceEnds, f.1.toList.getLast? = some c := by
  intro f hf
  unfold stateFiles sectionFiles at hf
  simp only [List.mem_append, List.mem_cons, List.not_mem_nil, or_false] at hf
  rcases hf with ((rfl | rfl) | hf) | hf
  · exact ⟨'h', by decide, getLast?_append _ (by rfl)⟩
  · obtain ⟨c, hc, he⟩ := implementationSuffix_end plan.binding
    exact ⟨c, hc, getLast?_append _ he⟩
  · obtain ⟨e, he, rfl⟩ := List.mem_map.mp hf
    exact stateSectionFiles_end s.name e he
  · obtain ⟨p, -, rfl⟩ := List.mem_map.mp hf
    exact ⟨'r', by decide, getLast?_append _ (by rfl)⟩

theorem languageFile_end : languageFile.toList.getLast? = some 'e' := by
  rfl

theorem statesFile_end : statesFile.toList.getLast? = some 's' := by
  rfl

theorem windowLayoutFile_end : windowLayoutFile.toList.getLast? = some 't' := by
  rfl

/-- A file of a bundle has a fixed name or one that ends as names of sources do. -/
theorem files_cases {f : File} (hf : f ∈ files m b name isSuspensible) :
    f = textFile languageFile (b.name ++ "\n") ∨ f = sourceFile statesFile m.graph.stateNames ∨
      (m.windowLayout.isSome = true ∧ f.1 = windowLayoutFile) ∨ ∃ c ∈ sourceEnds, f.1.toList.getLast? = some c := by
  unfold files at hf
  simp only [List.mem_append, List.mem_cons, List.not_mem_nil, or_false] at hf
  rcases hf with ((((rfl | rfl) | hf) | hf) | rfl | rfl) | hf
  · exact .inl rfl
  · exact .inr (.inl rfl)
  · cases hl : m.windowLayout with
    | none =>
      rw [hl] at hf
      cases hf
    | some layout =>
      rw [hl] at hf
      cases List.mem_singleton.mp hf
      exact .inr (.inr (.inl ⟨rfl, rfl⟩))
  · obtain ⟨e, he, rfl⟩ := List.mem_map.mp hf
    exact .inr (.inr (.inr (sectionFiles_end b name e he)))
  · exact .inr (.inr (.inr ⟨'h', by decide, getLast?_append _ (by rfl)⟩))
  · obtain ⟨c, hc, he⟩ := implementationSuffix_end b
    exact .inr (.inr (.inr ⟨c, hc, getLast?_append _ he⟩))
  · obtain ⟨s, -, hf⟩ := List.mem_flatMap.mp hf
    exact .inr (.inr (.inr (stateFiles_end m _ s f hf)))

/-- A machine without a window layout has no file for one. -/
theorem windowLayoutFile_ne (hnone : m.windowLayout = none) {f : File} (hf : f ∈ files m b name isSuspensible) :
    f.1 ≠ windowLayoutFile := by
  have hlanguage : languageFile ≠ windowLayoutFile := by decide
  have hstates : statesFile ≠ windowLayoutFile := by decide
  rcases files_cases hf with rfl | rfl | ⟨hsome, -⟩ | ⟨c, hc, hn⟩
  · exact hlanguage
  · exact hstates
  · rw [hnone] at hsome
    cases hsome
  · intro he
    rw [he, windowLayoutFile_end, Option.some.injEq] at hn
    subst hn
    exact absurd hc (by decide)

end Files

/-! ## The places of files -/

theorem batchOf_alone {t : Tree} {destination : Path} {fs : List File} {f : File}
    (halone : ∀ g ∈ fs, t.locate (destination.join g.1) = t.locate (destination.join f.1) → g.2 = f.2) :
    ∀ v ∈ (batchOf destination fs).queue, t.locate v.target = t.locate (destination.join f.1) → v.content = f.2 := by
  intro v hv hl
  obtain ⟨g, hg, rfl⟩ := List.mem_map.mp hv
  exact halone g hg hl

variable {m : Machine} {b : Binding} {o : Options} {destination : Path} {scene scene' : Scene} {report : Report}

theorem machine_commit (h : outcome (machine o m destination b) scene = (.ok report, scene')) :
    ∃ n, outcome (batchOf destination (files m b destination.stem o.isSuspensible)).commit scene.tree =
      (.ok n, scene'.tree) := by
  obtain ⟨scene₁, hw, ht⟩ := machine_ok h
  obtain ⟨n, hc, -, -⟩ := writeFiles_ok hw
  exact ⟨n, by rw [ht]; exact hc⟩

/-- A file is read as it was written if all files of other content end otherwise. -/
theorem readBytes_of_end (h : outcome (machine o m destination b) scene = (.ok report, scene')) {f : File}
    (hf : f ∈ files m b destination.stem o.isSuspensible) {c : Char} (hend : f.1.toList.getLast? = some c)
    (hc : c ≠ '/' ∧ c ≠ '.') (hends : ∀ g ∈ files m b destination.stem o.isSuspensible,
      g.2 = f.2 ∨ ∃ c', g.1.toList.getLast? = some c' ∧ c' ≠ c ∧ c' ≠ '/' ∧ c' ≠ '.') :
    scene'.tree.readBytes (destination.join f.1) = .ok f.2 := by
  obtain ⟨n, hcommit⟩ := machine_commit h
  refine Batch.readBytes_of_commit_alone hcommit (List.mem_map.mpr ⟨f, hf, rfl⟩) (batchOf_alone fun g hg hl => ?_)
  rcases hends g hg with he | ⟨c', hend', hne, h₁, h₂⟩
  · exact he
  · exact absurd hl (scene.tree.locate_join_ne destination hend' hend hne h₁ h₂ hc.1 hc.2)

theorem readBytes_language (h : outcome (machine o m destination b) scene = (.ok report, scene')) :
    scene'.tree.readBytes (destination.join languageFile) = .ok (Text.encode (b.name ++ "\n")) := by
  have hends : ∀ g ∈ files m b destination.stem o.isSuspensible, g.2 = (textFile languageFile (b.name ++ "\n")).2 ∨
      ∃ c, g.1.toList.getLast? = some c ∧ c ≠ 'e' ∧ c ≠ '/' ∧ c ≠ '.' := by
    intro g hg
    rcases files_cases hg with rfl | rfl | ⟨-, hn⟩ | ⟨c, hc, hn⟩
    · exact .inl rfl
    · exact .inr ⟨'s', statesFile_end, by decide⟩
    · exact .inr ⟨'t', by rw [hn]; exact windowLayoutFile_end, by decide⟩
    · have hall : ∀ c ∈ sourceEnds, c ≠ 'e' ∧ c ≠ '/' ∧ c ≠ '.' := by decide
      exact .inr ⟨c, hn, hall c hc⟩
  have hread := readBytes_of_end h languageFile_mem languageFile_end (by decide) hends
  exact hread

theorem readBytes_states (h : outcome (machine o m destination b) scene = (.ok report, scene')) :
    scene'.tree.readBytes (destination.join statesFile) = .ok (Text.encode (Source.unlines m.graph.stateNames)) := by
  have hends : ∀ g ∈ files m b destination.stem o.isSuspensible, g.2 = (sourceFile statesFile m.graph.stateNames).2 ∨
      ∃ c, g.1.toList.getLast? = some c ∧ c ≠ 's' ∧ c ≠ '/' ∧ c ≠ '.' := by
    intro g hg
    rcases files_cases hg with rfl | rfl | ⟨-, hn⟩ | ⟨c, hc, hn⟩
    · exact .inr ⟨'e', languageFile_end, by decide⟩
    · exact .inl rfl
    · exact .inr ⟨'t', by rw [hn]; exact windowLayoutFile_end, by decide⟩
    · have hall : ∀ c ∈ sourceEnds, c ≠ 's' ∧ c ≠ '/' ∧ c ≠ '.' := by decide
      exact .inr ⟨c, hn, hall c hc⟩
  have hread := readBytes_of_end h statesFile_mem statesFile_end (by decide) hends
  exact hread

/-- Names that can be listed are read from the list of states. -/
theorem stateNames_written (h : outcome (machine o m destination b) scene = (.ok report, scene'))
    (hlisted : ∀ n ∈ m.graph.stateNames, Text.IsListed n) :
    stateNames scene'.tree destination = .ok m.graph.stateNames := by
  have hreturn : '\r' ∉ (Source.unlines m.graph.stateNames).toList := by
    refine Source.not_mem_unlines (by decide) fun n hn hr => ?_
    exact absurd ((hlisted n hn).unbroken _ hr) (by decide)
  unfold stateNames Tree.readText
  rw [readBytes_states h]
  simp only [bind, Except.bind, Text.textOf_encode hreturn, pure, Except.pure, Text.namesIn_unlines hlisted]

/-! ## The window layout -/

theorem place_of_bundle (h : outcome (machine o m destination b) scene = (.ok report, scene')) :
    Tree.hasNull destination = false ∧ scene'.tree.directory? destination = some (scene.tree.locate destination) ∧
      scene'.tree.home = scene.tree.home := by
  obtain ⟨n, hc⟩ := machine_commit h
  obtain ⟨hset, hall⟩ := Batch.commit_ok hc
  have hmem : (⟨destination.join languageFile, _⟩ : Pending) ∈
      (batchOf destination (files m b destination.stem o.isSuspensible)).queue :=
    List.mem_map.mpr ⟨_, languageFile_mem, rfl⟩
  obtain ⟨hnull, hslot⟩ := hall _ hmem
  obtain ⟨l, hl⟩ := Option.isSome_iff_exists.mp hslot
  have hl' := (hset.slot? _).trans hl
  obtain ⟨_, d, hd, _, _⟩ := Tree.slot?_eq_some.mp hl'
  have hhome := Batch.commit_home hc
  rw [Path.parent_join destination fileName_languageFile.isName] at hd
  rw [Path.hasNull_join destination fileName_languageFile.isName, Bool.or_eq_false_iff] at hnull
  refine ⟨hnull.1, ?_, hhome⟩
  rw [hd, Tree.directory?_eq_locate hd, Tree.locate_congr hhome]

/-- The window layout of a bundle depends on one place only, once the bundle is there. -/
theorem windowLayout_written (h : outcome (machine o m destination b) scene = (.ok report, scene')) :
    windowLayout scene'.tree destination =
      if Tree.pathLimit ≤ (destination.join windowLayoutFile).text.utf8ByteSize then
        .error (.refused .nameTooLong (destination.join windowLayoutFile).text)
      else .ok (scene'.tree.file? (scene.tree.locate (destination.join windowLayoutFile))) := by
  obtain ⟨hnull, hd, -⟩ := place_of_bundle h
  split
  · rename_i hlong
    exact windowLayout_too_long hnull hlong
  · rename_i hshort
    rw [scene.tree.locate_join_fileName destination fileName_windowLayoutFile]
    exact windowLayout_of_look hd hnull (Nat.not_le.mp hshort)

/-- Without a window layout none is written over. -/
theorem file?_windowLayout (h : outcome (machine o m destination b) scene = (.ok report, scene'))
    (hnone : m.windowLayout = none) :
    scene'.tree.file? (scene.tree.locate (destination.join windowLayoutFile)) =
      scene.tree.file? (scene.tree.locate (destination.join windowLayoutFile)) := by
  obtain ⟨n, hc⟩ := machine_commit h
  refine Batch.file?_of_commit hc fun w hw => ?_
  obtain ⟨g, hg, rfl⟩ := List.mem_map.mp hw
  have hother : ∃ c, g.1.toList.getLast? = some c ∧ c ≠ 't' ∧ c ≠ '/' ∧ c ≠ '.' := by
    rcases files_cases hg with rfl | rfl | ⟨hsome, -⟩ | ⟨c, hc, hn⟩
    · exact ⟨'e', languageFile_end, by decide⟩
    · exact ⟨'s', statesFile_end, by decide⟩
    · rw [hnone] at hsome
      cases hsome
    · have hall : ∀ c ∈ sourceEnds, c ≠ 't' ∧ c ≠ '/' ∧ c ≠ '.' := by decide
      exact ⟨c, hn, hall c hc⟩
  obtain ⟨c, hn, hne, h₁, h₂⟩ := hother
  exact scene.tree.locate_join_ne destination hn windowLayoutFile_end hne h₁ h₂ (by decide) (by decide)

/-! ## Two earlier contents -/

/-- The transitions that leave a state are those with records. -/
theorem length_outgoing (g : Graph) (state : Ident) : (Source.outgoing g state).length = (g.transitionsFrom state).length := by
  have hrecord : ∀ l : List Ident, (∀ i ∈ l, (g.transition? i).isSome = true) →
      (l.filterMap g.transition?).length = l.length := by
    intro l hl
    induction l with
    | nil => rfl
    | cons i r ih =>
      obtain ⟨t, ht⟩ := Option.isSome_iff_exists.mp (hl i List.mem_cons_self)
      rw [List.filterMap_cons_some ht, List.length_cons, List.length_cons,
        ih fun j hj => hl j (List.mem_cons_of_mem i hj)]
  refine hrecord _ fun i hi => ?_
  have hleaves := (List.mem_filter.mp hi).2
  cases ht : g.transition? i with
  | some t => rfl
  | none =>
    rw [ht] at hleaves
    cases hleaves

/-- No header in a bundle counts more transitions than the machine has. -/
def CountsFit (t : Tree) (bundle : Path) (b : Binding) (m : Machine) : Prop :=
  ∀ s ∈ m.graph.listedStates, ∀ count, transitionCount b t bundle s.name = .ok count →
    count ≤ (m.graph.transitionsFrom s.id).length

theorem state_of_stateName (hwf : m.graph.WellFormed) (hlisted : ∀ s ∈ m.graph.listedStates, Text.IsListed s.name)
    {n : String} (hn : n ∈ m.graph.stateNames) : ∃ s ∈ m.graph.listedStates, s.name = n := by
  rw [hwf.stateNames_eq fun s hs => (hlisted s hs).nonempty] at hn
  exact List.mem_map.mp hn

/-- A guard is written for every transition that leaves a listed state. -/
theorem guardFile_of_index {s : State} (hs : s ∈ m.graph.listedStates) {index : Nat}
    (hi : index < (m.graph.transitionsFrom s.id).length) (b : Binding) (name : String) (isSuspensible : Bool) :
    ∃ content, (Binding.guardFile s.name index, content) ∈ files m b name isSuspensible := by
  rw [← length_outgoing] at hi
  have hlength : index < (Source.statePlan m.graph s).transitions.length := by
    simpa only [Source.statePlan, List.length_mapIdx] using hi
  have hindex : (Source.statePlan m.graph s).transitions[index].index = index := by
    simp [Source.statePlan, Source.transitionPlan]
  have hplan : Source.statePlan m.graph s ∈ (Source.MachinePlan.of m b name isSuspensible).states :=
    List.mem_map_of_mem hs
  have hmem := guardFile_mem hplan (List.getElem_mem hlength)
  rw [hindex] at hmem
  exact ⟨_, hmem⟩

section Twice

variable {scene₁ scene₁' scene₂ scene₂' : Scene} {report₁ report₂ : Report}

theorem sameFile_of_exports (hhome : scene₁.tree.home = scene₂.tree.home)
    (h₁ : outcome (machine o m destination b) scene₁ = (.ok report₁, scene₁'))
    (h₂ : outcome (machine o m destination b) scene₂ = (.ok report₂, scene₂')) {file : String} {content : ByteArray}
    (hf : (file, content) ∈ files m b destination.stem o.isSuspensible) :
    SameFile scene₁'.tree scene₂'.tree destination file := by
  obtain ⟨n₁, hc₁⟩ := machine_commit h₁
  obtain ⟨n₂, hc₂⟩ := machine_commit h₂
  exact Batch.readBytes_of_commits hhome hc₁ hc₂ ⟨destination.join file, content⟩ (List.mem_map.mpr ⟨_, hf, rfl⟩)

/-- The window layouts are the same if one is written, or if the same one was there. -/
theorem windowLayout_of_exports (hhome : scene₁.tree.home = scene₂.tree.home)
    (hlayout : m.windowLayout.isSome = true ∨
      scene₁.tree.file? (scene₁.tree.locate (destination.join windowLayoutFile)) =
        scene₂.tree.file? (scene₂.tree.locate (destination.join windowLayoutFile)))
    (h₁ : outcome (machine o m destination b) scene₁ = (.ok report₁, scene₁'))
    (h₂ : outcome (machine o m destination b) scene₂ = (.ok report₂, scene₂')) :
    windowLayout scene₁'.tree destination = windowLayout scene₂'.tree destination := by
  cases hl : m.windowLayout with
  | some layout =>
    obtain ⟨c, hr₁, hr₂⟩ := sameFile_of_exports hhome h₁ h₂ (windowLayoutFile_mem hl)
    unfold windowLayout
    rw [isFile_of_readBytes hr₁, isFile_of_readBytes hr₂]
    simp only [bind, Except.bind, if_true, hr₁, hr₂]
  | none =>
    have hbefore := hlayout.resolve_left (by simp [hl])
    rw [windowLayout_written h₁, windowLayout_written h₂, file?_windowLayout h₁ hl, file?_windowLayout h₂ hl, hbefore]

theorem sameRecord_of_exports (hwf : m.graph.WellFormed) (hlisted : ∀ s ∈ m.graph.listedStates, Text.IsListed s.name)
    (hhome : scene₁.tree.home = scene₂.tree.home)
    (hlayout : m.windowLayout.isSome = true ∨
      scene₁.tree.file? (scene₁.tree.locate (destination.join windowLayoutFile)) =
        scene₂.tree.file? (scene₂.tree.locate (destination.join windowLayoutFile)))
    (h₁ : outcome (machine o m destination b) scene₁ = (.ok report₁, scene₁'))
    (h₂ : outcome (machine o m destination b) scene₂ = (.ok report₂, scene₂'))
    (hcount : CountsFit scene₁'.tree destination b m) :
    SameRecord scene₁'.tree scene₂'.tree destination b m.graph.stateNames := by
  have hnames : ∀ n ∈ m.graph.stateNames, Text.IsListed n := by
    intro n hn
    obtain ⟨s, hs, rfl⟩ := state_of_stateName hwf hlisted hn
    exact hlisted s hs
  refine {
    language := ?_
    states := ?_
    implementation := sameFile_of_exports hhome h₁ h₂ implementationFile_mem
    sections := fun e he => sameFile_of_exports hhome h₁ h₂ (sectionFile_mem he)
    header := ?_
    stateSections := ?_
    guard := ?_
    windowLayout := windowLayout_of_exports hhome hlayout h₁ h₂ }
  · simp [readBytes_language h₁, readBytes_language h₂]
  · simp [stateNames_written h₁ hnames, stateNames_written h₂ hnames]
  · intro n hn
    obtain ⟨s, hs, rfl⟩ := state_of_stateName hwf hlisted hn
    exact sameFile_of_exports hhome h₁ h₂ (stateHeaderFile_mem (List.mem_map_of_mem hs))
  · intro n hn e he
    obtain ⟨s, hs, rfl⟩ := state_of_stateName hwf hlisted hn
    exact sameFile_of_exports hhome h₁ h₂ (stateSectionFile_mem (List.mem_map_of_mem hs) he)
  · intro n hn count hc index hi
    obtain ⟨s, hs, rfl⟩ := state_of_stateName hwf hlisted hn
    obtain ⟨content, hmem⟩ := guardFile_of_index hs (Nat.lt_of_lt_of_le hi (hcount s hs count hc)) b destination.stem
      o.isSuspensible
    exact sameFile_of_exports hhome h₁ h₂ hmem

end Twice

/-- A bundle that a loaded machine is exported to is loaded alike, whatever stood there before: the window layout of an
earlier bundle shows through where the machine has none, and guards that were not written where a header counts them. -/
theorem machine_replaces (o : Options) (m : Machine) (destination : Path) (b : Binding)
    (scene₁ scene₁' scene₂ scene₂' : Scene) (report₁ report₂ : Report)
    (hm : ∃ t bundle binding trail trail', outcome (Machine.load bundle binding t) trail = (.ok m, trail'))
    (hhome : scene₁.tree.home = scene₂.tree.home)
    (hlayout : m.windowLayout.isSome = true ∨
      scene₁.tree.file? (scene₁.tree.locate (destination.join windowLayoutFile)) =
        scene₂.tree.file? (scene₂.tree.locate (destination.join windowLayoutFile)))
    (h₁ : outcome (machine o m destination b) scene₁ = (.ok report₁, scene₁'))
    (h₂ : outcome (machine o m destination b) scene₂ = (.ok report₂, scene₂'))
    (hcount : CountsFit scene₁'.tree destination b m) (trail : Trail) :
    outcome (Machine.load destination none scene₁'.tree) trail =
      outcome (Machine.load destination none scene₂'.tree) trail := by
  obtain ⟨t, bundle, binding, trail₀, trail₀', hload⟩ := hm
  obtain ⟨states, rows, hgraph, -, -⟩ := Machine.load_eq_ok hload
  have hlisted : ∀ s ∈ m.graph.listedStates, Text.IsListed s.name := by
    rw [hgraph.listedStates_eq]
    exact hgraph.isListed
  exact (sameRecord_of_exports hgraph.wellFormed hlisted hhome hlayout h₁ h₂ hcount).load trail

/-- With plain names and without files of the same name all headers count what is written. -/
theorem countsFit_of_plain (h : outcome (machine o m destination b) scene = (.ok report, scene'))
    (hn : report.files.Nodup) (hfit : Source.FitPlan (.of m b destination.stem o.isSuspensible)) (hne : destination.stem ≠ "") :
    CountsFit scene'.tree destination b m := by
  intro s hs count hc
  have hstored := machine_stored h hn hfit.plain hne
  have hwritten := transitionCount_stored hstored hfit (List.mem_map_of_mem hs)
    (Source.map_index_statePlan m.graph s)
  have hsame : Except.ok count = Except.ok (Source.statePlan m.graph s).transitions.length := hc.symm.trans hwritten
  cases hsame
  rw [← length_outgoing]
  simp [Source.statePlan]

/-- A machine without a window layout gets the one that stands in its bundle. -/
theorem windowLayout_kept (h : outcome (machine o m destination b) scene = (.ok report, scene'))
    (hnone : m.windowLayout = none) {m' : Machine} {trail trail' : Trail}
    (hload : outcome (Machine.load destination none scene'.tree) trail = (.ok m', trail')) :
    m'.windowLayout = scene.tree.file? (scene.tree.locate (destination.join windowLayoutFile)) := by
  have hl := (load_ok hload).2
  rw [windowLayout_written h, file?_windowLayout h hnone] at hl
  split at hl
  · cases hl
  · exact (Except.ok.inj hl).symm

/-! ## Bundles beside each other -/

/-- Whether an export to `B` succeeds, all its files having different names. -/
def isExported (m : Machine) (t : Tree) : Bool :=
  match (outcome (machine ⟨none, true⟩ m (.ofText "B") .c) ⟨t, ⟨.start, []⟩⟩).1 with
  | .ok report => report.files.Nodup
  | .error _ => false

theorem exists_of_isExported {m : Machine} {t : Tree} (h : isExported m t = true) :
    ∃ report scene, outcome (machine ⟨none, true⟩ m (.ofText "B") .c) ⟨t, ⟨.start, []⟩⟩ = (.ok report, scene) ∧
      report.files.Nodup := by
  unfold isExported at h
  generalize outcome (machine ⟨none, true⟩ m (.ofText "B") .c) ⟨t, ⟨.start, []⟩⟩ = r at h ⊢
  rcases r with ⟨f | report, scene⟩
  · cases h
  · exact ⟨report, scene, rfl, of_decide_eq_true h⟩

/-- A bundle with one state and one transition, and nothing beside it. -/
def besideNothing : Tree where
  home := ["work"]
  nodes :=
    [(["work"], .directory), (["work", "A"], .directory), (["work", "A", "Language"], .file "c".toUTF8),
      (["work", "A", "States"], .file "S\n".toUTF8),
      (["work", "A", "State_S.h"], .file "NUMBER_OF_TRANSITIONS 1".toUTF8)]
  scratch := []

/-- The same bundle beside what is left of another one. -/
def besideRemains : Tree :=
  ((besideNothing.setNode ["work", "B"] .directory).setNode ["work", "B", "State_S_Transition_1.expr"]
    (.file "x".toUTF8)).setNode ["work", "B", "IncludePath"] (.file "y".toUTF8)

/-- The machine in this bundle. -/
def oneState : Machine where
  name := "A"
  binding := .c
  graph := .ofRecords [⟨.generated 1, "S"⟩] [⟨.generated 2, .generated 1, "true", none⟩] none
  boilerplate := .blank
  stateBoilerplate := [(.generated 1, .blank)]
  stateLayout := Machine.gridLayout [⟨.generated 1, "S"⟩]
  windowLayout := none

theorem load_besideNothing :
    ∃ trail', outcome (Machine.load (.ofText "A") none besideNothing) ⟨.start, []⟩ = (.ok oneState, trail') :=
  exists_of_result (by decide +kernel)

theorem remains_are_replaced :
    ∃ report₁ report₂ scene₁ scene₂,
      outcome (machine ⟨none, true⟩ oneState (.ofText "B") .c) ⟨besideNothing, ⟨.start, []⟩⟩ = (.ok report₁, scene₁) ∧
      outcome (machine ⟨none, true⟩ oneState (.ofText "B") .c) ⟨besideRemains, ⟨.start, []⟩⟩ = (.ok report₂, scene₂) ∧
      ∀ trail, outcome (Machine.load (.ofText "B") none scene₁.tree) trail =
        outcome (Machine.load (.ofText "B") none scene₂.tree) trail := by
  have hnothing : isExported oneState besideNothing = true := by decide +kernel
  have hremains : isExported oneState besideRemains = true := by decide +kernel
  obtain ⟨report₁, scene₁, h₁, hnodup⟩ := exists_of_isExported hnothing
  obtain ⟨report₂, scene₂, h₂, -⟩ := exists_of_isExported hremains
  have hstem : Source.FitName (Path.ofText "B").stem := by decide
  have hnames : ∀ s ∈ oneState.graph.listedStates, Source.FitName s.name := by decide
  have hlayout : besideNothing.file? (besideNothing.locate ((Path.ofText "B").join windowLayoutFile)) =
      besideRemains.file? (besideRemains.locate ((Path.ofText "B").join windowLayoutFile)) := by decide
  have hcount := countsFit_of_plain h₁ hnodup (fitPlan_of hstem hnames) hstem.nonempty
  obtain ⟨trail', hload⟩ := load_besideNothing
  exact ⟨report₁, report₂, scene₁, scene₂, h₁, h₂,
    machine_replaces ⟨none, true⟩ oneState (.ofText "B") .c ⟨besideNothing, ⟨.start, []⟩⟩ scene₁
      ⟨besideRemains, ⟨.start, []⟩⟩ scene₂ report₁ report₂ ⟨_, _, _, _, _, hload⟩ rfl (.inr hlayout) h₁ h₂ hcount⟩

/-- A bundle without states. -/
def besideBare : Tree where
  home := ["work"]
  nodes :=
    [(["work"], .directory), (["work", "A"], .directory), (["work", "A", "Language"], .file "c".toUTF8),
      (["work", "A", "States"], .file .empty)]
  scratch := []

/-- The same bundle beside a window layout. -/
def besideLayout : Tree :=
  (besideBare.setNode ["work", "B"] .directory).setNode ["work", "B", windowLayoutFile] (.file "z".toUTF8)

theorem load_besideBare :
    ∃ trail', outcome (Machine.load (.ofText "A") none besideBare) ⟨.start, []⟩ = (.ok (.empty "A" .c), trail') :=
  exists_of_result (by decide +kernel)

theorem empty_gets_layout {t : Tree} (h : isExported (.empty "A" .c) t = true) :
    ∃ report scene m trail',
      outcome (machine ⟨none, true⟩ (.empty "A" .c) (.ofText "B") .c) ⟨t, ⟨.start, []⟩⟩ = (.ok report, scene) ∧
      outcome (Machine.load (.ofText "B") none scene.tree) ⟨.start, []⟩ = (.ok m, trail') ∧
      m.windowLayout = t.file? (t.locate ((Path.ofText "B").join windowLayoutFile)) := by
  obtain ⟨report, scene, h, hnodup⟩ := exists_of_isExported h
  have hstem : Source.FitName (Path.ofText "B").stem := by decide
  have hnames : ∀ s ∈ (Machine.empty "A" .c).graph.listedStates, Source.FitName s.name := fun s hs => by cases hs
  have hfit : Source.FitPlan (.of (.empty "A" .c) .c (Path.ofText "B").stem true) := fitPlan_of hstem hnames
  have hstored := machine_stored h hnodup hfit.plain hstem.nonempty
  obtain ⟨d, _, hlayout⟩ := windowLayout_stored hstored hnames hstem fun ⟨_, hb, _⟩ => by cases hb
  obtain ⟨trail', hload, -⟩ :=
    load_stored hstored Graph.wellFormed_empty Graph.unbroken_empty hnames hstem hlayout ⟨.start, []⟩
  exact ⟨report, scene, _, trail', h, hload, windowLayout_kept h rfl hload⟩

/-- A machine without states and without a window layout is loaded with the one that was there before. -/
theorem earlier_layout_shows_through :
    (∃ trail', outcome (Machine.load (.ofText "A") none besideBare) ⟨.start, []⟩ = (.ok (.empty "A" .c), trail')) ∧
      ∃ report₁ report₂ scene₁ scene₂ m₁ m₂ trail₁ trail₂,
        outcome (machine ⟨none, true⟩ (.empty "A" .c) (.ofText "B") .c) ⟨besideBare, ⟨.start, []⟩⟩ =
          (.ok report₁, scene₁) ∧
        outcome (machine ⟨none, true⟩ (.empty "A" .c) (.ofText "B") .c) ⟨besideLayout, ⟨.start, []⟩⟩ =
          (.ok report₂, scene₂) ∧
        outcome (Machine.load (.ofText "B") none scene₁.tree) ⟨.start, []⟩ = (.ok m₁, trail₁) ∧
        outcome (Machine.load (.ofText "B") none scene₂.tree) ⟨.start, []⟩ = (.ok m₂, trail₂) ∧
        m₁.windowLayout = none ∧ m₂.windowLayout = some "z".toUTF8 := by
  have hbare : isExported (.empty "A" .c) besideBare = true := by decide +kernel
  have hlayout : isExported (.empty "A" .c) besideLayout = true := by decide +kernel
  have hplace₁ : besideBare.file? (besideBare.locate ((Path.ofText "B").join windowLayoutFile)) = none := by decide
  have hplace₂ : besideLayout.file? (besideLayout.locate ((Path.ofText "B").join windowLayoutFile)) =
      some "z".toUTF8 := by decide
  obtain ⟨report₁, scene₁, m₁, trail₁, h₁, hload₁, hl₁⟩ := empty_gets_layout hbare
  obtain ⟨report₂, scene₂, m₂, trail₂, h₂, hload₂, hl₂⟩ := empty_gets_layout hlayout
  exact ⟨load_besideBare, report₁, report₂, scene₁, scene₂, m₁, m₂, trail₁, trail₂, h₁, h₂, hload₁, hload₂,
    hl₁.trans hplace₁, hl₂.trans hplace₂⟩

end Export

end MachineBundle
