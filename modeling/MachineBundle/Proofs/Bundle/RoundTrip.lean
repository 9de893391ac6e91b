import MachineBundle.Proofs.Bundle.Ready
import MachineBundle.Proofs.Bundle.Restored
import MachineBundle.Proofs.Tree.Look

/-!
# Exporting and loading again

A machine that is exported can be loaded from its bundle, with its states and transitions in order. This fails only
for paths so long that the files of the bundle fit into the limit of the file system, but not the one that may hold a
window layout.
-/

namespace MachineBundle

namespace Bundle

open Export

variable {t : Tree} {bundle : Path} {fs : List File}

/-! ## The place of a bundle -/

theorem directory?_stored (h : Stored t bundle fs) {f : File} (hf : f ∈ fs) (hn : FileName f.1) :
    ∃ d, t.directory? bundle = some d ∧ Tree.hasNull bundle = false := by
  obtain ⟨l, hl⟩ := Option.isSome_iff_exists.mp (h.slot f hf)
  obtain ⟨_, d, hd, _, _⟩ := Tree.slot?_eq_some.mp hl
  have hnull := h.noNull f hf
  rw [Path.parent_join bundle hn.isName] at hd
  rw [Path.hasNull_join bundle hn.isName, Bool.or_eq_false_iff] at hnull
  exact ⟨d, hd, hnull.1⟩

/-- A path is short enough if a longer one leads to a file of the bundle. -/
theorem utf8ByteSize_text_stored (h : Stored t bundle fs) {f : File} (hf : f ∈ fs) (hn : FileName f.1) {n : String}
    (hn' : FileName n) (hle : n.utf8ByteSize ≤ f.1.utf8ByteSize) :
    (bundle.join n).text.utf8ByteSize < Tree.pathLimit := by
  obtain ⟨l, hl⟩ := Option.isSome_iff_exists.mp (h.slot f hf)
  have hlimit := (Tree.slot?_eq_some.mp hl).1.2.2.2
  exact (bundle.utf8ByteSize_text_join_le hn'.isName hn.isName hle).trans_lt hlimit

/-- What stands at a name in a directory can be looked at. -/
theorem look_name {d : Location} (hd : t.directory? bundle = some d) (hnull : Tree.hasNull bundle = false) {n : String}
    (hn : FileName n) (hsize : n.utf8ByteSize ≤ Tree.nameLimit)
    (hlimit : (bundle.join n).text.utf8ByteSize < Tree.pathLimit) :
    t.place (bundle.join n) = .ok (t.placeIn d n) ∧ t.look (bundle.join n) = .ok (t.node? (d ++ [n])) := by
  have hname := Path.name_join bundle hn.isName
  have hparent : t.directory? (bundle.join n).parent = some d := by rwa [Path.parent_join bundle hn.isName]
  have hplace := Tree.place_in_directory hparent (hn.namesFile_join hsize hlimit)
  rw [hname] at hplace
  refine ⟨hplace, ?_⟩
  have hj : Tree.hasNull (bundle.join n) = false := by
    rw [Path.hasNull_join bundle hn.isName, hnull, hn.noNull]
    rfl
  unfold Tree.look
  rw [hj, hplace]
  unfold Tree.placeIn
  cases t.node? (d ++ [n]) <;> rfl

theorem windowLayout_of_look {d : Location} (hd : t.directory? bundle = some d) (hnull : Tree.hasNull bundle = false)
    (hlimit : (bundle.join windowLayoutFile).text.utf8ByteSize < Tree.pathLimit) :
    Bundle.windowLayout t bundle = .ok (t.file? (d ++ [windowLayoutFile])) := by
  obtain ⟨hplace, hlook⟩ := look_name hd hnull fileName_windowLayoutFile (by decide) hlimit
  have hj : Tree.hasNull (bundle.join windowLayoutFile) = false := by
    rw [Path.hasNull_join bundle fileName_windowLayoutFile.isName, hnull]
    decide
  unfold Bundle.windowLayout Tree.isFile Tree.readBytes Tree.file?
  rw [hlook, hj, hplace]
  unfold Tree.placeIn
  cases t.node? (d ++ [windowLayoutFile]) with
  | none => rfl
  | some n => cases n <;> rfl

/-- No window layout is read over a path that is too long. -/
theorem windowLayout_too_long (hnull : Tree.hasNull bundle = false)
    (hlimit : Tree.pathLimit ≤ (bundle.join windowLayoutFile).text.utf8ByteSize) :
    Bundle.windowLayout t bundle = .error (.refused .nameTooLong (bundle.join windowLayoutFile).text) := by
  have hj : Tree.hasNull (bundle.join windowLayoutFile) = false := by
    rw [Path.hasNull_join bundle fileName_windowLayoutFile.isName, hnull]
    decide
  unfold Bundle.windowLayout Tree.isFile
  rw [Tree.look_too_long hj hlimit]
  rfl

/-! ## The longest of the fixed names -/

variable {m : Machine} {b : Binding} {name : String} {isSuspensible : Bool}

theorem fitPlan_of (hname : Source.FitName name) (hnames : ∀ s ∈ m.graph.listedStates, Source.FitName s.name) :
    Source.FitPlan (.of m b name isSuspensible) := by
  refine ⟨hname, fun s hs => ?_⟩
  obtain ⟨r, hr, rfl⟩ := List.mem_map.mp hs
  exact hnames r hr

/-- There is a file with a name as long as that of a window layout, unless a bundle in Objective-C++ has neither states
nor a layout. -/
theorem exists_long_name (hfit : Source.FitPlan (.of m b name isSuspensible))
    (h : ¬(m.graph.listedStates = [] ∧ b = .objectiveCpp ∧ m.windowLayout = none)) :
    ∃ f ∈ files m b name isSuspensible, FileName f.1 ∧ windowLayoutFile.utf8ByteSize ≤ f.1.utf8ByteSize := by
  have hall := fileName_files hfit.plain hfit.name.nonempty
  cases hl : m.windowLayout with
  | some layout => exact ⟨_, windowLayoutFile_mem hl, fileName_windowLayoutFile, le_refl _⟩
  | none =>
    cases b with
    | c =>
      have hmem : textFile ("Machine_" ++ name ++ "_Variables.h") (m.boilerplate.get .variables) ∈
          files m .c name isSuspensible := sectionFile_mem (by simp [Binding.sectionFiles, Binding.stem])
      refine ⟨_, hmem, hall _ hmem, ?_⟩
      simp only [textFile, String.utf8ByteSize_append]
      have h₁ : windowLayoutFile.utf8ByteSize = 18 := by decide
      have h₂ : "Machine_".utf8ByteSize = 8 := by decide
      have h₃ : "_Variables.h".utf8ByteSize = 12 := by decide
      omega
    | objectiveCpp =>
      cases hs : m.graph.listedStates with
      | nil => exact absurd ⟨hs, rfl, hl⟩ h
      | cons s r =>
        have hplan : Source.statePlan m.graph s ∈ (Source.MachinePlan.of m .objectiveCpp name isSuspensible).states :=
          List.mem_map.mpr ⟨s, by rw [hs]; exact List.mem_cons_self, rfl⟩
        have hmem : textFile (Binding.stateStem s.name ++ "_OnSuspend.mm") ((m.boilerplateOf s.id).get .onSuspend) ∈
            files m .objectiveCpp name isSuspensible :=
          stateSectionFile_mem hplan (by simp [Binding.stateSectionFiles, Source.statePlan])
        refine ⟨_, hmem, hall _ hmem, ?_⟩
        simp only [textFile, Binding.stateStem, String.utf8ByteSize_append]
        have h₁ : windowLayoutFile.utf8ByteSize = 18 := by decide
        have h₂ : "State_".utf8ByteSize = 6 := by decide
        have h₃ : "_OnSuspend.mm".utf8ByteSize = 13 := by decide
        omega

/-- The machine in a bundle with all its files is loaded, if the path of a window layout can be followed there. -/
theorem load_stored (h : Stored t bundle (files m b bundle.stem isSuspensible))
    (hwf : m.graph.WellFormed) (hr : m.graph.Unbroken) (hnames : ∀ s ∈ m.graph.listedStates, Source.FitName s.name)
    (hstem : Source.FitName bundle.stem) {layout : Option ByteArray} (hl : Bundle.windowLayout t bundle = .ok layout)
    (trail : Trail) :
    ∃ trail', outcome (Machine.load bundle none t) trail =
        (.ok (loadedMachine bundle m (.of m b bundle.stem isSuspensible) layout trail.supply.drawn), trail') ∧
      Restored m b isSuspensible
        (loadedMachine bundle m (.of m b bundle.stem isSuspensible) layout trail.supply.drawn) := by
  have hfit : Source.FitPlan (.of m b bundle.stem isSuspensible) := fitPlan_of hstem hnames
  obtain ⟨trail', hload⟩ := outcome_load (recorded_of_stored h hfit hwf hr) hl trail
  exact ⟨trail', hload, restored_loadedMachine hwf fun s hs => (hnames s hs).nonempty⟩

/-- The path of the window layout can be followed where all files of a bundle stand. -/
theorem windowLayout_stored (h : Stored t bundle (files m b bundle.stem isSuspensible))
    (hnames : ∀ s ∈ m.graph.listedStates, Source.FitName s.name) (hstem : Source.FitName bundle.stem)
    (hroom : m.graph.listedStates = [] ∧ b = .objectiveCpp ∧ m.windowLayout = none →
      (bundle.join windowLayoutFile).text.utf8ByteSize < Tree.pathLimit) :
    ∃ d, t.directory? bundle = some d ∧ Bundle.windowLayout t bundle = .ok (t.file? (d ++ [windowLayoutFile])) := by
  have hfit : Source.FitPlan (.of m b bundle.stem isSuspensible) := fitPlan_of hstem hnames
  obtain ⟨d, hd, hnull⟩ := directory?_stored h languageFile_mem fileName_languageFile
  have hlimit : (bundle.join windowLayoutFile).text.utf8ByteSize < Tree.pathLimit := by
    by_cases hcase : m.graph.listedStates = [] ∧ b = .objectiveCpp ∧ m.windowLayout = none
    · exact hroom hcase
    · obtain ⟨f, hf, hn, hle⟩ := exists_long_name hfit hcase
      exact utf8ByteSize_text_stored h hf hn fileName_windowLayoutFile hle
  exact ⟨d, hd, windowLayout_of_look hd hnull hlimit⟩

end Bundle

namespace Export

/-- An exported machine is loaded from its bundle as it was, whatever stood there before. -/
theorem machine_round_trip (o : Options) (m : Machine) (destination : Path) (b : Binding) (scene scene' : Scene)
    (report : Report) (hwf : m.graph.WellFormed) (hr : m.graph.Unbroken)
    (hnames : ∀ s ∈ m.graph.listedStates, Source.FitName s.name) (hstem : Source.FitName destination.stem)
    (hroom : m.graph.states = [] → b = .objectiveCpp → m.windowLayout = none →
      (destination.join Bundle.windowLayoutFile).text.utf8ByteSize < Tree.pathLimit)
    (h : outcome (machine o m destination b) scene = (.ok report, scene')) (hn : report.files.Nodup) (trail : Trail) :
    ∃ m' trail', outcome (Machine.load destination none scene'.tree) trail = (.ok m', trail') ∧
      Restored m b o.isSuspensible m' := by
  have hfit : Source.FitPlan (.of m b destination.stem o.isSuspensible) := Bundle.fitPlan_of hstem hnames
  have hstored := machine_stored h hn hfit.plain hstem.nonempty
  obtain ⟨d, _, hlayout⟩ := Bundle.windowLayout_stored hstored hnames hstem fun ⟨hs, hb, hl⟩ => by
    refine hroom ?_ hb hl
    rw [← hwf.map_listedStates, hs]
    rfl
  obtain ⟨trail', hload, hrestored⟩ := Bundle.load_stored hstored hwf hr hnames hstem hlayout trail
  exact ⟨_, trail', hload, hrestored⟩

/-- A working directory with two directories in it. -/
def crossroads : Tree :=
  ⟨["work"], [(["work"], .directory), (["work", "a"], .directory), (["work", "A"], .directory)], []⟩

/-- A path to the second one, with some turns on the way. -/
def detour (turns : Nat) : Path :=
  ⟨.none, (List.replicate turns ["a", ".."]).flatten ++ ["A"]⟩

theorem parts_detour (k : Nat) : (detour k).parts ≠ [] := by
  simp [detour]

theorem directory?_detour (k : Nat) : crossroads.directory? (detour k) = some ["work", "A"] := by
  have hturns : crossroads.reach ["work"] ((List.replicate k ["a", ".."]).flatten ++ ["A"]) =
      crossroads.reach ["work"] ["A"] := by
    induction k with
    | zero => rfl
    | succ k ih =>
      rw [List.replicate_succ, List.flatten_cons, List.append_assoc, Tree.reach_append]
      exact ih
  exact hturns

theorem utf8ByteSize_turns (k : Nat) :
    ("/".intercalate ((List.replicate k ["a", ".."]).flatten ++ ["A"])).utf8ByteSize = 5 * k + 1 := by
  induction k with
  | zero => decide
  | succ k ih =>
    rw [List.replicate_succ, List.flatten_cons, List.append_assoc]
    cases hr : (List.replicate k ["a", ".."]).flatten ++ ["A"] with
    | nil => simp at hr
    | cons p r =>
      rw [hr] at ih
      have ha : "a".utf8ByteSize = 1 := by decide
      have hdots : "..".utf8ByteSize = 2 := by decide
      have hslash : "/".utf8ByteSize = 1 := by decide
      simp only [List.cons_append, List.nil_append, String.intercalate_cons_cons, String.utf8ByteSize_append, ih, ha,
        hdots, hslash]
      omega

theorem utf8ByteSize_detour (k : Nat) : (detour k).text.utf8ByteSize = 5 * k + 1 := by
  have ht : (detour k).text = "" ++ "/".intercalate (detour k).parts := if_neg (by simp [detour])
  rw [ht, String.empty_append]
  exact utf8ByteSize_turns k

theorem stem_detour (k : Nat) : (detour k).stem = "A" := by
  have hn : (detour k).name = "A" := by simp [detour, Path.name]
  rw [Path.stem, hn]
  decide

theorem hasNull_detour (k : Nat) : Tree.hasNull (detour k) = false := by
  unfold Tree.hasNull
  rw [List.any_eq_false]
  intro part hp
  have hm : part = "a" ∨ part = ".." ∨ part = "A" := by
    simp only [detour, List.mem_append, List.mem_flatten, List.mem_replicate, List.mem_singleton] at hp
    rcases hp with ⟨_, ⟨_, rfl⟩, hp⟩ | rfl
    · have hturn : part = "a" ∨ part = ".." := by simpa using hp
      exact hturn.imp_right .inl
    · exact .inr (.inr rfl)
  rcases hm with rfl | rfl | rfl <;> decide

/-- A machine with short names is exported to the second directory over any number of turns that leave room. -/
theorem machine_to_detour (k : Nat) (m : Machine) (b : Binding) (o : Options) (ho : o.templates = none)
    (hfit : Source.FitPlan (.of m b "A" o.isSuspensible))
    (hsize : ∀ f ∈ files m b "A" o.isSuspensible, f.1.utf8ByteSize ≤ 200 ∧ 5 * k + 2 + f.1.utf8ByteSize < Tree.pathLimit)
    (trail : Trail) :
    ∃ scene', outcome (machine o m (detour k) b) ⟨crossroads, trail⟩ =
      (.ok ⟨detour k, b, (files m b "A" o.isSuspensible).map Prod.fst⟩, scene') := by
  have hdot : ".".utf8ByteSize = 1 := by decide
  have hrow : ".XXXXXXXX.tmp".utf8ByteSize = 13 := by decide
  have hplace : "A".utf8ByteSize = 1 := by decide
  have hslash : "/".utf8ByteSize = 1 := by decide
  have hnames := fileName_files hfit.plain hfit.name.nonempty
  have hready : ∀ w ∈ (batchOf (detour k) (files m b "A" o.isSuspensible)).queue, Batch.Ready crossroads w := by
    intro w hw
    obtain ⟨f, hf, rfl⟩ := List.mem_map.mp hw
    obtain ⟨hshort, hroom⟩ := hsize f hf
    unfold Tree.pathLimit at hroom
    refine ready_join (directory?_detour k) (hasNull_detour k) ?_ (hnames f hf) ?_ ?_ ?_ rfl f.2
    · rw [utf8ByteSize_detour]
      unfold Tree.pathLimit
      omega
    · unfold Scratch.nameFor Tree.nameLimit
      simp only [String.utf8ByteSize_append, hdot, hrow]
      omega
    · have ht : Scratch.textFor crossroads.home ["work", "A"] f.1 = "A" ++ "/" ++ Scratch.nameFor f.1 := rfl
      unfold Tree.pathLimit
      rw [ht]
      unfold Scratch.nameFor
      simp only [String.utf8ByteSize_append, hdot, hrow, hplace, hslash]
      omega
    · rw [Path.utf8ByteSize_text_join_of_ne (parts_detour k) (hnames f hf).isName, utf8ByteSize_detour]
      unfold Tree.pathLimit
      omega
  rw [← stem_detour k] at hnames hready ⊢
  have hscene : (⟨crossroads, trail⟩ : Scene).tree = crossroads := rfl
  rw [← hscene] at hready
  obtain ⟨scene', h, _⟩ := machine_of_ready ho hnames hready
  exact ⟨scene', h⟩

/-- A machine without states is exported over so many turns that it cannot be loaded again. -/
theorem empty_machine_is_not_loaded :
    ∃ report scene', (Machine.empty "A" .objectiveCpp).graph.WellFormed ∧
      (Machine.empty "A" .objectiveCpp).graph.Unbroken ∧ Source.FitName (detour 816).stem ∧
      outcome (machine ⟨none, true⟩ (.empty "A" .objectiveCpp) (detour 816) .objectiveCpp)
        ⟨crossroads, ⟨.start, []⟩⟩ = (.ok report, scene') ∧ report.files.Nodup ∧
      ∀ trail, ¬∃ m' trail', outcome (Machine.load (detour 816) none scene'.tree) trail = (.ok m', trail') := by
  have hname : Source.FitName "A" := by decide
  have hfit : Source.FitPlan (.of (.empty "A" .objectiveCpp) .objectiveCpp "A" true) :=
    Bundle.fitPlan_of hname fun s hs => by cases hs
  have hfiles : ((files (.empty "A" .objectiveCpp) .objectiveCpp "A" true).map Prod.fst).Nodup ∧
      ∀ n ∈ (files (.empty "A" .objectiveCpp) .objectiveCpp "A" true).map Prod.fst, n.utf8ByteSize ≤ 13 := by
    decide
  obtain ⟨scene', h⟩ := machine_to_detour 816 (.empty "A" .objectiveCpp) .objectiveCpp ⟨none, true⟩ rfl hfit
    (fun f hf => by
      have hs := hfiles.2 f.1 (List.mem_map_of_mem hf)
      unfold Tree.pathLimit
      omega) ⟨.start, []⟩
  refine ⟨_, scene', Graph.wellFormed_empty, Graph.unbroken_empty, by rwa [stem_detour], h, hfiles.1, ?_⟩
  rintro trail ⟨m', trail', hload⟩
  have hlayout := (Bundle.load_ok hload).2
  rw [Bundle.windowLayout_too_long (hasNull_detour 816)] at hlayout
  · cases hlayout
  · rw [Path.utf8ByteSize_text_join_of_ne (parts_detour 816) Bundle.fileName_windowLayoutFile.isName,
      utf8ByteSize_detour]
    decide

/-- A machine with one state, which a transition leaves and comes back to. -/
def looping : Machine :=
  { Machine.empty "A" .c with
    graph := .ofRecords [⟨.generated 1, "S"⟩] [⟨.generated 2, .generated 1, "x > 1 ", some (.generated 1)⟩]
      (some (.generated 1)) }

theorem wellFormed_looping : looping.graph.WellFormed :=
  Graph.wellFormed_ofRecords (by simp) (by simp) (by simp)

theorem unbroken_looping : looping.graph.Unbroken := by
  intro i hi t ht
  cases List.mem_singleton.mp hi
  cases ht
  decide

theorem looping_is_restored :
    ∃ m' trail' report scene', outcome (machine ⟨none, true⟩ looping (detour 0) .objectiveCpp)
        ⟨crossroads, ⟨.start, []⟩⟩ = (.ok report, scene') ∧
      outcome (Machine.load (detour 0) none scene'.tree) ⟨.start, []⟩ = (.ok m', trail') ∧
      Restored looping .objectiveCpp true m' := by
  have hname : Source.FitName "A" := by decide
  have hnames : ∀ s ∈ looping.graph.listedStates, Source.FitName s.name := by decide
  have hfiles : ((files looping .objectiveCpp "A" true).map Prod.fst).Nodup ∧
      ∀ n ∈ (files looping .objectiveCpp "A" true).map Prod.fst, n.utf8ByteSize ≤ 30 := by
    decide
  obtain ⟨scene', h⟩ := machine_to_detour 0 looping .objectiveCpp ⟨none, true⟩ rfl (Bundle.fitPlan_of hname hnames)
    (fun f hf => by
      have hs := hfiles.2 f.1 (List.mem_map_of_mem hf)
      unfold Tree.pathLimit
      omega) ⟨.start, []⟩
  obtain ⟨m', trail', hload, hrestored⟩ := machine_round_trip ⟨none, true⟩ looping (detour 0) .objectiveCpp
    ⟨crossroads, ⟨.start, []⟩⟩ scene' _ wellFormed_looping unbroken_looping hnames (by rwa [stem_detour])
    (fun hs _ _ => by cases hs) h hfiles.1 ⟨.start, []⟩
  exact ⟨m', trail', _, scene', h, hload, hrestored⟩

end Export

end MachineBundle
