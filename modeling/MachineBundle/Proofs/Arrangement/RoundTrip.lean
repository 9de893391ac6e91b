import MachineBundle.Proofs.Arrangement.Fresh

/-!
# Writing an arrangement and loading it again

An arrangement that is written to a new place comes back with all its machines in order. A machine listed twice is
written once and loaded once.
-/

namespace MachineBundle

namespace Arrangement

open Bundle Tree

/-- Of the names in a manifest all are read that are not blank. -/
theorem namesIn_manifestOf {names : List String} (h : ∀ n ∈ names, '\n' ∉ n.toList) :
    namesIn (manifestOf names) = names.filter fun n => !Text.isBlankText n := by
  unfold namesIn manifestOf
  have hlast : [([] : List Char)].filter (fun line => !line.all Text.isBlank) = [] := rfl
  rw [Text.entries_unlines h, List.filter_append, hlast, List.append_nil, List.filter_map, List.map_map]
  exact (List.map_congr_left fun n _ => String.ofList_toList).trans (List.map_id' _)

variable {machines : List Machine} {b : Binding} {isSuspensible : Bool} {destination : Path} {t : Tree}

theorem loadNames_written (h : Export.Stored t destination (files machines b isSuspensible))
    (hms : ∀ m ∈ machines, m.Portable) : loadNames t destination = .ok (machines.map Machine.name) := by
  have hplain : ∀ n ∈ machines.map Machine.name, n ≠ "" ∧ Text.PlainText n := by
    intro n hn
    obtain ⟨m, hm, rfl⟩ := List.mem_map.mp hn
    exact ⟨(hms m hm).name.nonempty, (hms m hm).name.plain⟩
  have hkept : ∀ n ∈ machines.map Machine.name, (!Text.isBlankText n) = true := by
    intro n hn
    obtain ⟨hne, hp⟩ := hplain n hn
    obtain ⟨c, r, hcr⟩ := List.exists_cons_of_ne_nil (mt String.toList_eq_nil_iff.mp hne)
    simp [Text.isBlankText, hcr, hp.isBlank c (by simp [hcr])]
  have hmem : Export.textFile manifestFile (manifestOf (machines.map Machine.name)) ∈ files machines b isSuspensible := by
    simp [files]
  have hreturn : '\r' ∉ (manifestOf (machines.map Machine.name)).toList :=
    Source.not_mem_unlines (by decide) fun n hn => (hplain n hn).2.not_mem (by decide)
  have hfile : t.isFile (manifestPath destination) = .ok true := isFile_stored h hmem
  have htext : t.readText (manifestPath destination) = .ok (manifestOf (machines.map Machine.name)) :=
    h.readText hmem hreturn
  unfold loadNames
  dsimp only
  rw [hfile, htext]
  simp only [bind, Except.bind, if_true]
  rw [namesIn_manifestOf fun n hn => (hplain n hn).2.not_mem (by decide), List.filter_eq_self.mpr hkept]
  rfl

/-! ## Loading -/

/-- The machine in a bundle with all its files comes back as a whole, if its window layout does. -/
theorem load_whole {bundle : Path} {m : Machine}
    (h : Export.Stored t bundle (Export.files m b m.name isSuspensible)) (hp : m.Portable)
    (hstem : bundle.stem = m.name) (hlayout : windowLayout t bundle = .ok m.windowLayout) (trail : Trail) :
    ∃ m' trail', outcome (Machine.load bundle none t) trail = (.ok m', trail') ∧ RestoredWhole m b isSuspensible m' := by
  rw [← hstem] at h
  have hfit : Source.FitPlan (.of m b bundle.stem isSuspensible) := fitPlan_of (by rw [hstem]; exact hp.name) hp.stateNames
  obtain ⟨trail', hload⟩ := outcome_load (recorded_of_stored h hfit hp.graph hp.guards) hlayout trail
  exact ⟨_, trail', hload,
    restoredWhole_loadedMachine hp.graph (fun s hs => (hp.stateNames s hs).nonempty) hp.code hstem⟩

/-- One machine is loaded from its bundle, or it has been before. -/
theorem loadOnce_written {bundle : Path} {loaded : Table Path Machine} {P : Machine → Prop}
    (hload : ∀ trail, ∃ m' trail', outcome (Machine.load bundle none t) trail = (.ok m', trail') ∧ P m')
    (hl : ∀ m', loaded.get? bundle = some m' → P m') (trail : Trail) :
    ∃ m' trail', outcome (loadOnce none loaded bundle t) trail = (.ok m', trail') ∧ P m' := by
  unfold loadOnce
  cases hg : loaded.get? bundle with
  | none => exact hload trail
  | some m' => exact ⟨m', trail, rfl, hl m' hg⟩

/-- The machines of a list are loaded in order if each name leads to a bundle that gives its machine back. -/
theorem loadFrom_written {bundleOf : Machine → Path} {P : Machine → Machine → Prop}
    (hbundle : ∀ m ∈ machines, bundle? t destination m.name = .ok (some (bundleOf m)))
    (hinj : ∀ m ∈ machines, ∀ m' ∈ machines, bundleOf m = bundleOf m' → m = m')
    (hload : ∀ m ∈ machines, ∀ trail, ∃ m' trail',
      outcome (Machine.load (bundleOf m) none t) trail = (.ok m', trail') ∧ P m m') :
    ∀ (ms : List Machine) (loaded : Table Path Machine) (trail : Trail), (∀ m ∈ ms, m ∈ machines) →
      (∀ m ∈ machines, ∀ m', loaded.get? (bundleOf m) = some m' → P m m') →
      ∃ es trail', outcome (loadFrom destination none loaded (ms.map Machine.name) t) trail = (.ok es, trail') ∧
        List.Forall₂ (fun m e => e.1 = bundleOf m ∧ P m e.2) ms es := by
  intro ms
  induction ms with
  | nil => exact fun _ trail _ _ => ⟨[], trail, rfl, .nil⟩
  | cons m rest ih =>
    intro loaded trail hms hl
    have hm := hms m List.mem_cons_self
    have hfound : outcome (Reading.query (fun t => bundle? t destination m.name) t) trail =
        (.ok (some (bundleOf m)), trail) := by
      rw [outcome_reading_query, hbundle m hm]
    obtain ⟨m', trail₁, honce, hback⟩ := loadOnce_written (hload m hm) (hl m hm) trail
    -- What has been loaded stays right for all machines, since only this one has this bundle.
    have hset : ∀ p n', (loaded.set (bundleOf m) m').get? p = some n' → ∀ n ∈ machines, bundleOf n = p → P n n' := by
      refine Table.forall_get?_set (fun n hn he => ?_) ?_
      · rwa [hinj n hn m hm he]
      · rintro _ n' hget n hn rfl
        exact hl n hn n' hget
    obtain ⟨es, trail', hrest, hall⟩ := ih (loaded.set (bundleOf m) m') trail₁
      (fun n hn => hms n (List.mem_cons_of_mem m hn)) fun n hn n' hget => hset _ n' hget n hn rfl
    refine ⟨(bundleOf m, m') :: es, trail', ?_, .cons ⟨rfl, hback⟩ hall⟩
    rw [List.map_cons, loadFrom, outcome_reading_bind_ok hfound]
    dsimp only
    rw [outcome_reading_bind_ok honce, outcome_reading_bind_ok hrest, outcome_reading_pure]

/-! ## Writing -/

/-- The path of a bundle is short enough if that of a file in it is. -/
theorem utf8ByteSize_text_bundle {bundle : Path} {fs : List Export.File} (h : Export.Stored t bundle fs)
    (hne : bundle.parts ≠ []) {f : Export.File} (hf : f ∈ fs) (hn : FileName f.1) :
    bundle.text.utf8ByteSize < pathLimit := by
  obtain ⟨l, hl⟩ := Option.isSome_iff_exists.mp (h.slot f hf)
  have hlimit := (slot?_eq_some.mp hl).1.2.2.2
  rw [Path.utf8ByteSize_text_join_of_ne hne hn.isName] at hlimit
  omega

section Written

variable {t' : Tree} {r : Except Fault Nat} (hms : ∀ m ∈ machines, m.Portable)
  (hsame : ∀ m ∈ machines, ∀ m' ∈ machines, m.name = m'.name → m = m')
  (hc : outcome (Export.batchOf destination (files machines b isSuspensible)).commit t = (r, t'))
  (hfree : t.IsFree (t.locate destination))

include hms hsame hc hfree in
/-- The window layout of a machine is read from its bundle, also if it has none. -/
theorem windowLayout_bundle {m : Machine} (hm : m ∈ machines)
    (hstored : Export.Stored t' (destination.join (bundleDirectory m)) (Export.files m b m.name isSuspensible))
    (hroom : m.graph.states = [] → b = .objectiveCpp → m.windowLayout = none →
      ((destination.join (bundleDirectory m)).join windowLayoutFile).text.utf8ByteSize < pathLimit) :
    windowLayout t' (destination.join (bundleDirectory m)) = .ok m.windowLayout := by
  have hp := hms m hm
  cases hl : m.windowLayout with
  | some layout =>
    have hread := hstored.readBytes _ (Export.windowLayoutFile_mem hl)
    unfold windowLayout
    rw [isFile_of_readBytes hread, hread]
    rfl
  | none =>
    have hstem := stem_bundle destination hp.name
    rw [← hstem] at hstored
    obtain ⟨d, hd, hlayout⟩ := windowLayout_stored hstored hp.stateNames (by rw [hstem]; exact hp.name) fun ⟨hs, hb, hl⟩ => by
      refine hroom ?_ hb hl
      rw [← hp.graph.map_listedStates, hs]
      rfl
    have hhome := Batch.commit_home hc
    have hlocate : d = t.locate destination ++ [bundleDirectory m] := by
      have hdirectory := fileName_bundleDirectory hp.name
      have hdots : ".." ∉ [bundleDirectory m] := by simpa using hdirectory.ne_dots.symm
      rw [directory?_eq_locate hd, locate_congr hhome, Path.join, Path.ofText_name hdirectory.isName,
        locate_append t destination hdots]
    rw [hlayout, hlocate, List.append_assoc]
    exact congrArg Except.ok (no_window_layout hms hc hfree hsame hm hl)

include hms hc hfree in
/-- The name of a machine leads to its bundle. -/
theorem bundle?_stored (hall : Export.Stored t' destination (files machines b isSuspensible)) {m : Machine}
    (hm : m ∈ machines)
    (hstored : Export.Stored t' (destination.join (bundleDirectory m)) (Export.files m b m.name isSuspensible))
    (hway : ¬ Filing.OnWay (t.start destination) destination.parts (t.locate destination ++ [m.name])) :
    bundle? t' destination m.name = .ok (some (destination.join (bundleDirectory m))) := by
  have hdirectory := fileName_bundleDirectory (hms m hm).name
  obtain ⟨d, hd, hnull⟩ := directory?_stored hstored Export.languageFile_mem fileName_languageFile
  rw [Path.hasNull_join destination hdirectory.isName, Bool.or_eq_false_iff] at hnull
  have hne : (destination.join (bundleDirectory m)).parts ≠ [] := by
    rw [Path.join_name destination hdirectory.isName]
    simp
  exact bundle?_written (hms m hm).name hnull.1 hd
    (utf8ByteSize_text_bundle hstored hne Export.languageFile_mem fileName_languageFile)
    (no_bare_directory hms hc hfree hall hm hway)

end Written

/-- An arrangement that is written to a place where nothing stood is loaded with all its machines, each as it was, in
their order. -/
theorem write_round_trip (o : Export.Options) (machines : List Machine) (destination : Path) (binding : Option Binding)
    (scene scene' : Scene) (report : Export.Report) (hms : ∀ m ∈ machines, m.Portable)
    (hsame : ∀ m ∈ machines, ∀ m' ∈ machines, m.name = m'.name → m = m')
    (hn : ∀ m ∈ machines,
      ((Export.files m (bindingOf machines binding) m.name o.isSuspensible).map Prod.fst).Nodup)
    (hfree : scene.tree.IsFree (scene.tree.locate destination))
    (hway : ∀ m ∈ machines,
      ¬ Filing.OnWay (scene.tree.start destination) destination.parts (scene.tree.locate destination ++ [m.name]))
    (hroom : ∀ m ∈ machines, m.graph.states = [] → bindingOf machines binding = .objectiveCpp → m.windowLayout = none →
      ((destination.join (bundleDirectory m)).join windowLayoutFile).text.utf8ByteSize < pathLimit)
    (h : outcome (write o machines destination binding) scene = (.ok report, scene')) (trail : Trail) :
    ∃ loaded trail', loadNames scene'.tree destination = .ok (machines.map Machine.name) ∧
      outcome (loadMachines destination (machines.map Machine.name) none scene'.tree) trail = (.ok loaded, trail') ∧
      List.Forall₂ (fun m e => e.1 = destination.join (bundleDirectory m) ∧
        RestoredWhole m (bindingOf machines binding) o.isSuspensible e.2) machines loaded := by
  have hw := write_ok h
  generalize bindingOf machines binding = b at hn hroom hw ⊢
  obtain ⟨n, hc, -, -⟩ := Export.writeFiles_ok hw
  have hstored := Export.writeFiles_stored_of_nodup hw (nodup_paths hms destination hn) fun f hf => ofText_files hms hf
  have hbundles : ∀ m ∈ machines, Export.Stored scene'.tree (destination.join (bundleDirectory m))
      (Export.files m b m.name o.isSuspensible) := fun m hm => stored_bundle hstored hsame hm (hms m hm) (hn m hm)
  have hfound : ∀ m ∈ machines, bundle? scene'.tree destination m.name =
      .ok (some (destination.join (bundleDirectory m))) := fun m hm =>
    bundle?_stored hms hc hfree hstored hm (hbundles m hm) (hway m hm)
  have hinj : ∀ m ∈ machines, ∀ m' ∈ machines,
      destination.join (bundleDirectory m) = destination.join (bundleDirectory m') → m = m' := fun m hm m' hm' he =>
    hsame m hm m' hm' (join_bundleDirectory_inj destination (hms m hm).name (hms m' hm').name he)
  have hload : ∀ m ∈ machines, ∀ trail, ∃ m' trail',
      outcome (Machine.load (destination.join (bundleDirectory m)) none scene'.tree) trail = (.ok m', trail') ∧
        RestoredWhole m b o.isSuspensible m' := fun m hm trail =>
    load_whole (hbundles m hm) (hms m hm) (stem_bundle destination (hms m hm).name)
      (windowLayout_bundle hms hsame hc hfree hm (hbundles m hm) (hroom m hm)) trail
  obtain ⟨loaded, trail', hloaded, hall⟩ :=
    loadFrom_written hfound hinj hload machines [] trail (fun _ hm => hm) fun _ _ _ hget => by cases hget
  exact ⟨loaded, trail', loadNames_written hstored hms, hloaded, hall⟩

/-! ## The way to an arrangement -/

theorem isFree_empty {l : Location} (h : 1 < l.length) : Tree.empty.IsFree l := by
  refine isFree_of_nodes (List.ne_nil_of_length_pos (Nat.zero_lt_of_lt h)) fun e he hprefix => ?_
  obtain rfl : e = (["work"], .directory) := by simpa [Tree.empty] using he
  exact absurd hprefix.length_le (Nat.not_le.mpr h)

theorem codeUnbroken_of_blank {m : Machine} (h : m.boilerplate = .blank) (hs : m.stateBoilerplate = []) :
    m.CodeUnbroken := by
  have hblank : ∀ s, '\r' ∉ (Boilerplate.blank.get s).toList := by
    intro s
    cases s <;> decide
  refine ⟨fun s => by rw [h]; exact hblank s, fun i _ s => ?_⟩
  unfold Machine.boilerplateOf
  rw [hs]
  exact hblank s

theorem portable_looping : Export.looping.Portable where
  name := by decide
  stateNames := by decide
  graph := Export.wellFormed_looping
  guards := Export.unbroken_looping
  code := codeUnbroken_of_blank rfl rfl

/-- A machine that is listed twice comes back twice. -/
theorem looping_twice_comes_back :
    ∃ report scene' loaded trail',
      outcome (write ⟨none, true⟩ [Export.looping, Export.looping] (.ofText "b") none) ⟨.empty, ⟨.start, []⟩⟩ =
        (.ok report, scene') ∧
      outcome (loadMachines (.ofText "b") ["A", "A"] none scene'.tree) ⟨.start, []⟩ = (.ok loaded, trail') ∧
      List.Forall₂ (fun m e => e.1 = (Path.ofText "b").join (bundleDirectory m) ∧ RestoredWhole m .c true e.2)
        [Export.looping, Export.looping] loaded := by
  obtain ⟨report, scene', h⟩ : ∃ report scene', outcome (write ⟨none, true⟩ [Export.looping, Export.looping]
      (.ofText "b") none) ⟨.empty, ⟨.start, []⟩⟩ = (.ok report, scene') := exists_of_isOk (by decide +kernel)
  have hlocate : Tree.empty.locate (.ofText "b") = ["work", "b"] := by decide
  have hnodup : ∀ m ∈ [Export.looping, Export.looping], ((Export.files m .c m.name true).map Prod.fst).Nodup := by
    intro m hm
    obtain rfl : m = Export.looping := by simpa using hm
    decide
  obtain ⟨loaded, trail', -, hloaded, hall⟩ :=
    write_round_trip ⟨none, true⟩ [Export.looping, Export.looping] (.ofText "b") none ⟨.empty, ⟨.start, []⟩⟩ scene' report
      (by simpa using portable_looping) (by simp) hnodup (by rw [hlocate]; exact isFree_empty (by decide))
      (by decide) (fun m _ _ hb => by cases hb) h ⟨.start, []⟩
  exact ⟨report, scene', loaded, trail', h, hloaded, hall⟩

/-- The names in a manifest that has been written to an empty tree and whether its machines can be loaded, if the
arrangement can be written. -/
def writtenAndLoaded (machines : List Machine) (destination : Path) : Option (Option (List String) × Bool) :=
  match outcome (write ⟨none, true⟩ machines destination none) ⟨.empty, ⟨.start, []⟩⟩ with
  | (.ok _, scene) =>
    some ((loadNames scene.tree destination).toOption,
      (outcome (loadMachines destination (machines.map Machine.name) none scene.tree) ⟨.start, []⟩).1.isOk)
  | (.error _, _) => none

theorem exists_of_writtenAndLoaded {machines : List Machine} {destination : Path} {names : List String} {isLoaded : Bool}
    (h : writtenAndLoaded machines destination = some (some names, isLoaded)) :
    ∃ report scene', outcome (write ⟨none, true⟩ machines destination none) ⟨.empty, ⟨.start, []⟩⟩ =
        (.ok report, scene') ∧
      loadNames scene'.tree destination = .ok names ∧
      (outcome (loadMachines destination (machines.map Machine.name) none scene'.tree) ⟨.start, []⟩).1.isOk =
        isLoaded := by
  unfold writtenAndLoaded at h
  generalize outcome (write ⟨none, true⟩ machines destination none) ⟨.empty, ⟨.start, []⟩⟩ = r at h ⊢
  rcases r with ⟨f | report, scene⟩
  · cases h
  · rw [Option.some.injEq, Prod.mk.injEq] at h
    refine ⟨report, scene, rfl, ?_, h.2⟩
    cases hnames : loadNames scene.tree destination with
    | error f =>
      rw [hnames] at h
      cases h.1
    | ok names' =>
      rw [hnames] at h
      cases h.1
      rfl

theorem portable_empty : (Machine.empty "A" .c).Portable where
  name := by decide
  stateNames := fun s hs => by cases hs
  graph := Graph.wellFormed_empty
  guards := Graph.unbroken_empty
  code := codeUnbroken_of_blank rfl rfl

/-- On the way to a new place a directory can be made that is taken for the bundle of a machine. -/
theorem directory_on_the_way_is_no_bundle :
    ∃ report scene', (Machine.empty "A" .c).Portable ∧
      ((Export.files (.empty "A" .c) .c "A" true).map Prod.fst).Nodup ∧
      Tree.empty.IsFree (Tree.empty.locate (.ofText "b/A/..")) ∧
      outcome (write ⟨none, true⟩ [.empty "A" .c] (.ofText "b/A/..") none) ⟨.empty, ⟨.start, []⟩⟩ =
        (.ok report, scene') ∧
      loadNames scene'.tree (.ofText "b/A/..") = .ok ["A"] ∧
      ¬ ∃ loaded trail', outcome (loadMachines (.ofText "b/A/..") ["A"] none scene'.tree) ⟨.start, []⟩ =
        (.ok loaded, trail') := by
  have hwritten : writtenAndLoaded [.empty "A" .c] (.ofText "b/A/..") = some (some ["A"], false) := by
    decide +kernel
  obtain ⟨report, scene', h, hnames, hload⟩ := exists_of_writtenAndLoaded hwritten
  have hlocate : Tree.empty.locate (.ofText "b/A/..") = ["work", "b"] := by decide
  refine ⟨report, scene', portable_empty, by decide, by rw [hlocate]; exact isFree_empty (by decide), h, hnames, ?_⟩
  rintro ⟨loaded, trail', hl⟩
  have hok : (outcome (loadMachines (.ofText "b/A/..") ["A"] none scene'.tree) ⟨.start, []⟩).1.isOk = false := hload
  rw [hl] at hok
  cases hok

end Arrangement

end MachineBundle
