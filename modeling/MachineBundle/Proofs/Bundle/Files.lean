import MachineBundle.Bundle.Export
import MachineBundle.Proofs.Atomic.Written
import MachineBundle.Proofs.Source.Tame
import MachineBundle.Proofs.Tree.Names

/-!
# The files of a bundle

The files of a bundle have plain names. After an export each of them is there with its content, unless two of them
have the same name.
-/

namespace MachineBundle

/-! ## Names -/

theorem FileName.namesFile_join {p : Path} {n : String} (h : FileName n) (hsize : n.utf8ByteSize ≤ Tree.nameLimit)
    (hlimit : (p.join n).text.utf8ByteSize < Tree.pathLimit) : Tree.namesFile (p.join n) := by
  have hname := p.name_join h.isName
  refine ⟨?_, ?_, ?_, hlimit⟩
  · rw [hname]
    exact h.ne_empty
  · rw [hname]
    exact h.ne_dots
  · rwa [hname]

namespace Binding

theorem fileName_stateStem {s : String} (hs : Text.PlainText s) : FileName (stateStem s) :=
  (FileName.ofList _ (by decide)).append_plain hs

theorem fileName_stateHeaderFile {s : String} (hs : Text.PlainText s) : FileName (stateHeaderFile s) :=
  (fileName_stateStem hs).append_ofList _ (by decide)

theorem implementationSuffix_chars (b : Binding) :
    ∀ c ∈ b.implementationSuffix.toList, Text.isPlain c = true ∨ c = '.' := by
  cases b <;> decide

theorem fileName_stateImplementationFile (b : Binding) {s : String} (hs : Text.PlainText s) :
    FileName (b.stateImplementationFile s) :=
  (fileName_stateStem hs).append b.implementationSuffix_chars

theorem fileName_guardFile {s : String} (hs : Text.PlainText s) (i : Nat) : FileName (guardFile s i) :=
  (((fileName_stateStem hs).append_ofList _ (by decide)).append_plain (.ofNat i)).append_ofList _ (by decide)

theorem fileName_stateSectionFiles {s : String} (hs : Text.PlainText s) :
    ∀ f ∈ stateSectionFiles s, FileName f.2 := by
  have hstem := fileName_stateStem hs
  unfold stateSectionFiles
  simp only [List.forall_mem_cons, List.not_mem_nil, false_implies, implies_true, and_true]
  and_intros
  all_goals exact hstem.append_ofList _ (by decide)

theorem fileName_stem (b : Binding) {name : String} (hn : Text.PlainText name) (hne : name ≠ "") :
    FileName (b.stem name) := by
  cases b with
  | c => exact (FileName.ofList _ (by decide)).append_plain hn
  | objectiveCpp => exact FileName.ofPlain hn hne

theorem fileName_sectionFiles (b : Binding) {name : String} (hn : Text.PlainText name) (hne : name ≠ "") :
    ∀ f ∈ b.sectionFiles name, FileName f.2 := by
  have hstem := b.fileName_stem hn hne
  unfold sectionFiles
  simp only [List.forall_mem_cons, List.not_mem_nil, false_implies, implies_true, and_true]
  refine ⟨FileName.ofList _ (by decide), ?_, ?_, ?_⟩
  all_goals exact hstem.append_ofList _ (by decide)

theorem fileName_headerFile (b : Binding) {name : String} (hn : Text.PlainText name) (hne : name ≠ "") :
    FileName (b.headerFile name) :=
  (b.fileName_stem hn hne).append_ofList _ (by decide)

theorem fileName_implementationFile (b : Binding) {name : String} (hn : Text.PlainText name) (hne : name ≠ "") :
    FileName (b.implementationFile name) :=
  (b.fileName_stem hn hne).append b.implementationSuffix_chars

end Binding

theorem Bundle.fileName_languageFile : FileName languageFile :=
  FileName.ofList _ (by decide)

theorem Bundle.fileName_statesFile : FileName statesFile :=
  FileName.ofList _ (by decide)

theorem Bundle.fileName_windowLayoutFile : FileName windowLayoutFile :=
  FileName.ofList _ (by decide)

namespace Export

theorem fileName_stateFiles (m : Machine) (plan : Source.MachinePlan) {s : Source.StatePlan}
    (hs : Text.PlainText s.name) : ∀ f ∈ stateFiles m plan s, FileName f.1 := by
  unfold stateFiles sectionFiles
  simp only [List.forall_mem_append, List.forall_mem_cons, List.forall_mem_map, List.not_mem_nil, false_implies,
    implies_true, and_true]
  exact ⟨⟨⟨Binding.fileName_stateHeaderFile hs, plan.binding.fileName_stateImplementationFile hs⟩,
    Binding.fileName_stateSectionFiles hs⟩, fun t _ => Binding.fileName_guardFile hs t.index⟩

theorem fileName_files {m : Machine} {b : Binding} {name : String} {isSuspensible : Bool}
    (h : Source.PlainPlan (.of m b name isSuspensible)) (hne : name ≠ "") :
    ∀ f ∈ files m b name isSuspensible, FileName f.1 := by
  have hn : Text.PlainText name := h.name
  unfold files sectionFiles
  simp only [List.forall_mem_append, List.forall_mem_cons, List.forall_mem_map, List.not_mem_nil, false_implies,
    implies_true, and_true]
  refine ⟨⟨⟨⟨⟨Bundle.fileName_languageFile, Bundle.fileName_statesFile⟩, ?_⟩, b.fileName_sectionFiles hn hne⟩,
    b.fileName_headerFile hn hne, b.fileName_implementationFile hn hne⟩, ?_⟩
  · intro f hf
    obtain ⟨layout, _, rfl⟩ := Option.map_eq_some_iff.mp (Option.mem_toList.mp hf)
    exact Bundle.fileName_windowLayoutFile
  · intro f hf
    obtain ⟨s, hs, hf⟩ := List.mem_flatMap.mp hf
    exact fileName_stateFiles m _ (h.states s hs) f hf

/-! ## Writing -/

/-- The batch that writes some files. -/
def batchOf (destination : Path) (files : List File) : Batch :=
  ⟨destination, files.map fun f => ⟨destination.join f.1, f.2⟩⟩

theorem foldl_addBytes (files : List File) (b : Batch) :
    files.foldl (fun b (name, content) => b.addBytes name content) b =
      ⟨b.base, b.queue ++ files.map fun f => ⟨b.base.join f.1, f.2⟩⟩ := by
  induction files generalizing b with
  | nil => simp
  | cons f r ih =>
    rw [List.foldl_cons, ih]
    simp [Batch.addBytes]

theorem foldl_start (destination : Path) (files : List File) :
    files.foldl (fun b (name, content) => b.addBytes name content) (Batch.start destination) =
      batchOf destination files := by
  rw [foldl_addBytes]
  rfl

theorem writeFiles_ok {destination : Path} {files : List File} {scene scene' : Scene} {names : List String}
    (h : outcome (writeFiles destination files) scene = (.ok names, scene')) :
    ∃ n, outcome (batchOf destination files).commit scene.tree = (.ok n, scene'.tree) ∧
      (batchOf destination files).pending = .ok names ∧ scene'.trail = scene.trail := by
  unfold writeFiles at h
  rw [foldl_start] at h
  obtain ⟨names', scene₁, hq, h₁⟩ := outcome_bind_eq_ok h
  obtain ⟨n, scene₂, hc, h₂⟩ := outcome_bind_eq_ok h₁
  obtain ⟨hpending, rfl⟩ := outcome_query_eq_ok hq
  rw [outcome_pure, Prod.mk.injEq, Except.ok.injEq] at h₂
  obtain ⟨rfl, rfl⟩ := h₂
  rw [outcome_file, Prod.mk.injEq] at hc
  obtain ⟨hc, rfl⟩ := hc
  exact ⟨n, Prod.ext hc rfl, hpending, rfl⟩

/-- The names that are returned tell the files apart by their paths. -/
theorem nodup_targets {b : Batch} {names : List String} (h : b.pending = .ok names) (hn : names.Nodup) :
    (b.queue.map Pending.target).Nodup := by
  have hnames : ∀ (queue : List Pending) (names : List String), queue.mapM (Batch.nameOf b.base) = .ok names →
      names = (queue.map Pending.target).map fun p => ((p.relativeTo? b.base).map Path.text).getD "" := by
    intro queue
    induction queue with
    | nil =>
      intro names h
      cases h
      rfl
    | cons w rest ih =>
      intro names h
      rw [List.mapM_cons] at h
      unfold Batch.nameOf at h
      cases hr : w.target.relativeTo? b.base with
      | none => simp [hr, bind, Except.bind] at h
      | some p =>
        simp only [hr, bind, Except.bind] at h
        split at h
        · cases h
        · rename_i names' hm
          cases h
          rw [ih names' hm, List.map_cons, List.map_cons, hr]
          rfl
  rw [hnames b.queue names h] at hn
  exact hn.of_map

/-- Files of different names that a bundle has in a tree. -/
structure Stored (t : Tree) (bundle : Path) (files : List File) : Prop where
  nodup : (files.map Prod.fst).Nodup
  noNull : ∀ f ∈ files, Tree.hasNull (bundle.join f.1) = false
  slot : ∀ f ∈ files, (t.slot? (bundle.join f.1)).isSome = true
  readBytes : ∀ f ∈ files, t.readBytes (bundle.join f.1) = .ok f.2

/-- Files whose paths differ are there once they are written. -/
theorem writeFiles_stored_of_nodup {destination : Path} {files : List File} {scene scene' : Scene} {names : List String}
    (h : outcome (writeFiles destination files) scene = (.ok names, scene'))
    (hn : (files.map fun f => destination.join f.1).Nodup)
    (hf : ∀ f ∈ files, ∃ ps, ps ≠ [] ∧ ".." ∉ ps ∧ Path.ofText f.1 = ⟨.none, ps⟩) :
    Stored scene'.tree destination files := by
  obtain ⟨n, hc, _, _⟩ := writeFiles_ok h
  have hs : (batchOf destination files).Spread := by
    refine ⟨fun w hw => ?_, ?_⟩
    · obtain ⟨f, hm, rfl⟩ := List.mem_map.mp hw
      obtain ⟨ps, hne, hd, he⟩ := hf f hm
      exact ⟨ps, hne, hd, by rw [Path.join, he]; rfl⟩
    · rw [batchOf, List.map_map]
      exact hn
  have hall : ∀ f ∈ files, _ := fun f hm =>
    Batch.readBytes_of_commit hs hc ⟨destination.join f.1, f.2⟩ (List.mem_map.mpr ⟨f, hm, rfl⟩)
  refine ⟨?_, fun f hm => (hall f hm).1, fun f hm => (hall f hm).2.1, fun f hm => (hall f hm).2.2⟩
  have hnames : ((files.map Prod.fst).map destination.join).Nodup := by
    rw [List.map_map]
    exact hn
  exact hnames.of_map

theorem writeFiles_stored {destination : Path} {files : List File} {scene scene' : Scene} {names : List String}
    (h : outcome (writeFiles destination files) scene = (.ok names, scene')) (hn : names.Nodup)
    (hf : ∀ f ∈ files, ∃ ps, ps ≠ [] ∧ ".." ∉ ps ∧ Path.ofText f.1 = ⟨.none, ps⟩) :
    Stored scene'.tree destination files := by
  obtain ⟨n, _, hp, _⟩ := writeFiles_ok h
  have htargets := nodup_targets hp hn
  rw [batchOf, List.map_map] at htargets
  exact writeFiles_stored_of_nodup h htargets hf

theorem machine_ok {o : Options} {m : Machine} {destination : Path} {b : Binding} {scene scene' : Scene}
    {report : Report} (h : outcome (machine o m destination b) scene = (.ok report, scene')) :
    ∃ scene₁, outcome (writeFiles destination (files m b destination.stem o.isSuspensible)) scene =
      (.ok report.files, scene₁) ∧ scene'.tree = scene₁.tree := by
  unfold machine at h
  obtain ⟨_, scene₀, hq, h₁⟩ := outcome_bind_eq_ok h
  obtain ⟨_, rfl⟩ := outcome_query_eq_ok hq
  obtain ⟨written, scene₁, hw, h₂⟩ := outcome_bind_eq_ok h₁
  obtain ⟨_, scene₂, hnotify, h₃⟩ := outcome_bind_eq_ok h₂
  rw [outcome_notify, Prod.mk.injEq] at hnotify
  obtain ⟨_, rfl⟩ := hnotify
  rw [outcome_pure, Prod.mk.injEq, Except.ok.injEq] at h₃
  obtain ⟨rfl, rfl⟩ := h₃
  exact ⟨scene₁, hw, rfl⟩

/-- After an export all files of the bundle are there. -/
theorem machine_stored {o : Options} {m : Machine} {destination : Path} {b : Binding} {scene scene' : Scene}
    {report : Report} (h : outcome (machine o m destination b) scene = (.ok report, scene'))
    (hn : report.files.Nodup) (hplan : Source.PlainPlan (.of m b destination.stem o.isSuspensible))
    (hne : destination.stem ≠ "") :
    Stored scene'.tree destination (files m b destination.stem o.isSuspensible) := by
  obtain ⟨scene₁, hw, ht⟩ := machine_ok h
  rw [ht]
  refine writeFiles_stored hw hn fun f hf => ?_
  have hname := fileName_files hplan hne f hf
  exact ⟨[f.1], by simp, by simpa using hname.ne_dots.symm, Path.ofText_name hname.isName⟩

end Export

end MachineBundle
