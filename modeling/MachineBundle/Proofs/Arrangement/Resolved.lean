import MachineBundle.Proofs.Arrangement.Written
import MachineBundle.Proofs.Bundle.Inside
import MachineBundle.Proofs.Tree.Look

/-!
# Where the bundles of an arrangement are found

Writing puts the suffix behind every name. A name is looked up without it first, and then with it unless the name ends
so already. So a name leads to its bundle exactly if it does not end so and no directory stands under the bare name.
-/

namespace MachineBundle

/-- A machine that has been read from a bundle. -/
def Machine.IsLoaded (m : Machine) : Prop :=
  ∃ text binding t trail trail', outcome (Machine.load (.ofText text) binding t) trail = (.ok m, trail')

theorem Machine.IsLoaded.noSlash {m : Machine} (h : m.IsLoaded) : '/' ∉ m.name.toList := by
  obtain ⟨text, binding, t, trail, trail', h⟩ := h
  rw [(Bundle.load_ok h).1]
  exact Path.not_mem_stem text

namespace Arrangement

open Bundle Export Filing Tree

/-! ## Looking up a name -/

section Lookup

variable {t : Tree} {directory : Path} {name : String}

theorem fileName_bundleSuffix : FileName bundleSuffix :=
  FileName.ofList _ (by decide)

theorem isName_suffixed (h : '/' ∉ name.toList) : Path.IsName (name ++ bundleSuffix) where
  isComponent := by
    refine Path.isComponent_of_plain ?_
    rw [String.toList_append]
    exact plain_of_suffix _ fileName_bundleSuffix
  noSlash := by
    rw [String.toList_append, List.mem_append, not_or]
    exact ⟨h, fileName_bundleSuffix.isName.noSlash⟩

theorem suffixed_ne_dots (name : String) : name ++ bundleSuffix ≠ ".." := by
  refine Path.ne_dots_of_plain ?_
  rw [String.toList_append]
  exact plain_of_suffix _ fileName_bundleSuffix

theorem suffixed_ne (name : String) : name ++ bundleSuffix ≠ name := by
  intro he
  have hlength := congrArg String.length he
  rw [String.length_append] at hlength
  exact absurd hlength (by simp [bundleSuffix])

theorem endsWith_suffixed (name : String) : (name ++ bundleSuffix).endsWith bundleSuffix = true := by
  rw [String.endsWith_eq_endsWith_toSlice, String.Slice.endsWith_string_iff, String.copy_toSlice, String.toList_append]
  exact List.suffix_append _ _

/-- A bare name does not lead where the same name with the suffix leads. -/
theorem join_ne_join_suffixed (h : '/' ∉ name.toList) : directory.join name ≠ directory.join (name ++ bundleSuffix) := by
  rw [Path.join_of_not_mem directory h, Path.join_name directory (isName_suffixed h)]
  intro he
  have hparts := List.append_cancel_left (congrArg Path.parts he)
  split at hparts
  · exact suffixed_ne name (List.cons.inj hparts).1.symm
  · cases hparts

/-- Where a name with the suffix leads to a directory, it can be asked whether the bare name does. -/
theorem isDirectory_bare (h : '/' ∉ name.toList)
    (hdir : t.isDirectory (directory.join (name ++ bundleSuffix)) = .ok true) :
    t.isDirectory (directory.join name) = .ok (t.directory? (directory.join name)).isSome := by
  have hsuffixed := isName_suffixed h
  obtain ⟨hnull, hlimit, hsome⟩ := isDirectory_eq_true.mp hdir
  obtain ⟨d, hd⟩ := Option.isSome_iff_exists.mp hsome
  rw [Path.hasNull_join directory hsuffixed, Bool.or_eq_false_iff] at hnull
  have hfits := reach_fits hd
  rw [Path.join_name directory hsuffixed] at hfits
  have hshorter : name.utf8ByteSize ≤ (name ++ bundleSuffix).utf8ByteSize := by
    rw [String.utf8ByteSize_append]
    exact Nat.le_add_right _ _
  cases hc : Path.isComponent name.toList with
  | true =>
    have hname : Path.IsName name := ⟨hc, h⟩
    refine isDirectory_of_fits ?_ ((directory.utf8ByteSize_text_join_le hname hsuffixed hshorter).trans_lt hlimit) ?_
    · rw [Path.hasNull_join directory hname, hnull.1, Bool.false_or, List.contains_eq_mem, decide_eq_false_iff_not]
      intro hzero
      have hmem : '\x00' ∈ (name ++ bundleSuffix).toList := by
        rw [String.toList_append]
        exact List.mem_append_left _ hzero
      rw [List.contains_eq_mem, decide_eq_false_iff_not] at hnull
      exact hnull.2 hmem
    · rw [Path.join_name directory hname]
      refine List.forall_mem_append.mpr ⟨fun part hp => hfits part (List.mem_append_left _ hp), ?_⟩
      exact List.forall_mem_singleton.mpr (hshorter.trans (hfits _ (List.mem_append_right _ List.mem_cons_self)))
  | false =>
    have hjoin : directory.join name = directory := by
      rw [Path.join_of_not_mem directory h, hc]
      simp
    rw [hjoin]
    refine isDirectory_of_fits hnull.1 ?_ fun part hp => hfits part (List.mem_append_left _ hp)
    exact Path.text_lt_of_join hsuffixed hlimit

/-- Where a name with the suffix leads to a directory, that directory is what the name resolves to, unless it has the
suffix already or leads to a directory itself. -/
theorem bundle?_eq_suffixed_iff (h : '/' ∉ name.toList)
    (hdir : t.isDirectory (directory.join (name ++ bundleSuffix)) = .ok true) :
    bundle? t directory name = .ok (some (directory.join (name ++ bundleSuffix))) ↔
      name.endsWith bundleSuffix = false ∧ t.directory? (directory.join name) = none := by
  have hne : directory.join name ≠ directory.join (name ++ bundleSuffix) := join_ne_join_suffixed h
  unfold bundle?
  dsimp only
  rw [isDirectory_bare h hdir]
  cases hbare : t.directory? (directory.join name) with
  | some d => simp [bind, Except.bind, pure, Except.pure, hne]
  | none =>
    cases hend : name.endsWith bundleSuffix with
    | true =>
      rw [bundleName, hend]
      simp only [bind, Except.bind, Option.isSome_none, Bool.false_eq_true, if_false, if_true]
      cases hh : t.holds (directory.join name) with
      | error f => simp
      | ok isThere => cases isThere <;> simp [pure, Except.pure, hne]
    | false =>
      rw [bundleName, hend]
      simp [bind, Except.bind, pure, Except.pure, holds_directory hdir]

end Lookup

/-! ## Directories under bare names -/

/-- A directory stands where a bare name leads in an arrangement, since it stands there before or the way to one of the
files passes it. -/
def Shadowed (t : Tree) (destination : Path) (files : List Export.File) (name : String) : Prop :=
  t.hasDirectory (t.locate (destination.join name)) = true ∨
    ∃ f ∈ files, OnWay (t.start destination) (destination.join f.1).parent.parts (t.locate (destination.join name))

section Written

variable {machines : List Machine} {b : Binding} {isSuspensible : Bool} {destination : Path} {t t' : Tree} {n : Nat}
  {m : Machine}

/-- The bundle that is written for a name has a language file. -/
theorem languageFile_mem_files (hm : m ∈ machines) :
    ∃ content, (bundleDirectory m ++ "/" ++ languageFile, content) ∈ files machines b isSuspensible := by
  obtain ⟨m', hm', hname⟩ : ∃ m' ∈ firstOf Machine.name [] machines, m'.name = m.name :=
    exists_firstOf hm List.not_mem_nil
  have hmem : textFile languageFile (b.name ++ "\n") ∈ Export.files m' b m'.name isSuspensible := languageFile_mem
  rw [← firstOfEachName_eq] at hm'
  refine ⟨(textFile languageFile (b.name ++ "\n")).2, List.mem_append_right _ (List.mem_flatMap.mpr ⟨m', hm', ?_⟩)⟩
  rw [bundleDirectory, ← hname]
  exact List.mem_map.mpr ⟨_, hmem, rfl⟩

variable (hslash : ∀ m ∈ machines, '/' ∉ m.name.toList)

include hslash in
/-- A file of an arrangement is beside the bundles, or in one of them. -/
theorem ofText_files_cases {f : Export.File} (hf : f ∈ files machines b isSuspensible) :
    (∃ file, Path.ofText f.1 = ⟨.none, [file]⟩) ∨
      ∃ m ∈ machines, ∃ g ∈ Export.files m b m.name isSuspensible,
        Path.ofText f.1 = ⟨.none, bundleDirectory m :: (Path.ofText g.1).parts⟩ := by
  rcases files_cases hf with hfixed | ⟨m, hm, g, hg, rfl⟩
  · exact .inl ⟨f.1, ofText_fixed hfixed⟩
  · exact .inr ⟨m, hm, g, hg, Path.ofText_below (isName_suffixed (hslash m hm)) g.1⟩

include hslash in
theorem join_written (destination : Path) {f : Export.File} (hf : f ∈ files machines b isSuspensible) :
    destination.join f.1 = ⟨destination.anchor, destination.parts ++ (Path.ofText f.1).parts⟩ := by
  rw [Path.join]
  rcases ofText_files_cases hslash hf with ⟨file, hof⟩ | ⟨m, _, g, _, hof⟩ <;> rw [hof] <;> rfl

variable (hc : outcome (batchOf destination (files machines b isSuspensible)).commit t = (.ok n, t'))

include hc hslash in
/-- The bundle of each machine is a directory of the arrangement. -/
theorem isDirectory_bundle (hm : m ∈ machines) : t'.isDirectory (destination.join (bundleDirectory m)) = .ok true := by
  have hsuffixed : Path.IsName (bundleDirectory m) := isName_suffixed (hslash m hm)
  obtain ⟨content, hmem⟩ :
      ∃ content, (bundleDirectory m ++ "/" ++ languageFile, content) ∈ files machines b isSuspensible :=
    languageFile_mem_files hm
  obtain ⟨hset, hall⟩ := Batch.commit_ok hc
  have hqueued : (⟨destination.join (bundleDirectory m ++ "/" ++ languageFile), content⟩ : Pending) ∈
      (batchOf destination (files machines b isSuspensible)).queue := List.mem_map.mpr ⟨_, hmem, rfl⟩
  obtain ⟨hnull, hslot⟩ := hall _ hqueued
  obtain ⟨l, hl⟩ := Option.isSome_iff_exists.mp hslot
  dsimp only at hnull hl
  rw [← hset.slot?] at hl
  rw [Path.join_pair destination hsuffixed fileName_languageFile.isName] at hnull hl
  rw [Path.hasNull_join _ fileName_languageFile.isName, Bool.or_eq_false_iff] at hnull
  obtain ⟨⟨_, _, _, hlimit⟩, d, hd, _⟩ := slot?_eq_some.mp hl
  rw [Path.parent_join _ fileName_languageFile.isName] at hd
  exact isDirectory_eq_true.mpr
    ⟨hnull.1, Path.text_lt_of_join fileName_languageFile.isName hlimit, Option.isSome_iff_exists.mpr ⟨d, hd⟩⟩

include hc hslash in
/-- A bare name leads to a directory of the arrangement exactly if it is shadowed. -/
theorem directory?_bare_iff (hm : m ∈ machines) :
    t'.directory? (destination.join m.name) = none ↔ ¬ Shadowed t destination (files machines b isSuspensible) m.name := by
  have hsuffixed : Path.IsName (bundleDirectory m) := isName_suffixed (hslash m hm)
  have hhome := Batch.commit_home hc
  have hdirectory : t'.hasDirectory (t.locate (destination.join m.name)) = true ↔
      Shadowed t destination (files machines b isSuspensible) m.name := by
    rw [Batch.hasDirectory_of_commit hc]
    refine or_congr Iff.rfl ⟨?_, ?_⟩
    · rintro ⟨w, hw, hway⟩
      obtain ⟨f, hf, rfl⟩ := List.mem_map.mp hw
      dsimp only at hway
      have hstart : t.start (destination.join f.1) = t.start destination := by
        rw [join_written hslash destination hf]
        rfl
      exact ⟨f, hf, hstart ▸ hway⟩
    · rintro ⟨f, hf, hway⟩
      refine ⟨_, List.mem_map.mpr ⟨f, hf, rfl⟩, ?_⟩
      have hstart : t.start (destination.join f.1) = t.start destination := by
        rw [join_written hslash destination hf]
        rfl
      rwa [← hstart] at hway
  obtain ⟨_, _, hsome⟩ := isDirectory_eq_true.mp (isDirectory_bundle hslash hc hm)
  obtain ⟨d, hd⟩ := Option.isSome_iff_exists.mp hsome
  have hfits := reach_fits hd
  rw [Path.join_name destination hsuffixed] at hd hfits
  rw [directory?_below] at hd
  obtain ⟨d₀, hd₀, _⟩ := Option.bind_eq_some_iff.mp hd
  have hsize : m.name.utf8ByteSize ≤ nameLimit := by
    have hlong := hfits (bundleDirectory m) (List.mem_append_right _ List.mem_cons_self)
    rw [bundleDirectory, String.utf8ByteSize_append] at hlong
    exact (Nat.le_add_right _ _).trans hlong
  rw [← hdirectory, ← locate_congr hhome, ← isSome_directory?_join hd₀ (hslash m hm) hsize, Option.isSome_iff_ne_none,
    not_ne_iff]

/-! ## New arrangements -/

include hslash in
/-- Where no name leads upwards, the way to a file that passes a directory of the arrangement passes that of a
bundle. -/
theorem exists_bundle_of_onWay (hdots : ".." ∉ destination.parts)
    (hbelow : ∀ m ∈ machines, ∀ s ∈ m.graph.listedStates, descends 0 (stateFolder s.name) = true) {f : Export.File}
    (hf : f ∈ files machines b isSuspensible) {name : String}
    (hway : OnWay (t.start destination) (destination.join f.1).parent.parts (t.locate destination ++ [name])) :
    ∃ m ∈ machines, name = bundleDirectory m := by
  have hlocate : t.locate destination = t.start destination ++ destination.parts := climb_of_no_dots hdots _
  -- The way to the arrangement is too short.
  have hshort : ¬ OnWay (t.start destination) destination.parts (t.locate destination ++ [name]) := by
    rintro ⟨ps, hps, he⟩
    rw [climb_of_no_dots fun hd => hdots (hps.subset hd), hlocate, List.append_assoc] at he
    have hlength := congrArg List.length (List.append_cancel_left he)
    rw [List.length_append, List.length_singleton] at hlength
    exact absurd hps.length_le (by omega)
  rw [join_written hslash destination hf, Path.parent] at hway
  dsimp only at hway
  rcases ofText_files_cases hslash hf with ⟨file, hof⟩ | ⟨m, hm, g, hg, hof⟩
  · rw [hof, List.dropLast_concat] at hway
    exact absurd hway hshort
  · have hstays := staysBelow_files (hslash m hm) (hbelow m hm) g hg
    rw [hof, parts_eq_concat hstays.name_ne, ← List.cons_append, ← List.append_assoc, List.dropLast_concat] at hway
    rcases hway.of_append with hway | ⟨ps, hps, he⟩
    · exact absurd hway hshort
    · cases ps with
      | nil => simp [climb, Tree.locate] at he
      | cons part rest =>
        obtain ⟨rfl, hrest⟩ := List.cons_prefix_cons.mp hps
        have hup : bundleDirectory m ≠ ".." := suffixed_ne_dots m.name
        rw [climb, if_neg hup] at he
        obtain ⟨more, hclimb⟩ := climb_eq_append (descends_of_start hstays.descends hrest)
          (t.locate destination ++ [bundleDirectory m])
        have hsame : t.locate destination ++ [name] = t.locate destination ++ [bundleDirectory m] ++ more :=
          he.trans hclimb
        rw [List.append_assoc] at hsame
        exact ⟨m, hm, (List.cons.inj (List.append_cancel_left hsame)).1⟩

include hslash in
/-- In a new arrangement no name is shadowed that could be that of a directory beside the bundles. -/
theorem not_shadowed_of_fresh (hdots : ".." ∉ destination.parts) (hfree : t.IsFree (t.locate destination))
    (hbelow : ∀ m ∈ machines, ∀ s ∈ m.graph.listedStates, descends 0 (stateFolder s.name) = true) (hm : m ∈ machines)
    (hcomponent : Path.isComponent m.name.toList = true) (hup : m.name ≠ "..")
    (hend : m.name.endsWith bundleSuffix = false) :
    ¬ Shadowed t destination (files machines b isSuspensible) m.name := by
  have hjoin : t.locate (destination.join m.name) = t.locate destination ++ [m.name] := by
    rw [Path.join_name destination ⟨hcomponent, hslash m hm⟩]
    exact climb_concat _ _ hup
  unfold Shadowed
  rw [hjoin]
  rintro (hdir | ⟨f, hf, hway⟩)
  · rw [hasDirectory_iff, hfree] at hdir
    cases hdir
  · obtain ⟨m', _, hname⟩ := exists_bundle_of_onWay hslash hdots hbelow hf hway
    rw [hname, bundleDirectory, endsWith_suffixed] at hend
    cases hend

include hslash in
/-- A name that is no component leads to the arrangement itself. -/
theorem shadowed_of_not_component (hm : m ∈ machines) (h : Path.isComponent m.name.toList = false) :
    Shadowed t destination (files machines b isSuspensible) m.name := by
  have hlanguage : textFile languageFile (b.name ++ "\n") ∈ files machines b isSuspensible := by
    simp [files]
  have hjoin : destination.join m.name = destination := by
    rw [Path.join_of_not_mem destination (hslash m hm), h]
    simp
  rw [Shadowed, hjoin]
  refine .inr ⟨_, hlanguage, destination.parts, ?_, rfl⟩
  unfold textFile
  dsimp only
  rw [Path.parent_join destination fileName_languageFile.isName]

end Written

/-- Each name of an arrangement that has been written leads to the bundle that was written for it, exactly if it does not
end like the directory of a bundle and no directory stands under the bare name. In a new arrangement of machines whose
states have no names that lead upwards, names can differ in their ends only. -/
theorem write_resolves_iff (o : Options) (machines : List Machine) (destination : Path) (binding : Option Binding)
    (scene scene' : Scene) (report : Report) (hloaded : ∀ m ∈ machines, m.IsLoaded)
    (h : outcome (write o machines destination binding) scene = (.ok report, scene')) :
    (∀ m ∈ machines,
      scene'.tree.isDirectory (destination.join (bundleDirectory m)) = .ok true ∧
      (bundle? scene'.tree destination m.name = .ok (some (destination.join (bundleDirectory m))) ↔
        m.name.endsWith bundleSuffix = false ∧
          ¬ Shadowed scene.tree destination (files machines (bindingOf machines binding) o.isSuspensible) m.name)) ∧
    (".." ∉ destination.parts → scene.tree.IsFree (scene.tree.locate destination) →
      (∀ m ∈ machines, ∀ s ∈ m.graph.listedStates, descends 0 (stateFolder s.name) = true) →
      ∀ m ∈ machines, Path.isComponent m.name.toList = true → m.name ≠ ".." →
        (bundle? scene'.tree destination m.name = .ok (some (destination.join (bundleDirectory m))) ↔
          m.name.endsWith bundleSuffix = false)) := by
  have hslash : ∀ m ∈ machines, '/' ∉ m.name.toList := fun m hm => (hloaded m hm).noSlash
  obtain ⟨n, hc, _, _⟩ := writeFiles_ok (write_ok h)
  have hall : ∀ m ∈ machines, bundle? scene'.tree destination m.name =
      .ok (some (destination.join (bundleDirectory m))) ↔ m.name.endsWith bundleSuffix = false ∧
        ¬ Shadowed scene.tree destination (files machines (bindingOf machines binding) o.isSuspensible) m.name := by
    intro m hm
    rw [← directory?_bare_iff hslash hc hm]
    exact bundle?_eq_suffixed_iff (hslash m hm) (isDirectory_bundle hslash hc hm)
  refine ⟨fun m hm => ⟨isDirectory_bundle hslash hc hm, hall m hm⟩, fun hdots hfree hbelow m hm hcomponent hup => ?_⟩
  rw [hall m hm]
  exact ⟨And.left, fun hend => ⟨hend, not_shadowed_of_fresh hslash hdots hfree hbelow hm hcomponent hup hend⟩⟩

/-! ## Suffixes -/

/-- Two bundles without states. The stem of the second one ends like the directory of a bundle. -/
def suffixes : Tree where
  home := ["work"]
  nodes :=
    [(["work"], .directory), (["work", "A"], .directory), (["work", "A", "Language"], .file "c".toUTF8),
      (["work", "A", "States"], .file .empty), (["work", "A.machine.machine"], .directory),
      (["work", "A.machine.machine", "Language"], .file "c".toUTF8),
      (["work", "A.machine.machine", "States"], .file .empty)]
  scratch := []

theorem isFree_suffixes : suffixes.IsFree (suffixes.locate (.ofText "b")) :=
  isFree_of_nodes (by decide) (by decide)

theorem isLoaded_plain : (Machine.empty "A" .c).IsLoaded :=
  ⟨"A", none, suffixes, ⟨.start, []⟩, exists_of_result (by decide +kernel)⟩

theorem isLoaded_suffixed : (Machine.empty "A.machine" .c).IsLoaded :=
  ⟨"A.machine.machine", none, suffixes, ⟨.start, []⟩, exists_of_result (by decide +kernel)⟩

/-- What a name leads to once some machines have been written beside these bundles. -/
def foundAfter (machines : List Machine) (name : String) : Option (Option Path) :=
  match outcome (write ⟨none, true⟩ machines (.ofText "b") none) ⟨suffixes, ⟨.start, []⟩⟩ with
  | (.ok _, scene) => (bundle? scene.tree (.ofText "b") name).toOption
  | (.error _, _) => none

theorem exists_of_foundAfter {machines : List Machine} {name : String} {bundle : Option Path}
    (h : foundAfter machines name = some bundle) :
    ∃ report scene', outcome (write ⟨none, true⟩ machines (.ofText "b") none) ⟨suffixes, ⟨.start, []⟩⟩ =
        (.ok report, scene') ∧ bundle? scene'.tree (.ofText "b") name = .ok bundle := by
  unfold foundAfter at h
  generalize outcome (write ⟨none, true⟩ machines (.ofText "b") none) ⟨suffixes, ⟨.start, []⟩⟩ = r at h ⊢
  rcases r with ⟨f | report, scene⟩
  · cases h
  · dsimp only at h
    refine ⟨report, scene, rfl, ?_⟩
    cases hfound : bundle? scene.tree (.ofText "b") name with
    | error f =>
      rw [hfound] at h
      cases h
    | ok bundle' =>
      rw [hfound] at h
      cases h
      rfl

theorem plain_name_resolves :
    ∃ report scene', outcome (write ⟨none, true⟩ [.empty "A" .c] (.ofText "b") none) ⟨suffixes, ⟨.start, []⟩⟩ =
        (.ok report, scene') ∧
      bundle? scene'.tree (.ofText "b") "A" = .ok (some (.ofText "b/A.machine")) := by
  obtain ⟨report, scene', h⟩ : ∃ report scene', outcome (write ⟨none, true⟩ [.empty "A" .c] (.ofText "b") none)
      ⟨suffixes, ⟨.start, []⟩⟩ = (.ok report, scene') := exists_of_isOk (by decide +kernel)
  have hresolves := (write_resolves_iff ⟨none, true⟩ [.empty "A" .c] (.ofText "b") none ⟨suffixes, ⟨.start, []⟩⟩ scene'
    report (List.forall_mem_singleton.mpr isLoaded_plain) h).2 (by decide) isFree_suffixes
    (List.forall_mem_singleton.mpr (by decide)) (.empty "A" .c) List.mem_cons_self (by decide) (by decide)
  exact ⟨report, scene', h, hresolves.mpr (by decide)⟩

/-- A name that ends like the directory of a bundle leads nowhere, or to the bundle of another machine. -/
theorem suffixed_name_is_not_found :
    (Machine.empty "A" .c).IsLoaded ∧ (Machine.empty "A.machine" .c).IsLoaded ∧
      suffixes.IsFree (suffixes.locate (.ofText "b")) ∧
      (∃ report scene', outcome (write ⟨none, true⟩ [.empty "A.machine" .c] (.ofText "b") none)
          ⟨suffixes, ⟨.start, []⟩⟩ = (.ok report, scene') ∧
        bundle? scene'.tree (.ofText "b") "A.machine" = .ok none) ∧
      ∃ report scene', outcome (write ⟨none, true⟩ [.empty "A" .c, .empty "A.machine" .c] (.ofText "b") none)
          ⟨suffixes, ⟨.start, []⟩⟩ = (.ok report, scene') ∧
        bundle? scene'.tree (.ofText "b") "A.machine" =
          .ok (some ((Path.ofText "b").join (bundleDirectory (.empty "A" .c)))) :=
  ⟨isLoaded_plain, isLoaded_suffixed, isFree_suffixes, exists_of_foundAfter (by decide +kernel),
    exists_of_foundAfter (by decide +kernel)⟩

end Arrangement

end MachineBundle
