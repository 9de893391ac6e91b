import MachineBundle.Proofs.Arrangement.Conversion
import MachineBundle.Proofs.Atomic.Footprint
import MachineBundle.Proofs.Bundle.Code
import MachineBundle.Proofs.Bundle.Replaced

/-!
# What an arrangement writes

The files of an arrangement are those of its bundles, each in a directory of its own, and two beside these directories.
Where nothing stood before, nothing else stands there afterwards.
-/

namespace MachineBundle

/-- What lets a machine come back from an arrangement: names that fit into sources, a graph in which all is listed once,
and no carriage returns in its guards and its code. -/
structure Machine.Portable (m : Machine) : Prop where
  name : Source.FitName m.name
  stateNames : ∀ s ∈ m.graph.listedStates, Source.FitName s.name
  graph : m.graph.WellFormed
  guards : m.graph.Unbroken
  code : m.CodeUnbroken

namespace Arrangement

open Bundle

/-! ## Names of bundles -/

theorem fileName_bundleDirectory {m : Machine} (h : Source.FitName m.name) : FileName (bundleDirectory m) :=
  (FileName.ofPlain h.plain h.nonempty).append_ofList ".machine".toList (by decide)

theorem not_mem_dot {name : String} (h : Text.PlainText name) : '.' ∉ name.toList :=
  h.not_mem (by decide)

theorem bundleName_of_plain {name : String} (h : Text.PlainText name) : bundleName name = name ++ bundleSuffix := by
  have hend : name.endsWith bundleSuffix = false := by
    rw [String.endsWith_eq_endsWith_toSlice, String.Slice.endsWith_string_eq_false_iff, String.copy_toSlice]
    intro hsuffix
    exact not_mem_dot h (hsuffix.subset (by decide))
  rw [bundleName, hend]
  rfl

theorem stemOf_append_suffix {cs : List Char} (h : cs ≠ []) :
    Path.stemOf (cs ++ bundleSuffix.toList) = cs := by
  have hspan : (cs ++ bundleSuffix.toList).reverse.span (· != '.') =
      (['e', 'n', 'i', 'h', 'c', 'a', 'm'], '.' :: cs.reverse) := by
    rw [List.reverse_append, List.span_eq_takeWhile_dropWhile]
    rfl
  obtain ⟨c, r, hr⟩ := List.exists_cons_of_ne_nil (mt List.reverse_eq_nil_iff.mp h)
  unfold Path.stemOf
  rw [hspan, hr]
  dsimp only
  rw [← hr, List.reverse_reverse]

/-- A bundle in an arrangement names its machine. -/
theorem stem_bundle (destination : Path) {m : Machine} (h : Source.FitName m.name) :
    (destination.join (bundleDirectory m)).stem = m.name := by
  have hne : m.name.toList ≠ [] := mt String.toList_eq_nil_iff.mp h.nonempty
  rw [Path.stem, Path.name_join destination (fileName_bundleDirectory h).isName, bundleDirectory,
    String.toList_append, stemOf_append_suffix hne, String.ofList_toList]

theorem join_bundleDirectory_inj (destination : Path) {m m' : Machine} (h : Source.FitName m.name)
    (h' : Source.FitName m'.name)
    (he : destination.join (bundleDirectory m) = destination.join (bundleDirectory m')) : m.name = m'.name := by
  rw [← stem_bundle destination h, he, stem_bundle destination h']

/-! ## Files -/

section Files

variable {machines : List Machine} {b : Binding} {isSuspensible : Bool} {f : Export.File}

theorem fileName_manifestFile : FileName manifestFile :=
  FileName.ofList _ (by decide)

theorem fileName_bundleFiles {m : Machine} (h : m.Portable) :
    ∀ g ∈ Export.files m b m.name isSuspensible, FileName g.1 :=
  Export.fileName_files (fitPlan_of h.name h.stateNames).plain h.name.nonempty

/-- A file is beside the bundles, or in one of them. -/
theorem files_cases (h : f ∈ files machines b isSuspensible) :
    (f.1 = languageFile ∨ f.1 = manifestFile) ∨
      ∃ m ∈ machines, ∃ g ∈ Export.files m b m.name isSuspensible, f = (bundleDirectory m ++ "/" ++ g.1, g.2) := by
  unfold files at h
  rw [List.mem_append, List.mem_cons, List.mem_singleton, List.mem_flatMap] at h
  rcases h with (rfl | rfl) | ⟨m, hm, h⟩
  · exact .inl (.inl rfl)
  · exact .inl (.inr rfl)
  · rw [firstOfEachName_eq] at hm
    obtain ⟨g, hg, rfl⟩ := List.mem_map.mp h
    exact .inr ⟨m, (mem_firstOf hm).1, g, hg, rfl⟩

theorem mem_files_of_mem (hsame : ∀ m ∈ machines, ∀ m' ∈ machines, m.name = m'.name → m = m') {m : Machine}
    (hm : m ∈ machines) (hf : f ∈ Export.files m b m.name isSuspensible) :
    (bundleDirectory m ++ "/" ++ f.1, f.2) ∈ files machines b isSuspensible := by
  have hfirst : m ∈ firstOfEachName [] machines := by
    have hkept : ∃ m' ∈ firstOf Machine.name [] machines, m'.name = m.name := exists_firstOf hm List.not_mem_nil
    obtain ⟨m', hm', hname⟩ := hkept
    rw [firstOfEachName_eq, hsame m hm m' (mem_firstOf hm').1 hname.symm]
    exact hm'
  exact List.mem_append_right _ (List.mem_flatMap.mpr ⟨m, hfirst, List.mem_map.mpr ⟨f, hf, rfl⟩⟩)

theorem ofText_fixed (h : f.1 = languageFile ∨ f.1 = manifestFile) : Path.ofText f.1 = ⟨.none, [f.1]⟩ := by
  rcases h with h | h
  · rw [h, Path.ofText_name fileName_languageFile.isName]
  · rw [h, Path.ofText_name fileName_manifestFile.isName]

theorem ofText_bundleFile {m : Machine} (h : m.Portable) {g : Export.File}
    (hg : g ∈ Export.files m b m.name isSuspensible) :
    Path.ofText (bundleDirectory m ++ "/" ++ g.1) = ⟨.none, [bundleDirectory m, g.1]⟩ :=
  Path.ofText_pair (fileName_bundleDirectory h.name).isName (fileName_bundleFiles h g hg).isName

theorem parts_bundleFiles {m : Machine} (h : m.Portable) :
    (bundleFiles b isSuspensible m).map (fun f => (Path.ofText f.1).parts) =
      ((Export.files m b m.name isSuspensible).map Prod.fst).map fun n => [bundleDirectory m, n] := by
  rw [bundleFiles, List.map_map, List.map_map]
  refine List.map_congr_left fun g hg => ?_
  have hparts := ofText_bundleFile h hg
  exact congrArg Path.parts hparts

theorem parts_fixedFiles (names : List String) :
    [Export.textFile languageFile (b.name ++ "\n"), Export.textFile manifestFile (manifestOf names)].map
      (fun f => (Path.ofText f.1).parts) = [[languageFile], [manifestFile]] := by
  simp only [List.map_cons, List.map_nil, Export.textFile, Path.ofText_name fileName_languageFile.isName,
    Path.ofText_name fileName_manifestFile.isName]

variable (hms : ∀ m ∈ machines, m.Portable)

include hms in
theorem ofText_files (hf : f ∈ files machines b isSuspensible) :
    ∃ ps, ps ≠ [] ∧ ".." ∉ ps ∧ Path.ofText f.1 = ⟨.none, ps⟩ := by
  rcases files_cases hf with hfixed | ⟨m, hm, g, hg, rfl⟩
  · refine ⟨[f.1], by simp, ?_, ofText_fixed hfixed⟩
    rcases hfixed with h | h <;> rw [h] <;> decide
  · refine ⟨_, by simp, ?_, ofText_bundleFile (hms m hm) hg⟩
    simp [(fileName_bundleDirectory (hms m hm).name).ne_dots.symm, (fileName_bundleFiles (hms m hm) g hg).ne_dots.symm]

include hms in
theorem nodup_parts (hn : ∀ m ∈ machines, ((Export.files m b m.name isSuspensible).map Prod.fst).Nodup) :
    ((files machines b isSuspensible).map fun f => (Path.ofText f.1).parts).Nodup := by
  have hfirst : ∀ m ∈ firstOfEachName [] machines, m ∈ machines := by
    intro m hm
    rw [firstOfEachName_eq] at hm
    exact (mem_firstOf hm).1
  have hdiffer : (firstOfEachName [] machines).Pairwise fun m m' => m.name ≠ m'.name := by
    rw [firstOfEachName_eq, ← List.pairwise_map]
    exact nodup_firstOf Machine.name [] machines
  have hrow : ∀ m ∈ firstOfEachName [] machines, ∀ ps ∈ (bundleFiles b isSuspensible m).map
      (fun f => (Path.ofText f.1).parts), ∃ n, ps = [bundleDirectory m, n] := by
    intro m hm ps hps
    rw [parts_bundleFiles (hms m (hfirst m hm))] at hps
    obtain ⟨n, -, rfl⟩ := List.mem_map.mp hps
    exact ⟨n, rfl⟩
  unfold files
  rw [List.map_append, parts_fixedFiles, List.map_flatMap, List.nodup_append]
  refine ⟨by decide, List.nodup_flatMap.mpr ⟨fun m hm => ?_, ?_⟩, ?_⟩
  · rw [parts_bundleFiles (hms m (hfirst m hm))]
    exact (hn m (hfirst m hm)).map fun n n' he => by simpa using he
  · refine hdiffer.imp_of_mem fun hm hm' hne => List.disjoint_left.mpr fun ps hps hps' => ?_
    obtain ⟨n, rfl⟩ := hrow _ hm ps hps
    obtain ⟨n', he⟩ := hrow _ hm' _ hps'
    exact hne (bundleDirectory_inj.mp (List.cons.inj he).1)
  · intro ps hps qs hqs he
    obtain ⟨m, hm, hqs⟩ := List.mem_flatMap.mp hqs
    obtain ⟨n, rfl⟩ := hrow m hm qs hqs
    subst he
    simp at hps

end Files

end Arrangement

end MachineBundle
