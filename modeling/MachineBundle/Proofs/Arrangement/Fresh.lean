import MachineBundle.Proofs.Arrangement.Written

/-!
# An arrangement in a new place

Where nothing stood, an arrangement leaves its own files and directories only. So each name in its manifest leads to
the bundle that was written for it, unless a directory on the way to the arrangement comes to stand in it.
-/

namespace MachineBundle

namespace Tree

variable {t : Tree} {p : Path} {d : Location} {n : String}

/-- A path to a directory by its name comes from the directory that it stands in. -/
theorem directory?_join (hn : FileName n) (h : t.directory? (p.join n) = some d) :
    ∃ d₀, t.directory? p = some d₀ ∧ d = d₀ ++ [n] ∧ n.utf8ByteSize ≤ nameLimit ∧ t.hasDirectory d = true := by
  have hd := reach_hasDirectory h
  unfold directory? at h
  rw [Path.join_name p hn.isName] at h
  dsimp only at h
  rw [reach_append] at h
  obtain ⟨d₀, hp, hreach⟩ := Option.bind_eq_some_iff.mp h
  refine ⟨d₀, hp, ?_, ?_, hd⟩
  · rw [reach_eq_climb hreach, climb, if_neg hn.ne_dots, climb]
  · simp only [reach, reach_hasDirectory hp, Bool.not_true, Bool.false_eq_true, if_false, if_neg hn.ne_dots] at hreach
    split at hreach
    · cases hreach
    · rename_i hsize
      exact Nat.not_lt.mp hsize

/-- A path that can be asked about is no directory if none is there. -/
theorem isDirectory_of_look {l : Location} (hlook : t.look p = .ok (t.node? l)) (h : t.hasDirectory l = false) :
    t.isDirectory p = .ok false := by
  unfold isDirectory
  rw [hlook]
  rcases hasDirectory_eq_false h with hn | ⟨c, hn⟩
  · rw [hn]
    rfl
  · rw [hn]
    rfl

end Tree

namespace Arrangement

open Bundle Filing Tree

variable {machines : List Machine} {b : Binding} {isSuspensible : Bool} {destination : Path} {t t' : Tree}
  {r : Except Fault Nat} {f : Export.File}

/-! ## What stands in the arrangement -/

/-- All files of the bundles are there in their directories. -/
theorem stored_bundle (h : Export.Stored t destination (files machines b isSuspensible))
    (hsame : ∀ m ∈ machines, ∀ m' ∈ machines, m.name = m'.name → m = m') {m : Machine} (hm : m ∈ machines)
    (hp : m.Portable) (hn : ((Export.files m b m.name isSuspensible).map Prod.fst).Nodup) :
    Export.Stored t (destination.join (bundleDirectory m)) (Export.files m b m.name isSuspensible) := by
  have hjoin : ∀ f ∈ Export.files m b m.name isSuspensible,
      destination.join (bundleDirectory m ++ "/" ++ f.1) = (destination.join (bundleDirectory m)).join f.1 := fun f hf =>
    Path.join_pair destination (fileName_bundleDirectory hp.name).isName (fileName_bundleFiles hp f hf).isName
  have hall : ∀ f ∈ Export.files m b m.name isSuspensible,
      hasNull ((destination.join (bundleDirectory m)).join f.1) = false ∧
        (t.slot? ((destination.join (bundleDirectory m)).join f.1)).isSome = true ∧
        t.readBytes ((destination.join (bundleDirectory m)).join f.1) = .ok f.2 := by
    intro f hf
    have hmem := mem_files_of_mem hsame hm hf
    have hnull := h.noNull _ hmem
    have hslot := h.slot _ hmem
    have hread := h.readBytes _ hmem
    rw [hjoin f hf] at hnull hslot hread
    exact ⟨hnull, hslot, hread⟩
  exact ⟨hn, fun f hf => (hall f hf).1, fun f hf => (hall f hf).2.1, fun f hf => (hall f hf).2.2⟩

variable (hms : ∀ m ∈ machines, m.Portable)
  (hc : outcome (Export.batchOf destination (files machines b isSuspensible)).commit t = (r, t'))
  (hfree : t.IsFree (t.locate destination))

include hms in
theorem no_dots (hf : f ∈ files machines b isSuspensible) : ".." ∉ (Path.ofText f.1).parts := by
  obtain ⟨ps, -, hdots, hof⟩ := ofText_files hms hf
  rwa [hof]

include hms in
theorem join_file (destination : Path) (hf : f ∈ files machines b isSuspensible) :
    destination.join f.1 = ⟨destination.anchor, destination.parts ++ (Path.ofText f.1).parts⟩ := by
  obtain ⟨ps, -, -, hof⟩ := ofText_files hms hf
  rw [Path.join, hof]
  rfl

include hms in
theorem locate_file (t : Tree) (destination : Path) (hf : f ∈ files machines b isSuspensible) :
    t.locate (destination.join f.1) = t.locate destination ++ (Path.ofText f.1).parts := by
  obtain ⟨ps, -, hdots, hof⟩ := ofText_files hms hf
  rw [Path.join, hof, locate_append t destination hdots]

include hms in
/-- Different files have different paths. -/
theorem nodup_paths (destination : Path)
    (hn : ∀ m ∈ machines, ((Export.files m b m.name isSuspensible).map Prod.fst).Nodup) :
    ((files machines b isSuspensible).map fun f => destination.join f.1).Nodup := by
  refine List.Nodup.of_map (fun p => p.parts.drop destination.parts.length) ?_
  have hparts : (files machines b isSuspensible).map
      ((fun p => p.parts.drop destination.parts.length) ∘ fun f => destination.join f.1) =
        (files machines b isSuspensible).map fun f => (Path.ofText f.1).parts :=
    List.map_congr_left fun f hf => by
      rw [Function.comp_apply, join_file hms destination hf, List.drop_left]
  rw [List.map_map, hparts]
  exact nodup_parts hms hn

include hms in
/-- A file stands where the path of a file leads. -/
theorem no_directory_at_file (hstored : Export.Stored t' destination (files machines b isSuspensible))
    (hf : f ∈ files machines b isSuspensible) :
    t'.hasDirectory (t'.locate destination ++ (Path.ofText f.1).parts) = false := by
  obtain ⟨l, hl⟩ := Option.isSome_iff_exists.mp (hstored.slot f hf)
  have hslot := slot?_not_directory hl
  rwa [slot?_eq_locate hl, locate_file hms t' destination hf] at hslot

include hms in
/-- The path of a file starts with a plain name only if it is this name: files of bundles are in directories with a
suffix. -/
theorem parts_of_plain {n : String} (hn : Text.PlainText n) (hf : f ∈ files machines b isSuspensible)
    (hstart : [n] <+: (Path.ofText f.1).parts) : (Path.ofText f.1).parts = [n] := by
  rcases files_cases hf with hfixed | ⟨m, hm, g, hg, rfl⟩
  · rw [ofText_fixed hfixed] at hstart ⊢
    rw [(List.cons_prefix_cons.mp hstart).1]
  · have hparts := ofText_bundleFile (hms m hm) hg
    rw [hparts] at hstart
    have hname : n = m.name ++ bundleSuffix := (List.cons_prefix_cons.mp hstart).1
    refine absurd ?_ (not_mem_dot hn)
    rw [hname, String.toList_append]
    exact List.mem_append_right _ (by decide)

include hms hc hfree in
/-- No directory comes to have the name of a machine, unless there is one on the way to the arrangement. -/
theorem no_bare_directory
    (hstored : Export.Stored t' destination (files machines b isSuspensible)) {m : Machine} (hm : m ∈ machines)
    (hway : ¬ OnWay (t.start destination) destination.parts (t.locate destination ++ [m.name])) :
    t'.hasDirectory (t'.locate destination ++ [m.name]) = false := by
  have hhome := Batch.commit_home hc
  rw [locate_congr hhome]
  by_contra hdir
  rw [Bool.not_eq_false] at hdir
  have hnode := hasDirectory_iff.mp hdir
  have hchanged : t'.node? (t.locate destination ++ [m.name]) ≠ t.node? (t.locate destination ++ [m.name]) := by
    rw [hnode, hfree [m.name]]
    simp
  have hfile : ∀ f ∈ files machines b isSuspensible, (Path.ofText f.1).parts ≠ [m.name] := by
    intro f hf he
    have hno := no_directory_at_file hms hstored hf
    rw [locate_congr hhome, he, hdir] at hno
    cases hno
  rcases (Batch.commit_footprint hc).2 _ hchanged with ⟨w, hw, hl⟩ | ⟨-, -, w, hw, hl⟩
  · obtain ⟨f, hf, rfl⟩ := List.mem_map.mp hw
    dsimp only at hl
    rw [locate_file hms t destination hf] at hl
    exact hfile f hf (List.append_cancel_left hl).symm
  · obtain ⟨f, hf, rfl⟩ := List.mem_map.mp hw
    rw [join_file hms destination hf] at hl
    rcases OnWay.of_append hl with hin | ⟨qs, hqs, he⟩
    · exact hway hin
    -- The directory is one that a file of the arrangement stands in.
    have hclimb : climb (t.locate destination) qs = t.locate destination ++ qs :=
      climb_of_no_dots (fun hd => no_dots hms hf (hqs.subset hd)) _
    obtain rfl := List.append_cancel_left (he.trans hclimb)
    exact hfile f hf (parts_of_plain hms (hms m hm).name.plain hf hqs)

include hms hc hfree in
/-- A machine without a window layout gets none. -/
theorem no_window_layout (hsame : ∀ m ∈ machines, ∀ m' ∈ machines, m.name = m'.name → m = m') {m : Machine}
    (hm : m ∈ machines) (hnone : m.windowLayout = none) :
    t'.file? (t.locate destination ++ [bundleDirectory m, windowLayoutFile]) = none := by
  rw [Batch.file?_of_commit hc, hfree.file?]
  intro w hw hl
  obtain ⟨f, hf, rfl⟩ := List.mem_map.mp hw
  dsimp only at hl
  rw [locate_file hms t destination hf] at hl
  have hparts := List.append_cancel_left hl
  rcases files_cases hf with hfixed | ⟨m', hm', g, hg, rfl⟩
  · rw [ofText_fixed hfixed] at hparts
    simp at hparts
  · have hof := ofText_bundleFile (hms m' hm') hg
    rw [hof] at hparts
    obtain ⟨hdir, hrest⟩ := List.cons.inj hparts
    have hmm := hsame m' hm' m hm (bundleDirectory_inj.mp hdir)
    subst hmm
    exact Export.windowLayoutFile_ne hnone hg (List.cons.inj hrest).1

/-! ## Names that lead to bundles -/

/-- A name leads to the bundle that was written for it. -/
theorem bundle?_written {directory : Path} {m : Machine} {d : Location} (hname : Source.FitName m.name)
    (hnull : hasNull directory = false) (hd : t.directory? (directory.join (bundleDirectory m)) = some d)
    (hlimit : (directory.join (bundleDirectory m)).text.utf8ByteSize < pathLimit)
    (hbare : t.hasDirectory (t.locate directory ++ [m.name]) = false) :
    bundle? t directory m.name = .ok (some (directory.join (bundleDirectory m))) := by
  have hdirectory := fileName_bundleDirectory hname
  have hplain : FileName m.name := .ofPlain hname.plain hname.nonempty
  obtain ⟨d₀, hd₀, rfl, hsize, hthere⟩ := directory?_join hdirectory hd
  have hshorter : m.name.utf8ByteSize ≤ (bundleDirectory m).utf8ByteSize := by
    rw [bundleDirectory, String.utf8ByteSize_append]
    exact Nat.le_add_right _ _
  have hlookBare := (look_name hd₀ hnull hplain (hshorter.trans hsize)
    ((directory.utf8ByteSize_text_join_le hplain.isName hdirectory.isName hshorter).trans_lt hlimit)).2
  have hlook := (look_name hd₀ hnull hdirectory hsize hlimit).2
  rw [← directory?_eq_locate hd₀] at hbare
  have hisDirectory : t.isDirectory (directory.join m.name) = .ok false := isDirectory_of_look hlookBare hbare
  have hholds : t.holds (directory.join (bundleDirectory m)) = .ok true := by
    unfold holds
    rw [hlook, hasDirectory_iff.mp hthere]
    rfl
  unfold bundle?
  dsimp only
  rw [hisDirectory, bundleName_of_plain hname.plain]
  simp only [bind, Except.bind, Bool.false_eq_true, if_false]
  rw [← bundleDirectory, hholds]
  rfl

end Arrangement

end MachineBundle
