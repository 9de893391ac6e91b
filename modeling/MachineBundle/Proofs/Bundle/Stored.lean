import MachineBundle.Proofs.Bundle.Files
import MachineBundle.Proofs.Graph.WellFormed
import MachineBundle.Proofs.Source.Numbers
import MachineBundle.Proofs.Text.Bounded
import MachineBundle.Proofs.Text.Records

/-!
# What a stored bundle records

The queries to a bundle come to what the machine had when it was exported: its states, and for each state the number,
the guards and the targets of its transitions.
-/

namespace MachineBundle

namespace Export

/-! ## Files of a bundle -/

section Files

variable {m : Machine} {b : Binding} {name : String} {isSuspensible : Bool}

theorem languageFile_mem : textFile Bundle.languageFile (b.name ++ "\n") ∈ files m b name isSuspensible := by
  simp [files]

theorem statesFile_mem : sourceFile Bundle.statesFile m.graph.stateNames ∈ files m b name isSuspensible := by
  simp [files]

theorem windowLayoutFile_mem {layout : ByteArray} (h : m.windowLayout = some layout) :
    (Bundle.windowLayoutFile, layout) ∈ files m b name isSuspensible := by
  simp [files, h]

theorem sectionFile_mem {s : Section} {file : String} (h : (s, file) ∈ b.sectionFiles name) :
    textFile file (m.boilerplate.get s) ∈ files m b name isSuspensible := by
  unfold files sectionFiles
  simp only [List.mem_append]
  exact Or.inl (Or.inl (Or.inr (List.mem_map.mpr ⟨(s, file), h, rfl⟩)))

theorem implementationFile_mem :
    sourceFile (b.implementationFile name) (machineImplementation (.of m b name isSuspensible)) ∈
      files m b name isSuspensible := by
  unfold files
  simp only [List.mem_append]
  exact Or.inl (Or.inr (List.mem_cons_of_mem _ List.mem_cons_self))

variable {s : Source.StatePlan}

theorem stateFile_mem (hs : s ∈ (Source.MachinePlan.of m b name isSuspensible).states) {f : File}
    (hf : f ∈ stateFiles m (.of m b name isSuspensible) s) : f ∈ files m b name isSuspensible := by
  unfold files
  simp only [List.mem_append]
  exact Or.inr (List.mem_flatMap.mpr ⟨s, hs, hf⟩)

theorem stateHeaderFile_mem (hs : s ∈ (Source.MachinePlan.of m b name isSuspensible).states) :
    sourceFile (Binding.stateHeaderFile s.name) (stateHeader (.of m b name isSuspensible) s) ∈
      files m b name isSuspensible :=
  stateFile_mem hs (by simp [stateFiles])

theorem guardFile_mem (hs : s ∈ (Source.MachinePlan.of m b name isSuspensible).states) {p : Source.TransitionPlan}
    (hp : p ∈ s.transitions) :
    textFile (Binding.guardFile s.name p.index) (p.label ++ "\n") ∈ files m b name isSuspensible := by
  refine stateFile_mem hs ?_
  unfold stateFiles
  simp only [List.mem_append]
  exact Or.inr (List.mem_map.mpr ⟨p, hp, rfl⟩)

theorem stateSectionFile_mem (hs : s ∈ (Source.MachinePlan.of m b name isSuspensible).states) {sec : Section}
    {file : String} (h : (sec, file) ∈ Binding.stateSectionFiles s.name) :
    textFile file ((m.boilerplateOf s.id).get sec) ∈ files m b name isSuspensible := by
  refine stateFile_mem hs ?_
  unfold stateFiles sectionFiles
  simp only [List.mem_append]
  exact Or.inl (Or.inr (List.mem_map.mpr ⟨(sec, file), h, rfl⟩))

end Files

/-! ## Reading files -/

section Reading

variable {t : Tree} {bundle : Path} {fs : List File}

theorem Stored.readText (h : Stored t bundle fs) {file text : String} (hf : textFile file text ∈ fs)
    (hr : '\r' ∉ text.toList) : t.readText (bundle.join file) = .ok text := by
  have hb := h.readBytes _ hf
  unfold Tree.readText
  rw [textFile] at hb
  rw [hb]
  exact Text.textOf_encode hr

theorem Stored.content? (h : Stored t bundle fs) {file text : String} (hf : textFile file text ∈ fs)
    (hr : '\r' ∉ text.toList) : Bundle.content? t bundle file = .ok (some text) := by
  unfold Bundle.content?
  rw [h.readText hf hr]

/-- Text with carriage returns can be read all the same. -/
theorem Stored.content?_unified (h : Stored t bundle fs) {file text : String} (hf : textFile file text ∈ fs) :
    Bundle.content? t bundle file = .ok (some (String.ofList (Text.unifyBreaks text.toList))) := by
  have hb := h.readBytes _ hf
  rw [textFile] at hb
  unfold Bundle.content? Tree.readText
  rw [hb]
  simp [bind, Except.bind, Tree.textOf, Text.decode_encode]

theorem Stored.utf8ByteSize_le (h : Stored t bundle fs) {f : File} (hf : f ∈ fs) (hn : FileName f.1) :
    f.1.utf8ByteSize ≤ Tree.nameLimit := by
  obtain ⟨l, hl⟩ := Option.isSome_iff_exists.mp (h.slot f hf)
  have hnf := (Tree.slot?_eq_some.mp hl).1
  have hlimit := hnf.2.2.1
  rwa [Path.name_join bundle hn.isName] at hlimit

end Reading

/-! ## The plan of a stored machine -/

section Plan

variable {m : Machine} {b : Binding} {name : String} {isSuspensible : Bool} {t : Tree} {bundle : Path}
  {s : Source.StatePlan}

theorem header_sublist (plan : Source.MachinePlan) (ss : List Source.StatePlan) :
    (ss.map fun s => Binding.stateHeaderFile s.name).Sublist ((ss.flatMap (stateFiles m plan)).map Prod.fst) := by
  induction ss with
  | nil => exact List.Sublist.refl _
  | cons s r ih =>
    obtain ⟨rest, hrest⟩ : ∃ rest, stateFiles m plan s =
        sourceFile (Binding.stateHeaderFile s.name) (stateHeader plan s) :: rest := ⟨_, rfl⟩
    rw [List.map_cons, List.flatMap_cons, List.map_append, hrest, List.map_cons, List.cons_append]
    exact (List.sublist_append_of_sublist_right ih).cons_cons _

theorem Stored.nodup_stateNames (h : Stored t bundle (files m b name isSuspensible)) :
    ((Source.MachinePlan.of m b name isSuspensible).states.map Source.StatePlan.name).Nodup := by
  have hn := h.nodup
  unfold files at hn
  rw [List.map_append, List.nodup_append] at hn
  have hh := hn.2.1.sublist (header_sublist _ _)
  have hm : ((Source.MachinePlan.of m b name isSuspensible).states.map fun s => Binding.stateHeaderFile s.name) =
      ((Source.MachinePlan.of m b name isSuspensible).states.map Source.StatePlan.name).map Binding.stateHeaderFile := by
    rw [List.map_map]
    rfl
  rw [hm] at hh
  exact hh.of_map

/-- The file system holds no more states than can be counted in a source. -/
theorem Stored.length_states_lt (h : Stored t bundle (files m b name isSuspensible))
    (hfit : Source.FitPlan (.of m b name isSuspensible)) :
    (Source.MachinePlan.of m b name isSuspensible).states.length < 10 ^ Scan.digitLimit := by
  have hle := Text.length_le_of_nodup (k := Tree.nameLimit) h.nodup_stateNames (fun n hn => ?_) fun n hn => ?_
  · rw [List.length_map] at hle
    exact hle.trans_lt (Scan.pow_lt_digitLimit (by decide))
  · obtain ⟨s, hs, rfl⟩ := List.mem_map.mp hn
    exact (hfit.states s hs).plain
  · obtain ⟨s, hs, rfl⟩ := List.mem_map.mp hn
    have hsize := h.utf8ByteSize_le (stateHeaderFile_mem hs) (Binding.fileName_stateHeaderFile (hfit.states s hs).plain)
    refine le_trans ?_ hsize
    simp only [sourceFile, textFile, Binding.stateHeaderFile, Binding.stateStem, String.utf8ByteSize_append]
    omega

theorem Stored.length_transitions_lt (h : Stored t bundle (files m b name isSuspensible))
    (hfit : Source.FitPlan (.of m b name isSuspensible))
    (hs : s ∈ (Source.MachinePlan.of m b name isSuspensible).states)
    (hi : s.transitions.map Source.TransitionPlan.index = List.range s.transitions.length) :
    s.transitions.length < 10 ^ Scan.digitLimit := by
  cases hl : s.transitions.length with
  | zero => exact Nat.pow_pos (by decide)
  | succ n =>
    have hm : n ∈ s.transitions.map Source.TransitionPlan.index := by
      rw [hi, hl]
      exact List.mem_range.mpr (Nat.lt_succ_self n)
    obtain ⟨p, hp, rfl⟩ := List.mem_map.mp hm
    have hsize := h.utf8ByteSize_le (guardFile_mem hs hp)
      (Binding.fileName_guardFile (hfit.states s hs).plain p.index)
    have hdigits := Text.length_le_utf8ByteSize (toString p.index)
    have hlen : (toString p.index).toList.length ≤ Tree.nameLimit := by
      refine hdigits.trans (le_trans ?_ hsize)
      simp only [textFile, Binding.guardFile, Text.toString_natCast, String.utf8ByteSize_append]
      omega
    have hlt := (Text.length_toString_le (k := Tree.nameLimit) (by decide)).mp hlen
    have hpow : 10 ^ Tree.nameLimit < 10 ^ Scan.digitLimit := Scan.pow_lt_digitLimit (by decide)
    omega

end Plan

end Export

end MachineBundle
