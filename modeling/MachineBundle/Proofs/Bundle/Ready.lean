import MachineBundle.Proofs.Atomic.Ready
import MachineBundle.Proofs.Bundle.Files

/-!
# What lets an export succeed

A machine can be exported into a directory that is there if no directory has the name of a file of the bundle and
all paths fit into the limits.
-/

namespace MachineBundle

namespace Export

open Tree

variable {destination : Path} {fs : List File}

/-! ## Files -/

/-- Files that are not named from the root are reported by the texts of their paths. -/
theorem pending_of_anchor (h : ∀ f ∈ fs, (Path.ofText f.1).anchor = .none) :
    (batchOf destination fs).pending = .ok (fs.map fun f => (⟨.none, (Path.ofText f.1).parts⟩ : Path).text) := by
  have hname : ∀ f ∈ fs, Batch.nameOf destination ⟨destination.join f.1, f.2⟩ =
      .ok (⟨.none, (Path.ofText f.1).parts⟩ : Path).text := by
    intro f hf
    have hbelow : (destination.join f.1).relativeTo? destination = some ⟨.none, (Path.ofText f.1).parts⟩ := by
      rw [Path.join, ← Path.relativeTo?_append destination (Path.ofText f.1).parts, ← h f hf]
    unfold Batch.nameOf
    rw [hbelow]
  unfold Batch.pending batchOf
  dsimp only
  clear h
  induction fs with
  | nil => rfl
  | cons f r ih =>
    rw [List.map_cons, List.mapM_cons, hname f List.mem_cons_self, ih fun g hg => hname g (List.mem_cons_of_mem f hg)]
    rfl

/-- The files are reported by the names that they have inside the bundle. -/
theorem pending_batchOf (h : ∀ f ∈ fs, FileName f.1) : (batchOf destination fs).pending = .ok (fs.map Prod.fst) := by
  have hpath : ∀ f ∈ fs, Path.ofText f.1 = ⟨.none, [f.1]⟩ := fun f hf => Path.ofText_name (h f hf).isName
  rw [pending_of_anchor fun f hf => by rw [hpath f hf]]
  refine congrArg Except.ok (List.map_congr_left fun f hf => ?_)
  rw [hpath f hf]
  simp [Path.text, Path.bareText, Anchor.text]

theorem writeFiles_of_ready {scene : Scene} (h : ∀ f ∈ fs, FileName f.1)
    (hr : ∀ w ∈ (batchOf destination fs).queue, Batch.Ready scene.tree w) :
    ∃ tree, outcome (writeFiles destination fs) scene = (.ok (fs.map Prod.fst), { scene with tree }) ∧
      Batch.Settled scene.tree (batchOf destination fs).queue tree := by
  obtain ⟨tree, hc, hset⟩ := Batch.commit_of_ready hr
  have hq : outcome (Action.query fun _ => (batchOf destination fs).pending) scene =
      (.ok (fs.map Prod.fst), scene) := by
    rw [outcome_query, pending_batchOf h]
  have hf : outcome (Action.file (batchOf destination fs).commit) scene =
      (.ok (batchOf destination fs).queue.length, { scene with tree }) := by
    rw [outcome_file, hc]
  refine ⟨tree, ?_, hset⟩
  unfold writeFiles
  rw [foldl_start, outcome_bind_ok hq, outcome_bind_ok hf, outcome_pure]

/-- An export succeeds if its files are ready to be written. -/
theorem machine_of_ready {o : Options} {m : Machine} {b : Binding} {scene : Scene} (ho : o.templates = none)
    (h : ∀ f ∈ files m b destination.stem o.isSuspensible, FileName f.1)
    (hr : ∀ w ∈ (batchOf destination (files m b destination.stem o.isSuspensible)).queue, Batch.Ready scene.tree w) :
    ∃ scene', outcome (machine o m destination b) scene =
        (.ok ⟨destination, b, (files m b destination.stem o.isSuspensible).map Prod.fst⟩, scene') ∧
      Batch.Settled scene.tree (batchOf destination (files m b destination.stem o.isSuspensible)).queue scene'.tree := by
  obtain ⟨tree, hw, hset⟩ := writeFiles_of_ready h hr
  have ht : outcome (Action.query fun _ => checkTemplates o.templates b) scene = (.ok (), scene) := by
    rw [outcome_query, ho]
    rfl
  have hm : outcome (machine o m destination b) scene = outcome (do
      Action.notify (exportedNotice m.name b.name destination.text
        ((files m b destination.stem o.isSuspensible).map Prod.fst).length)
      return ⟨destination, b, (files m b destination.stem o.isSuspensible).map Prod.fst⟩) { scene with tree } := by
    unfold machine
    rw [outcome_bind_ok ht, outcome_bind_ok hw]
  exact ⟨_, hm, hset⟩

/-! ## Directories that are there -/

/-- A file can be written into a directory that is there if there is room for its name. -/
theorem ready_join {t : Tree} {d : Location} (hd : t.directory? destination = some d)
    (hnull : hasNull destination = false) (hlimit : destination.text.utf8ByteSize < pathLimit) {n : String}
    (hn : FileName n) (hscratch : (Scratch.nameFor n).utf8ByteSize ≤ nameLimit)
    (htext : (Scratch.textFor t.home d n).utf8ByteSize < pathLimit)
    (hfit : (destination.join n).text.utf8ByteSize < pathLimit) (hfree : t.hasDirectory (d ++ [n]) = false)
    (c : ByteArray) : Batch.Ready t ⟨destination.join n, c⟩ := by
  have hname := Path.name_join destination hn.isName
  have hparent := Path.parent_join destination hn.isName
  have hsize : n.utf8ByteSize ≤ nameLimit := by
    unfold Scratch.nameFor at hscratch
    simp only [String.utf8ByteSize_append] at hscratch
    omega
  have hnf : namesFile (destination.join n) := hn.namesFile_join hsize hfit
  refine ⟨?_, ?_, ?_, ?_, ?_⟩
  · dsimp only
    rw [Path.hasNull_join destination hn.isName, hnull, hn.noNull]
    rfl
  · dsimp only
    rw [hparent]
    exact isDirectory_eq_true.mpr ⟨hnull, hlimit, by rw [hd]; rfl⟩
  · dsimp only
    rwa [hname]
  · intro d' hd'
    dsimp only at hd' ⊢
    rw [hparent, hd] at hd'
    cases hd'
    rwa [hname]
  · dsimp only
    have hslot : t.slot? (destination.join n) = some (d ++ [n]) :=
      slot?_eq_some.mpr ⟨hnf, d, by rwa [hparent], by rwa [hname], by rw [hname]⟩
    rw [hslot]
    rfl

end Export

end MachineBundle
