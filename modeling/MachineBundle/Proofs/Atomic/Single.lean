import MachineBundle.Atomic.Single
import MachineBundle.Proofs.Atomic.Refused
import MachineBundle.Proofs.Tree.Locate

/-!
# Single files that are written or not

A single file is written like one file of a commit, but for the calls that come first: without a scratch file nothing is
undone, since nothing has been done. Whichever call fails, no file is changed and no scratch file is left; and if none
fails, only the file at the path is changed.
-/

namespace MachineBundle

open Tree Filing

namespace Atomic

/-- Once a scratch file is there, what fails is reported as the failure of the write. -/
theorem complete_failsOnly (path : Path) (d : Draft) (s : Scratch) :
    FailsOnly Fault.isWriteFailure (tryCatch (Action.file (complete path d s)) fun f => do
      Action.notify (failureNotice path f)
      throw (.writeFailed path.text f)) := by
  have hany : FailsOnly (fun _ => true) (Action.file (complete path d s)) := fun _ _ _ _ => rfl
  exact hany.tryCatch fun f _ => (FailsOnly.notify _).bind fun _ _ _ _ => .throw rfl

/-- The bytes of a text that is written in UTF-8. -/
theorem content_ofText (text : String) (s : Scratch) : (Draft.ofText text .utf8).content s = .ok text.toUTF8 := by
  have haccess : Access.ofLetters "w" = .ok ⟨.overwrite, false, false⟩ := rfl
  have hwritten : written s ⟨.overwrite, false, false⟩ .utf8 [.text text] = .ok (ByteArray.empty ++ text.toUTF8) := rfl
  rw [ByteArray.empty_append] at hwritten
  unfold Draft.content Draft.ofText
  rw [haccess]
  simp only [Except.mapError, bind, Except.bind]
  rw [hwritten]
  rfl

/-- What a write leaves: the content at the path, and nothing else but perhaps new directories. -/
structure Written (t : Tree) (path : Path) (content : ByteArray) (t' : Tree) : Prop where
  home : t'.home = t.home
  scratch : t'.scratch.Perm t.scratch
  file? : ∀ l, t'.file? l = if t.locate path = l then some content else t.file? l
  readBytes : t'.readBytes path = .ok content

/-- A file that is settled where directories may have been made has been written. -/
theorem Written.of_settle {path : Path} {t t₁ : Tree} {l : Location} {content : ByteArray} {scratch : List Scratch} (hgrows : Grows t t₁)
    (hl : t₁.slot? path = some l) (hnull : hasNull path = false) (hscratch : scratch.Perm t.scratch) :
    Written t path content (t₁.settle l content scratch) := by
  have hroot := slot?_ne_root hl
  have hlocate : t.locate path = l := by rw [← locate_congr hgrows.home, slot?_eq_locate hl]
  have hfile : ∀ m, (t₁.settle l content scratch).file? m = if t.locate path = m then some content else t.file? m := by
    intro m
    rw [file?_settle hroot, hgrows.file?_eq, hlocate]
  refine ⟨hgrows.home, hscratch, hfile, readBytes_of_slot (l := l) ?_ ?_ hnull⟩
  · rw [slot?_settle hroot (slot?_not_directory hl), hl]
  · rw [hfile l, if_pos hlocate]

end Atomic

namespace Hindrance

/-- A file is filled and put in its place on a disk that refuses some calls. -/
def complete (h : Hindrance) (path : Path) (d : Atomic.Draft) (s : Scratch) : Filing Unit := do
  let content ← orUndo (discard s) (Atomic.complete.liftExcept (d.content s))
  match h.write (← get) s with
  | some (written, f) =>
    discard (← fill s written)
    throw f
  | .none =>
    let filled ← fill s content
    orUndo (discard filled) (h.publish filled path)

/-- A file is written on a disk that refuses some calls. -/
def writeFile (h : Hindrance) (path : Path) (d : Atomic.Draft) : Action Unit := do
  let s ← Action.file (h.createScratch path)
  tryCatch (Action.file (h.complete path d s)) fun f => do
    Action.notify (Atomic.failureNotice path f)
    throw (.writeFailed path.text f)

/-- Where nothing is refused, a file is written as it is by the tree alone. -/
theorem writeFile_none (path : Path) (d : Atomic.Draft) : none.writeFile path d = Atomic.write path d := rfl

/-! ## Filling and putting in place -/

variable {h : Hindrance} {path : Path} {d : Atomic.Draft} {s : Scratch} {t t' : Tree}

theorem perm_erase_created (l : List Scratch) (s : Scratch) : ((l ++ [s]).erase s).Perm l := by
  have hcreated : (l ++ [s]).Perm (s :: l) := List.perm_append_comm
  have herase := hcreated.erase s
  rwa [List.erase_cons_head] at herase

/-- Without content nothing is filled, and the scratch file is taken away. -/
theorem outcome_content (r : Except Fault ByteArray) (t : Tree) :
    outcome (orUndo (discard s) (Atomic.complete.liftExcept r)) t =
      match r with
      | .ok content => (.ok content, t)
      | .error f => (.error f, { t with scratch := t.scratch.erase s }) := by
  cases r <;> rfl

/-- A file that is completed is settled, and its scratch file is taken away. -/
theorem complete_eq_ok (ho : outcome (h.complete path d s) t = (.ok (), t')) :
    ∃ content l scratch, d.content s = .ok content ∧ t.slot? path = some l ∧ scratch.Perm (t.scratch.erase s) ∧
      t' = t.settle l content scratch := by
  unfold complete at ho
  rw [outcome_bind, outcome_content] at ho
  cases hcontent : d.content s with
  | error f => simp [hcontent] at ho
  | ok content =>
    simp only [hcontent, outcome_bind, outcome_get] at ho
    rcases hw : h.write t s with _ | ⟨written, f⟩
    · simp only [hw, outcome_bind, outcome_fill] at ho
      unfold orUndo at ho
      rw [outcome_tryCatch] at ho
      rcases hp : outcome (h.publish { s with content } path)
        { t with scratch := t.scratch.erase s ++ [{ s with content }] } with ⟨f | u, t₁⟩
      · simp [hp, outcome_bind, outcome_discard] at ho
      · rw [hp] at ho
        cases ho
        have hpublish := publish_eq_ok hp
        cases hl : t.slot? path with
        | none =>
          rw [← slot?_scratch t (t.scratch.erase s ++ [{ s with content }])] at hl
          obtain ⟨f, hf⟩ := outcome_publish_none hl { s with content }
          rw [hf] at hpublish
          cases hpublish
        | some l =>
          have hl' := hl
          rw [← slot?_scratch t (t.scratch.erase s ++ [{ s with content }])] at hl'
          rw [outcome_publish hl'] at hpublish
          cases hpublish
          exact ⟨content, l, _, rfl, rfl, perm_erase_created _ _, rfl⟩
    · simp [hw, outcome_bind, outcome_fill, outcome_discard] at ho

/-- A file that is not completed leaves everything as it was without its scratch file. -/
theorem complete_eq_error {f : Fault} (ho : outcome (h.complete path d s) t = (.error f, t')) :
    ∃ scratch, scratch.Perm (t.scratch.erase s) ∧ t' = { t with scratch } := by
  unfold complete at ho
  rw [outcome_bind, outcome_content] at ho
  cases hcontent : d.content s with
  | error g =>
    simp only [hcontent, Prod.mk.injEq] at ho
    exact ⟨_, .refl _, ho.2.symm⟩
  | ok content =>
    simp only [hcontent, outcome_bind, outcome_get] at ho
    rcases hw : h.write t s with _ | ⟨written, g⟩
    · simp only [hw, outcome_bind, outcome_fill] at ho
      unfold orUndo at ho
      rw [outcome_tryCatch] at ho
      rcases hp : outcome (h.publish { s with content } path)
        { t with scratch := t.scratch.erase s ++ [{ s with content }] } with ⟨g | u, t₁⟩
      · obtain rfl := publish_eq_error hp
        simp only [hp, outcome_bind, outcome_discard, outcome_throw, Prod.mk.injEq] at ho
        exact ⟨_, perm_erase_created _ _, ho.2.symm⟩
      · rw [hp] at ho
        cases ho
    · simp only [hw, outcome_bind, outcome_fill, outcome_discard, outcome_throw, Prod.mk.injEq] at ho
      exact ⟨_, perm_erase_created _ _, ho.2.symm⟩

/-! ## Writing -/

variable {scene scene' : Scene}

theorem writeFile_eq_ok (ho : outcome (h.writeFile path d) scene = (.ok (), scene')) :
    ∃ s content, d.content s = .ok content ∧ Atomic.Written scene.tree path content scene'.tree := by
  unfold writeFile at ho
  rw [outcome_bind, outcome_file] at ho
  rcases hcreate : outcome (h.createScratch path) scene.tree with ⟨f | s, t₁⟩
  · rw [hcreate] at ho
    cases ho
  · obtain ⟨hgrows, hscratch, hnull, -⟩ := createScratch_ok (createScratch_eq_ok hcreate)
    simp only [hcreate, outcome_tryCatch, outcome_file] at ho
    rcases hcomplete : outcome (h.complete path d s) t₁ with ⟨f | u, t₂⟩
    · simp [hcomplete, outcome_bind] at ho
    · obtain ⟨content, l, scratch, hcontent, hl, hperm, rfl⟩ := complete_eq_ok hcomplete
      simp only [hcomplete, Prod.mk.injEq, true_and] at ho
      rw [hscratch] at hperm
      rw [← ho]
      exact ⟨s, content, hcontent, .of_settle hgrows hl hnull (hperm.trans (perm_erase_created _ _))⟩

theorem writeFile_eq_error {f : Fault} (ho : outcome (h.writeFile path d) scene = (.error f, scene')) :
    Grows scene.tree scene'.tree ∧ scene'.tree.scratch.Perm scene.tree.scratch := by
  unfold writeFile at ho
  rw [outcome_bind, outcome_file] at ho
  rcases hcreate : outcome (h.createScratch path) scene.tree with ⟨g | s, t₁⟩
  · simp only [hcreate, Prod.mk.injEq] at ho
    obtain ⟨hgrows, hscratch⟩ := createScratch_eq_error hcreate
    rw [← ho.2]
    exact ⟨hgrows, .of_eq hscratch⟩
  · obtain ⟨hgrows, hscratch, -⟩ := createScratch_ok (createScratch_eq_ok hcreate)
    simp only [hcreate, outcome_tryCatch, outcome_file] at ho
    rcases hcomplete : outcome (h.complete path d s) t₁ with ⟨g | u, t₂⟩
    · obtain ⟨scratch, hperm, rfl⟩ := complete_eq_error hcomplete
      simp only [hcomplete, outcome_bind, outcome_notify, outcome_throw, Prod.mk.injEq] at ho
      rw [hscratch] at hperm
      rw [← ho.2]
      exact ⟨⟨hgrows.home, hgrows.node⟩, hperm.trans (perm_erase_created _ _)⟩
    · rw [hcomplete] at ho
      cases ho

end Hindrance

end MachineBundle
