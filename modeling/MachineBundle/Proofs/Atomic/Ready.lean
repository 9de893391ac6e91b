import MachineBundle.Proofs.Atomic.Commit

/-!
# What lets a commit succeed

Where the directory of a file is there already, staging it only adds a scratch file. So a commit of such files gets to
its end if each of them has a place to go to.
-/

namespace MachineBundle

namespace Filing

open Tree

theorem outcome_makeDirectory_taken {p : Path} {t : Tree} (h : t.isDirectory p = .ok true) :
    outcome (makeDirectory p) t = (.error (.refused .alreadyThere p.text), t) := by
  obtain ⟨hn, hp, hd⟩ := isDirectory_eq_true.mp h
  obtain ⟨d, hd⟩ := Option.isSome_iff_exists.mp hd
  simp [makeDirectory, hn, outcome_bind, place_of_directory hd hp]

/-- Nothing is made where there is a directory. -/
theorem outcome_makeDirectories_there {p : Path} {t : Tree} (h : t.isDirectory p = .ok true) :
    outcome (makeDirectories p) t = (.ok (), t) := by
  obtain ⟨anchor, ps⟩ := p
  unfold makeDirectories
  dsimp only
  rw [← List.reverse_reverse ps] at h
  cases hq : ps.reverse with
  | nil =>
    rw [hq] at h
    unfold makeDirectoriesUp
    rw [outcome_acceptDirectory]
    exact congrArg (·, t) (if_pos h)
  | cons name above =>
    rw [hq] at h
    rw [makeDirectoriesUp, outcome_tryCatch, outcome_makeDirectory_taken h]
    dsimp only
    rw [outcome_acceptDirectory, if_pos h]

/-- A scratch file is created in a directory that is there, if there is room for its name. -/
theorem outcome_createScratch_there {target : Path} {t : Tree} {d : Location} (hnull : hasNull target = false)
    (h : t.isDirectory target.parent = .ok true) (hd : t.directory? target.parent = some d)
    (hname : (Scratch.nameFor target.name).utf8ByteSize ≤ nameLimit)
    (htext : (Scratch.textFor t.home d target.name).utf8ByteSize < pathLimit) :
    outcome (createScratch target) t =
      (.ok (Scratch.start t.home d target.name),
        { t with scratch := t.scratch ++ [Scratch.start t.home d target.name] }) := by
  obtain ⟨-, hp, -⟩ := isDirectory_eq_true.mp h
  have hfits : ¬(nameLimit < (Scratch.nameFor target.name).utf8ByteSize ∨
      pathLimit ≤ (Scratch.start t.home d target.name).text.utf8ByteSize) :=
    not_or.mpr ⟨Nat.not_lt.mpr hname, Nat.not_le.mpr htext⟩
  unfold createScratch
  rw [outcome_bind_ok (outcome_makeDirectories_there h)]
  simp only [hnull, Bool.false_eq_true, if_false, outcome_bind, outcome_get, outcome_set, outcome_pure,
    place_of_directory hd hp, if_neg hfits]

end Filing

namespace Batch

open Tree Filing

/-- A file that can be written where it belongs, with its scratch file beside it. -/
structure Ready (t : Tree) (w : Pending) : Prop where
  noNull : hasNull w.target = false
  directory : t.isDirectory w.target.parent = .ok true
  scratchName : (Scratch.nameFor w.target.name).utf8ByteSize ≤ nameLimit
  scratchText : ∀ d, t.directory? w.target.parent = some d →
    (Scratch.textFor t.home d w.target.name).utf8ByteSize < pathLimit
  slot : (t.slot? w.target).isSome = true

theorem Ready.scratch {t : Tree} {w : Pending} (h : Ready t w) (scratch : List Scratch) :
    Ready { t with scratch } w where
  noNull := h.noNull
  directory := by
    rw [isDirectory_eq_true, directory?_scratch]
    exact isDirectory_eq_true.mp h.directory
  scratchName := h.scratchName
  scratchText := by
    rw [directory?_scratch]
    exact h.scratchText
  slot := by
    rw [slot?_scratch]
    exact h.slot

theorem outcome_stage {t : Tree} {w : Pending} (h : Ready t w) :
    ∃ s scratch, outcome (stage w) t = (.ok s, { t with scratch }) := by
  obtain ⟨-, -, hd⟩ := isDirectory_eq_true.mp h.directory
  obtain ⟨d, hd⟩ := Option.isSome_iff_exists.mp hd
  have hcreate := outcome_createScratch_there h.noNull h.directory hd h.scratchName (h.scratchText d hd)
  have hstage : outcome (stage w) t = outcome (fill (Scratch.start t.home d w.target.name) w.content) _ :=
    outcome_bind_ok hcreate _
  exact ⟨_, _, hstage.trans (outcome_fill _ _ _)⟩

theorem outcome_stageAll {t : Tree} {queue : List Pending} (h : ∀ w ∈ queue, Ready t w) :
    ∃ staged scratch, outcome (stageAll queue) t = (.ok staged, { t with scratch }) := by
  induction queue generalizing t with
  | nil => exact ⟨[], t.scratch, rfl⟩
  | cons w rest ih =>
    obtain ⟨s, scratch, hs⟩ := outcome_stage (h w List.mem_cons_self)
    have hrest : ∀ v ∈ rest, Ready { t with scratch } v := fun v hv =>
      (h v (List.mem_cons_of_mem w hv)).scratch scratch
    obtain ⟨more, scratch', hr⟩ := ih hrest
    refine ⟨(s, w.target) :: more, scratch', ?_⟩
    unfold stageAll orUndo
    rw [outcome_bind_ok hs]
    simp only [outcome_bind, outcome_tryCatch, hr, outcome_pure]

/-- A commit of files that are ready succeeds. -/
theorem commit_of_ready {b : Batch} {t : Tree} (h : ∀ w ∈ b.queue, Ready t w) :
    ∃ t', outcome b.commit t = (.ok b.queue.length, t') ∧ Settled t b.queue t' := by
  obtain ⟨staged, scratch, hs⟩ := outcome_stageAll h
  obtain ⟨_, hq, hp, _⟩ := stageAll_ok hs
  obtain ⟨t', _, _, ho⟩ := outcome_publishAll staged { t with scratch } t.scratch hp
  have hall : (queued staged).all (isSlotted { t with scratch }) = true := by
    rw [hq, List.all_eq_true]
    exact fun w hw => ((h w hw).scratch scratch).slot
  rw [if_pos hall] at ho
  have hcommit : outcome b.commit t = (.ok b.queue.length, t') := by
    rw [outcome_commit, hs]
    simp only [ho]
  refine ⟨t', hcommit, ?_⟩
  have hset := (commit_ok hcommit).1
  rw [stagedTree, hs] at hset
  exact ⟨hset.home, hset.hasDirectory, fun l => by
    rw [hset.file? l, lastAt_congr l fun w _ => slot?_scratch t scratch w.target]
    rfl⟩

end Batch

end MachineBundle
