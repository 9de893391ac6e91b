import Mathlib.Data.List.TakeWhile
import MachineBundle.Atomic.Batch
import MachineBundle.Proofs.Tree.Filing

/-!
# What a commit does

Staging leaves all files alone. Publishing puts the staged files in their places one by one, up to the first that has
none; the slots do not change meanwhile, since no directory does.
-/

namespace MachineBundle

namespace Batch

open Tree Filing

/-- The files that staged files stand for. -/
def queued (staged : List (Scratch × Path)) : List Pending :=
  staged.map fun (s, target) => ⟨target, s.content⟩

/-- The content that a location gets from the last file that is written there. -/
def lastAt (t : Tree) (l : Location) : List Pending → Option ByteArray
  | [] => none
  | w :: rest => (lastAt t l rest).or (if t.slot? w.target = some l then some w.content else none)

/-- Whether a file has a place to go to. -/
def isSlotted (t : Tree) (w : Pending) : Bool :=
  (t.slot? w.target).isSome

/-- A tree after some files have been put in their places. -/
structure Settled (t : Tree) (ws : List Pending) (t' : Tree) : Prop where
  home : t'.home = t.home
  hasDirectory : ∀ l, t'.hasDirectory l = t.hasDirectory l
  file? : ∀ l, t'.file? l = (lastAt t l ws).or (t.file? l)

/-! ## Staging -/

theorem stage_ok {w : Pending} {s : Scratch} {t t' : Tree} (h : outcome (stage w) t = (.ok s, t')) :
    Grows t t' ∧ s.content = w.content ∧ t'.scratch.Perm (s :: t.scratch) ∧ hasNull w.target = false ∧
      (t'.directory? w.target.parent).isSome = true ∧ w.target.parent.text.utf8ByteSize < pathLimit := by
  unfold stage at h
  obtain ⟨s₀, t₁, hc, h⟩ := outcome_bind_eq_ok h
  obtain ⟨hg, hs, hn, hd, hp⟩ := createScratch_ok hc
  rw [outcome_fill, Prod.mk.injEq, Except.ok.injEq] at h
  obtain ⟨rfl, rfl⟩ := h
  refine ⟨⟨hg.home, hg.node⟩, rfl, ?_, hn, ?_, hp⟩
  · have hm : (t.scratch ++ [s₀]).Perm (s₀ :: t.scratch) := List.perm_append_comm
    have he := hm.erase s₀
    rw [List.erase_cons_head] at he
    rw [hs]
    exact (he.append_right _).trans List.perm_append_comm
  · rw [directory?_scratch t₁]
    exact hd

theorem stage_error {w : Pending} {f : Fault} {t t' : Tree} (h : outcome (stage w) t = (.error f, t')) :
    Grows t t' ∧ t'.scratch = t.scratch := by
  unfold stage at h
  rw [outcome_bind] at h
  rcases hc : outcome (createScratch w.target) t with ⟨f' | s, t₁⟩
  · simp only [hc, Prod.mk.injEq] at h
    obtain ⟨_, rfl⟩ := h
    exact createScratch_error hc
  · rw [hc] at h
    simp [outcome_fill] at h

theorem stageAll_ok {queue : List Pending} {staged : List (Scratch × Path)} {t t' : Tree}
    (h : outcome (stageAll queue) t = (.ok staged, t')) :
    Grows t t' ∧ queued staged = queue ∧ t'.scratch.Perm (staged.map Prod.fst ++ t.scratch) ∧
      ∀ w ∈ queue, hasNull w.target = false ∧ (t'.directory? w.target.parent).isSome = true := by
  induction queue generalizing t t' staged with
  | nil =>
    cases h
    exact ⟨Grows.refl t, rfl, .refl _, by simp⟩
  | cons w rest ih =>
    unfold stageAll at h
    obtain ⟨s, t₁, hs, h⟩ := outcome_bind_eq_ok h
    obtain ⟨more, t₂, hr, h⟩ := outcome_bind_eq_ok h
    cases h
    unfold orUndo at hr
    rw [outcome_tryCatch] at hr
    rcases ho : outcome (stageAll rest) t₁ with ⟨f | more', t₃⟩
    · simp [ho, outcome_bind, outcome_discard] at hr
    · simp only [ho, Prod.mk.injEq, Except.ok.injEq] at hr
      obtain ⟨rfl, rfl⟩ := hr
      obtain ⟨hg, hc, hp, hn, hd, _⟩ := stage_ok hs
      obtain ⟨hg', hq, hp', hall⟩ := ih ho
      refine ⟨hg.trans hg', by simp [queued, hc, ← hq], ?_, ?_⟩
      · calc t₃.scratch.Perm (more'.map Prod.fst ++ t₁.scratch) := hp'
          _ |>.Perm (more'.map Prod.fst ++ s :: t.scratch) := hp.append_left _
          _ |>.Perm (s :: (more'.map Prod.fst ++ t.scratch)) := List.perm_middle
      · intro v hv
        rcases List.mem_cons.mp hv with rfl | hv
        · obtain ⟨d, hd⟩ := Option.isSome_iff_exists.mp hd
          exact ⟨hn, by simp [hg'.directory? hd]⟩
        · exact hall v hv

theorem stageAll_error {queue : List Pending} {f : Fault} {t t' : Tree}
    (h : outcome (stageAll queue) t = (.error f, t')) : Grows t t' ∧ t'.scratch.Perm t.scratch := by
  induction queue generalizing t t' f with
  | nil => cases h
  | cons w rest ih =>
    unfold stageAll at h
    rw [outcome_bind] at h
    rcases hs : outcome (stage w) t with ⟨f' | s, t₁⟩
    · simp only [hs, Prod.mk.injEq] at h
      obtain ⟨_, rfl⟩ := h
      obtain ⟨hg, hp⟩ := stage_error hs
      exact ⟨hg, .of_eq hp⟩
    · obtain ⟨hg, _, hp, _⟩ := stage_ok hs
      simp only [hs] at h
      unfold orUndo at h
      rw [outcome_bind, outcome_tryCatch] at h
      rcases ho : outcome (stageAll rest) t₁ with ⟨f' | more, t₂⟩
      · obtain ⟨hg', hp'⟩ := ih ho
        simp only [ho, outcome_bind, outcome_discard, outcome_throw, Prod.mk.injEq] at h
        obtain ⟨_, rfl⟩ := h
        have hg₂ := hg.trans hg'
        have he := (hp'.trans hp).erase s
        rw [List.erase_cons_head] at he
        exact ⟨⟨hg₂.home, hg₂.node⟩, he⟩
      · simp [ho] at h

/-! ## Publishing -/

theorem outcome_discardAll (staged : List (Scratch × Path)) (t : Tree) (others : List Scratch)
    (h : t.scratch.Perm (staged.map Prod.fst ++ others)) :
    ∃ scratch, scratch.Perm others ∧ outcome (discardAll staged) t = (.ok (), { t with scratch }) := by
  induction staged generalizing t with
  | nil => exact ⟨t.scratch, h, rfl⟩
  | cons e rest ih =>
    have he := h.erase e.1
    simp only [List.map_cons, List.cons_append, List.erase_cons_head] at he
    obtain ⟨scratch, hp, ho⟩ := ih { t with scratch := t.scratch.erase e.1 } he
    refine ⟨scratch, hp, ?_⟩
    simp only [discardAll, List.forM_eq_forM, List.forM_cons] at ho ⊢
    rw [outcome_bind_ok (outcome_discard e.1 t)]
    exact ho

theorem lastAt_congr {t t' : Tree} (l : Location) {ws : List Pending}
    (h : ∀ w ∈ ws, t'.slot? w.target = t.slot? w.target) : lastAt t' l ws = lastAt t l ws := by
  induction ws with
  | nil => rfl
  | cons w rest ih =>
    rw [lastAt, lastAt, ih fun v hv => h v (List.mem_cons_of_mem w hv), h w List.mem_cons_self]

theorem Settled.slot? {t t' : Tree} {ws : List Pending} (h : Settled t ws t') (p : Path) : t'.slot? p = t.slot? p :=
  slot?_congr h.home h.hasDirectory p

theorem Settled.refl (t : Tree) : Settled t [] t :=
  ⟨rfl, fun _ => rfl, fun _ => rfl⟩

/-- One more file is put in its place before others. -/
theorem Settled.cons {t t' : Tree} {w : Pending} {ws : List Pending} {l : Location} {scratch : List Scratch}
    (hl : t.slot? w.target = some l) (h : Settled (t.settle l w.content scratch) ws t') : Settled t (w :: ws) t' := by
  have hne := slot?_ne_root hl
  have hd := slot?_not_directory hl
  refine ⟨h.home, fun m => (h.hasDirectory m).trans (hasDirectory_settle hne hd _ _ m), fun m => ?_⟩
  rw [h.file? m, lastAt_congr m fun v _ => slot?_settle hne hd _ _ v.target, file?_settle hne, lastAt, hl]
  cases lastAt t m ws with
  | some c => rfl
  | none => by_cases hm : l = m <;> simp [hm]

/-- The staged files get to their places up to the first one without a place; then the rest is given up. -/
theorem outcome_publishAll (staged : List (Scratch × Path)) (t : Tree) (others : List Scratch)
    (h : t.scratch.Perm (staged.map Prod.fst ++ others)) :
    ∃ t', Settled t ((queued staged).takeWhile (isSlotted t)) t' ∧ t'.scratch.Perm others ∧
      if (queued staged).all (isSlotted t) then outcome (publishAll staged) t = (.ok (), t')
      else ∃ f, outcome (publishAll staged) t = (.error f, t') := by
  induction staged generalizing t with
  | nil => exact ⟨t, Settled.refl t, h, rfl⟩
  | cons e rest ih =>
    obtain ⟨s, target⟩ := e
    cases hl : t.slot? target with
    | none =>
      obtain ⟨scratch, hp, ho⟩ := outcome_discardAll ((s, target) :: rest) t others h
      obtain ⟨f, hf⟩ := outcome_publish_none hl s
      refine ⟨{ t with scratch }, ?_, hp, ?_⟩
      · simp only [queued, List.map_cons, isSlotted, hl, Option.isSome_none, Bool.false_eq_true, not_false_eq_true,
          List.takeWhile_cons_of_neg]
        exact ⟨rfl, fun _ => rfl, fun _ => rfl⟩
      · simp only [queued, List.map_cons, List.all_cons, isSlotted, hl, Option.isSome_none, Bool.false_and,
          Bool.false_eq_true, if_false]
        exact ⟨f, by simp [publishAll, orUndo, outcome_bind, outcome_tryCatch, hf, ho]⟩
    | some l =>
      have hpub := outcome_publish hl s
      have he := h.erase s
      simp only [List.map_cons, List.cons_append, List.erase_cons_head] at he
      obtain ⟨t', hs, hp, ho⟩ := ih (t.settle l s.content (t.scratch.erase s)) he
      have hi : isSlotted (t.settle l s.content (t.scratch.erase s)) = isSlotted t := by
        funext w
        unfold isSlotted
        rw [slot?_settle (slot?_ne_root hl) (slot?_not_directory hl)]
      rw [hi] at hs ho
      have hw : isSlotted t ⟨target, s.content⟩ = true := by simp [isSlotted, hl]
      refine ⟨t', ?_, hp, ?_⟩
      · simp only [queued, List.map_cons, List.takeWhile_cons_of_pos hw]
        exact Settled.cons hl hs
      · have hrun : outcome (publishAll ((s, target) :: rest)) t =
            outcome (publishAll rest) (t.settle l s.content (t.scratch.erase s)) := by
          simp [publishAll, orUndo, outcome_bind, outcome_tryCatch, hpub]
        have hall : (queued ((s, target) :: rest)).all (isSlotted t) = (queued rest).all (isSlotted t) := by
          simp [queued, hw]
        rw [hrun, hall]
        exact ho

/-! ## Committing -/

/-- A commit stages all files and then puts them in their places. -/
theorem outcome_commit (b : Batch) (t : Tree) : outcome b.commit t =
    match outcome (stageAll b.queue) t with
    | (.error f, t₁) => (.error (.batchFailed f), t₁)
    | (.ok staged, t₁) =>
      match outcome (publishAll staged) t₁ with
      | (.error f, t₂) => (.error (.batchFailed f), t₂)
      | (.ok (), t₂) => (.ok b.queue.length, t₂) := by
  unfold commit Filing.within
  rw [outcome_tryCatch, outcome_bind]
  rcases hs : outcome (stageAll b.queue) t with ⟨f | staged, t₁⟩
  · rfl
  · rcases hp : outcome (publishAll staged) t₁ with ⟨f | u, t₂⟩ <;> simp only [outcome_bind, hp] <;> rfl

/-- The tree when staging is over. -/
def stagedTree (b : Batch) (t : Tree) : Tree :=
  (outcome (stageAll b.queue) t).2

/-- The files that a commit gets to their places, whether it succeeds or not. -/
def published (b : Batch) (t : Tree) : List Pending :=
  match (outcome (stageAll b.queue) t).1 with
  | .ok _ => b.queue.takeWhile (isSlotted (b.stagedTree t))
  | .error _ => []

theorem stagedTree_grows (b : Batch) (t : Tree) : Grows t (b.stagedTree t) := by
  unfold stagedTree
  rcases h : outcome (stageAll b.queue) t with ⟨f | staged, t₁⟩
  · exact (stageAll_error h).1
  · exact (stageAll_ok h).1

/-- What a commit does to a tree, be it to the end or not. -/
theorem commit_settled {b : Batch} {t t' : Tree} {r : Except Fault Nat} (h : outcome b.commit t = (r, t')) :
    Settled (b.stagedTree t) (b.published t) t' ∧ t'.scratch.Perm t.scratch := by
  unfold stagedTree published stagedTree
  rw [outcome_commit] at h
  rcases hs : outcome (stageAll b.queue) t with ⟨f | staged, t₁⟩
  · rw [hs] at h
    cases h
    exact ⟨Settled.refl t', (stageAll_error hs).2⟩
  · obtain ⟨_, hq, hp, _⟩ := stageAll_ok hs
    obtain ⟨t₂, hset, hp', ho⟩ := outcome_publishAll staged t₁ t.scratch hp
    rw [hq] at hset ho
    simp only [hs] at h
    split at ho
    · rw [ho] at h
      cases h
      exact ⟨hset, hp'⟩
    · obtain ⟨f, hf⟩ := ho
      rw [hf] at h
      cases h
      exact ⟨hset, hp'⟩

theorem commit_home {b : Batch} {t t' : Tree} {r : Except Fault Nat} (h : outcome b.commit t = (r, t')) :
    t'.home = t.home :=
  (commit_settled h).1.home.trans (b.stagedTree_grows t).home

/-- A commit that succeeds gets all files to their places. -/
theorem commit_ok {b : Batch} {t t' : Tree} {n : Nat} (h : outcome b.commit t = (.ok n, t')) :
    Settled (b.stagedTree t) b.queue t' ∧
      ∀ w ∈ b.queue, hasNull w.target = false ∧ ((b.stagedTree t).slot? w.target).isSome = true := by
  have hset := (commit_settled h).1
  unfold published at hset
  rw [outcome_commit] at h
  rcases hs : outcome (stageAll b.queue) t with ⟨f | staged, t₁⟩
  · rw [hs] at h
    cases h
  · obtain ⟨_, hq, hp, hn⟩ := stageAll_ok hs
    obtain ⟨t₂, _, _, ho⟩ := outcome_publishAll staged t₁ t.scratch hp
    have ht : b.stagedTree t = t₁ := by simp [stagedTree, hs]
    rw [hq] at ho
    rw [ht, hs] at hset
    simp only [hs] at h
    split at ho
    · rename_i hall
      have hall := List.all_eq_true.mp hall
      rw [ht]
      refine ⟨?_, fun w hw => ⟨(hn w hw).1, hall w hw⟩⟩
      rwa [List.takeWhile_eq_self_iff.mpr hall] at hset
    · obtain ⟨f, hf⟩ := ho
      rw [hf] at h
      cases h

/-- A commit that fails discards its scratch files. It leaves the files of the tree as they were exactly if each
location that it published to had the last content from there already. -/
theorem failed_commit_keeps_files_iff (b : Batch) (t t' : Tree) (f : Fault) (h : outcome b.commit t = (.error f, t')) :
    t'.scratch.Perm t.scratch ∧
      ((∀ l, t'.file? l = t.file? l) ↔
        ∀ l c, lastAt (b.stagedTree t) l (b.published t) = some c → t.file? l = some c) := by
  obtain ⟨hset, hp⟩ := commit_settled h
  refine ⟨hp, ?_⟩
  have hf : ∀ l, t'.file? l = (lastAt (b.stagedTree t) l (b.published t)).or (t.file? l) := by
    intro l
    rw [hset.file? l, (b.stagedTree_grows t).file?_eq l]
  constructor
  · intro hkeep l c hc
    rw [← hkeep l, hf l, hc]
    rfl
  · intro hkeep l
    rw [hf l]
    cases hc : lastAt (b.stagedTree t) l (b.published t) with
    | none => rfl
    | some c => exact (hkeep l c hc).symm

/-- Two files, the first of which is to stand where the second one needs a directory. -/
def nestingPair : Batch :=
  ((Batch.start (.ofText "b")).addText "a" "2").addText "a/b" "1"

theorem nestingPair_keeps_files :
    ∃ f t', outcome nestingPair.commit .empty = (.error f, t') ∧ ∀ l, t'.file? l = Tree.empty.file? l := by
  refine ⟨_, _, rfl, (failed_commit_keeps_files_iff nestingPair .empty _ _ rfl).2.mpr fun l c hc => ?_⟩
  have hp : nestingPair.published .empty = [] := rfl
  rw [hp] at hc
  cases hc

/-- The same files in the other order. -/
def nestedPair : Batch :=
  ((Batch.start (.ofText "b")).addText "a/b" "1").addText "a" "2"

theorem nestedPair_is_torn :
    ∃ f t', outcome nestedPair.commit .empty = (.error f, t') ∧
      t'.file? ["work", "b", "a", "b"] ≠ Tree.empty.file? ["work", "b", "a", "b"] := by
  refine ⟨_, _, rfl, ?_⟩
  decide

end Batch

end MachineBundle
