import Mathlib.Logic.Function.Basic
import MachineBundle.Proofs.Atomic.Calls

/-!
# Commits that are stopped

Besides the tree, a full disk or missing rights can make a call fail. Whichever call of a commit is the first to fail,
the scratch files are discarded, and the files are those that come of writing the first files of the queue in order.
-/

namespace MachineBundle

open Tree Filing Batch

/-- What calls are refused besides what the tree refuses. A refused call may have done a part of its work. -/
structure Hindrance where
  /-- No scratch file is created, although directories may have been made. -/
  create : Tree → Path → Option (Path × Fault)
  /-- A scratch file is not filled, although something may have been written to it. -/
  write : Tree → Scratch → Option (ByteArray × Fault)
  /-- A scratch file does not take the place of a file. -/
  rename : Tree → Scratch → Path → Option Fault

namespace Hindrance

/-- Nothing is refused. -/
def none : Hindrance :=
  ⟨fun _ _ => .none, fun _ _ => .none, fun _ _ _ => .none⟩

def createScratch (h : Hindrance) (target : Path) : Filing Scratch := do
  match h.create (← get) target with
  | some (made, f) =>
    makeDirectories made
    throw f
  | .none => Filing.createScratch target

/-- A scratch file that cannot be filled is discarded at once. -/
def stage (h : Hindrance) (w : Pending) : Filing Scratch := do
  let s ← h.createScratch w.target
  match h.write (← get) s with
  | some (written, f) =>
    discard (← fill s written)
    throw f
  | .none => fill s w.content

def stageAll (h : Hindrance) : List Pending → Filing (List (Scratch × Path))
  | [] => pure []
  | w :: rest => do
    let s ← h.stage w
    let more ← orUndo (discard s) (h.stageAll rest)
    pure ((s, w.target) :: more)

def publish (h : Hindrance) (s : Scratch) (target : Path) : Filing Unit := do
  match h.rename (← get) s target with
  | some f => throw f
  | .none => Filing.publish s target

def publishAll (h : Hindrance) : List (Scratch × Path) → Filing Unit
  | [] => pure ()
  | (s, target) :: rest => do
    orUndo (discardAll ((s, target) :: rest)) (h.publish s target)
    h.publishAll rest

/-- A commit on a disk that refuses some calls. -/
def commit (h : Hindrance) (b : Batch) : Filing Nat :=
  Filing.within .batchFailed do
    h.publishAll (← h.stageAll b.queue)
    pure b.queue.length

/-! ## A disk that refuses nothing -/

theorem stage_none (w : Pending) : none.stage w = Batch.stage w := rfl

theorem stageAll_none (queue : List Pending) : none.stageAll queue = Batch.stageAll queue := by
  induction queue with
  | nil => rfl
  | cons w rest ih =>
    unfold stageAll Batch.stageAll
    rw [ih, stage_none]

theorem publishAll_none (staged : List (Scratch × Path)) : none.publishAll staged = Batch.publishAll staged := by
  induction staged with
  | nil => rfl
  | cons e rest ih =>
    obtain ⟨s, target⟩ := e
    unfold publishAll Batch.publishAll
    rw [ih]
    rfl

/-- Where nothing is refused, a commit is what it is by the tree alone. -/
theorem commit_none (b : Batch) : none.commit b = b.commit := by
  unfold commit Batch.commit
  rw [stageAll_none, funext publishAll_none]

/-! ## Calls that succeed -/

variable {h : Hindrance} {t t' : Tree}

theorem createScratch_eq_ok {target : Path} {s : Scratch}
    (ho : outcome (h.createScratch target) t = (.ok s, t')) : outcome (Filing.createScratch target) t = (.ok s, t') := by
  unfold createScratch at ho
  rw [outcome_bind, outcome_get] at ho
  rcases hr : h.create t target with _ | ⟨made, f⟩
  · simpa only [hr] using ho
  · simp only [hr] at ho
    obtain ⟨_, t₁, _, hthrow⟩ := outcome_bind_eq_ok ho
    cases hthrow

theorem createScratch_eq_error {target : Path} {f : Fault}
    (ho : outcome (h.createScratch target) t = (.error f, t')) : Grows t t' ∧ t'.scratch = t.scratch := by
  unfold createScratch at ho
  rw [outcome_bind, outcome_get] at ho
  rcases hr : h.create t target with _ | ⟨made, g⟩
  · simp only [hr] at ho
    exact createScratch_error ho
  · have hgrows := makeDirectories_growing made t
    simp only [hr, outcome_bind] at ho
    rcases hm : outcome (makeDirectories made) t with ⟨f' | u, t₁⟩ <;> rw [hm] at ho hgrows <;> cases ho <;> exact hgrows

/-- A file that is staged in spite of a hindrance is staged as it would be without it. -/
theorem stage_eq_ok {w : Pending} {s : Scratch} (ho : outcome (h.stage w) t = (.ok s, t')) :
    outcome (Batch.stage w) t = (.ok s, t') := by
  unfold stage at ho
  obtain ⟨s₀, t₁, hc, ho⟩ := outcome_bind_eq_ok ho
  unfold Batch.stage
  rw [outcome_bind_ok (createScratch_eq_ok hc)]
  rw [outcome_bind, outcome_get] at ho
  rcases hr : h.write t₁ s₀ with _ | ⟨written, f⟩
  · simpa only [hr] using ho
  · simp [hr, outcome_bind, outcome_fill, outcome_discard] at ho

theorem stage_eq_error {w : Pending} {f : Fault} (ho : outcome (h.stage w) t = (.error f, t')) :
    Grows t t' ∧ t'.scratch.Perm t.scratch := by
  unfold stage at ho
  rw [outcome_bind] at ho
  rcases hc : outcome (h.createScratch w.target) t with ⟨f' | s, t₁⟩
  · rw [hc] at ho
    cases ho
    obtain ⟨hgrows, hscratch⟩ := createScratch_eq_error hc
    exact ⟨hgrows, .of_eq hscratch⟩
  · obtain ⟨hgrows, hscratch, -⟩ := createScratch_ok (createScratch_eq_ok hc)
    simp only [hc, outcome_bind, outcome_get] at ho
    rcases hr : h.write t₁ s with _ | ⟨written, g⟩
    · simp [hr, outcome_fill] at ho
    · simp only [hr, outcome_bind, outcome_fill, outcome_discard, outcome_throw, Prod.mk.injEq] at ho
      obtain ⟨-, rfl⟩ := ho
      refine ⟨⟨hgrows.home, hgrows.node⟩, ?_⟩
      -- What was created last is taken away, whatever has been written to it.
      have hcreated : (t.scratch ++ [s]).Perm (s :: t.scratch) := List.perm_append_comm
      have herase := hcreated.erase s
      rw [List.erase_cons_head] at herase
      have hfilled : (t₁.scratch.erase s ++ [{ s with content := written }]).Perm
          ({ s with content := written } :: t.scratch) := by
        rw [hscratch]
        exact (herase.append_right _).trans List.perm_append_comm
      have h' := hfilled.erase { s with content := written }
      rwa [List.erase_cons_head] at h'

theorem stageAll_eq_ok {queue : List Pending} {staged : List (Scratch × Path)}
    (ho : outcome (h.stageAll queue) t = (.ok staged, t')) : outcome (Batch.stageAll queue) t = (.ok staged, t') := by
  induction queue generalizing t t' staged with
  | nil => exact ho
  | cons w rest ih =>
    unfold stageAll orUndo at ho
    obtain ⟨s, t₁, hs, ho⟩ := outcome_bind_eq_ok ho
    obtain ⟨more, t₂, hr, ho⟩ := outcome_bind_eq_ok ho
    rw [outcome_tryCatch] at hr
    rcases hrest : outcome (h.stageAll rest) t₁ with ⟨f | more', t₃⟩
    · simp [hrest, outcome_bind, outcome_discard] at hr
    · rw [hrest] at hr
      cases hr
      unfold Batch.stageAll orUndo
      rw [outcome_bind_ok (stage_eq_ok hs), outcome_bind, outcome_tryCatch, ih hrest]
      exact ho

theorem publish_eq_ok {s : Scratch} {target : Path} (ho : outcome (h.publish s target) t = (.ok (), t')) :
    outcome (Filing.publish s target) t = (.ok (), t') := by
  unfold publish at ho
  rw [outcome_bind, outcome_get] at ho
  cases hr : h.rename t s target with
  | none => simpa only [hr] using ho
  | some f => simp [hr] at ho

theorem publish_eq_error {s : Scratch} {target : Path} {f : Fault}
    (ho : outcome (h.publish s target) t = (.error f, t')) : t' = t := by
  unfold publish at ho
  rw [outcome_bind, outcome_get] at ho
  cases hr : h.rename t s target with
  | some g =>
    simp only [hr, outcome_throw, Prod.mk.injEq] at ho
    exact ho.2.symm
  | none =>
    simp only [hr] at ho
    cases hl : t.slot? target with
    | none =>
      obtain ⟨g, hg⟩ := outcome_publish_none hl s
      rw [hg] at ho
      exact (Prod.mk.inj ho).2.symm
    | some l =>
      rw [outcome_publish hl s] at ho
      cases ho

theorem publishAll_eq_ok {staged : List (Scratch × Path)} (ho : outcome (h.publishAll staged) t = (.ok (), t')) :
    outcome (Batch.publishAll staged) t = (.ok (), t') := by
  induction staged generalizing t with
  | nil => exact ho
  | cons e rest ih =>
    obtain ⟨s, target⟩ := e
    unfold publishAll orUndo at ho
    obtain ⟨_, t₁, hp, ho⟩ := outcome_bind_eq_ok ho
    rw [outcome_tryCatch] at hp
    rcases hs : outcome (h.publish s target) t with ⟨f | u, t₂⟩
    · simp only [hs, outcome_bind] at hp
      split at hp <;> cases hp
    · rw [hs] at hp
      cases hp
      have hok : outcome (orUndo (discardAll ((s, target) :: rest)) (Filing.publish s target)) t = (.ok (), t₁) := by
        rw [orUndo, outcome_tryCatch, publish_eq_ok hs]
      rw [Batch.publishAll, outcome_bind_ok hok]
      exact ih ho

/-! ## Where a commit stops -/

/-- The first call of a commit to fail, known by its fault and by how many files are in their places by then. -/
inductive StopsAt (h : Hindrance) (b : Batch) (t : Tree) : Nat → Fault → Prop where
  /-- A file cannot be staged after those before it. -/
  | staging {before after : List Pending} {w : Pending} {staged : List (Scratch × Path)} {t₁ t₂ : Tree} {cause : Fault}
      (queue : b.queue = before ++ w :: after) (passed : outcome (h.stageAll before) t = (.ok staged, t₁))
      (fails : outcome (h.stage w) t₁ = (.error cause, t₂)) : StopsAt h b t 0 cause
  /-- All files are staged, and one of them cannot be put in its place after those before it. -/
  | publishing {before after : List (Scratch × Path)} {s : Scratch} {target : Path} {t₁ t₂ t₃ : Tree} {cause : Fault}
      (staged : outcome (h.stageAll b.queue) t = (.ok (before ++ (s, target) :: after), t₁))
      (passed : outcome (h.publishAll before) t₁ = (.ok (), t₂))
      (fails : outcome (h.publish s target) t₂ = (.error cause, t₃)) : StopsAt h b t before.length cause

/-- Where one file cannot be staged, those before it do not stay staged. -/
theorem stageAll_stops {before : List Pending} {w : Pending} {staged : List (Scratch × Path)} {t₁ t₂ : Tree}
    {cause : Fault} (hpassed : outcome (h.stageAll before) t = (.ok staged, t₁))
    (hfails : outcome (h.stage w) t₁ = (.error cause, t₂)) (after : List Pending) :
    ∃ scratch, outcome (h.stageAll (before ++ w :: after)) t = (.error cause, { t₂ with scratch }) ∧
      scratch.Perm t.scratch := by
  induction before generalizing t staged with
  | nil =>
    cases hpassed
    refine ⟨t₂.scratch, ?_, (stage_eq_error hfails).2⟩
    rw [List.nil_append, stageAll, outcome_bind_error hfails]
  | cons v rest ih =>
    unfold stageAll orUndo at hpassed
    obtain ⟨s, t₀, hs, hpassed⟩ := outcome_bind_eq_ok hpassed
    obtain ⟨more, t₃, hr, hpassed⟩ := outcome_bind_eq_ok hpassed
    cases hpassed
    rw [outcome_tryCatch] at hr
    rcases hrest : outcome (h.stageAll rest) t₀ with ⟨f | more', t₄⟩
    · simp [hrest, outcome_bind, outcome_discard] at hr
    · rw [hrest] at hr
      cases hr
      obtain ⟨scratch, ho, hperm⟩ := ih hrest
      obtain ⟨-, -, hscratch, -⟩ := stage_ok (stage_eq_ok hs)
      have herase := (hperm.trans hscratch).erase s
      rw [List.erase_cons_head] at herase
      refine ⟨scratch.erase s, ?_, herase⟩
      rw [List.cons_append, stageAll, outcome_bind_ok hs, outcome_bind, orUndo, outcome_tryCatch, ho]
      rfl

/-- Where one file cannot be put in its place, it is discarded together with those after it. -/
theorem publishAll_stops {before after : List (Scratch × Path)} {s : Scratch} {target : Path} {t₁ t₂ : Tree}
    {others : List Scratch} {cause : Fault} (hpassed : outcome (h.publishAll before) t = (.ok (), t₁))
    (hfails : outcome (h.publish s target) t₁ = (.error cause, t₂))
    (hscratch : t₁.scratch.Perm (((s, target) :: after).map Prod.fst ++ others)) :
    ∃ scratch, outcome (h.publishAll (before ++ (s, target) :: after)) t = (.error cause, { t₁ with scratch }) ∧
      scratch.Perm others := by
  induction before generalizing t with
  | nil =>
    cases hpassed
    obtain rfl := publish_eq_error hfails
    obtain ⟨scratch, hperm, ho⟩ := outcome_discardAll _ t₂ others hscratch
    refine ⟨scratch, ?_, hperm⟩
    rw [List.nil_append, publishAll, outcome_bind, orUndo, outcome_tryCatch, hfails]
    simp only [outcome_bind, ho, outcome_throw]
  | cons e rest ih =>
    obtain ⟨s', target'⟩ := e
    unfold publishAll orUndo at hpassed
    obtain ⟨_, t₀, hp, hpassed⟩ := outcome_bind_eq_ok hpassed
    rw [outcome_tryCatch] at hp
    rcases hs : outcome (h.publish s' target') t with ⟨f | u, t₃⟩
    · simp only [hs, outcome_bind] at hp
      split at hp <;> cases hp
    · rw [hs] at hp
      cases hp
      obtain ⟨scratch, ho, hperm⟩ := ih hpassed
      refine ⟨scratch, ?_, hperm⟩
      rw [List.cons_append, publishAll, outcome_bind, orUndo, outcome_tryCatch, hs]
      exact ho

/-- Files that cannot all be staged are staged up to one that cannot. -/
theorem exists_of_stageAll_error {queue : List Pending} {f : Fault}
    (ho : outcome (h.stageAll queue) t = (.error f, t')) :
    ∃ before w after staged t₁ t₂, queue = before ++ w :: after ∧
      outcome (h.stageAll before) t = (.ok staged, t₁) ∧ outcome (h.stage w) t₁ = (.error f, t₂) := by
  induction queue generalizing t t' with
  | nil => cases ho
  | cons w rest ih =>
    unfold stageAll orUndo at ho
    rcases hs : outcome (h.stage w) t with ⟨g | s, t₁⟩
    · rw [outcome_bind_error hs] at ho
      cases ho
      exact ⟨[], w, rest, [], t, t', rfl, rfl, hs⟩
    · rw [outcome_bind_ok hs, outcome_bind, outcome_tryCatch] at ho
      rcases hr : outcome (h.stageAll rest) t₁ with ⟨g | more, t₂⟩
      · simp only [hr, outcome_bind, outcome_discard, outcome_throw, Prod.mk.injEq, Except.error.injEq] at ho
        obtain ⟨rfl, -⟩ := ho
        obtain ⟨before, v, after, staged, t₃, t₄, rfl, hpassed, hfails⟩ := ih hr
        refine ⟨w :: before, v, after, (s, w.target) :: staged, t₃, t₄, rfl, ?_, hfails⟩
        rw [stageAll, outcome_bind_ok hs, outcome_bind, orUndo, outcome_tryCatch, hpassed]
        rfl
      · simp [hr] at ho

theorem exists_discardAll (staged : List (Scratch × Path)) (t : Tree) :
    ∃ t', outcome (discardAll staged) t = (.ok (), t') := by
  induction staged generalizing t with
  | nil => exact ⟨t, rfl⟩
  | cons e rest ih =>
    obtain ⟨t', ho⟩ := ih { t with scratch := t.scratch.erase e.1 }
    refine ⟨t', ?_⟩
    simp only [discardAll, List.forM_eq_forM, List.forM_cons] at ho ⊢
    rw [outcome_bind_ok (outcome_discard e.1 t)]
    exact ho

/-- Files that cannot all be put in their places get there up to one that cannot. -/
theorem exists_of_publishAll_error {staged : List (Scratch × Path)} {f : Fault}
    (ho : outcome (h.publishAll staged) t = (.error f, t')) :
    ∃ before s target after t₁ t₂, staged = before ++ (s, target) :: after ∧
      outcome (h.publishAll before) t = (.ok (), t₁) ∧ outcome (h.publish s target) t₁ = (.error f, t₂) := by
  induction staged generalizing t t' with
  | nil => cases ho
  | cons e rest ih =>
    obtain ⟨s, target⟩ := e
    unfold publishAll at ho
    rcases hp : outcome (h.publish s target) t with ⟨g | u, t₁⟩
    · obtain ⟨t₂, hd⟩ := exists_discardAll ((s, target) :: rest) t₁
      have hundo : outcome (orUndo (discardAll ((s, target) :: rest)) (h.publish s target)) t = (.error g, t₂) := by
        rw [orUndo, outcome_tryCatch, hp]
        simp only [outcome_bind, hd, outcome_throw]
      rw [outcome_bind_error hundo] at ho
      cases ho
      exact ⟨[], s, target, rest, t, t₁, rfl, rfl, hp⟩
    · have hok : outcome (orUndo (discardAll ((s, target) :: rest)) (h.publish s target)) t = (.ok (), t₁) := by
        rw [orUndo, outcome_tryCatch, hp]
      rw [outcome_bind_ok hok] at ho
      obtain ⟨before, s', target', after, t₂, t₃, rfl, hpassed, hfails⟩ := ih ho
      refine ⟨(s, target) :: before, s', target', after, t₂, t₃, rfl, ?_, hfails⟩
      have hok' : outcome (orUndo (discardAll ((s, target) :: before)) (h.publish s target)) t = (.ok (), t₁) := by
        rw [orUndo, outcome_tryCatch, hp]
      rw [publishAll, outcome_bind_ok hok']
      exact hpassed

theorem outcome_commit {b : Batch} : outcome (h.commit b) t =
    match outcome (h.stageAll b.queue) t with
    | (.error f, t₁) => (.error (.batchFailed f), t₁)
    | (.ok staged, t₁) =>
      match outcome (h.publishAll staged) t₁ with
      | (.error f, t₂) => (.error (.batchFailed f), t₂)
      | (.ok (), t₂) => (.ok b.queue.length, t₂) := by
  unfold commit Filing.within
  rw [outcome_tryCatch, outcome_bind]
  rcases hs : outcome (h.stageAll b.queue) t with ⟨f | staged, t₁⟩
  · rfl
  · rcases hp : outcome (h.publishAll staged) t₁ with ⟨f | u, t₂⟩ <;> simp only [outcome_bind, hp] <;> rfl

/-- A commit that fails stops at some call. -/
theorem exists_stopsAt {b : Batch} {f : Fault} (ho : outcome (h.commit b) t = (.error f, t')) :
    ∃ j cause, h.StopsAt b t j cause ∧ f = .batchFailed cause := by
  rw [outcome_commit] at ho
  rcases hs : outcome (h.stageAll b.queue) t with ⟨g | staged, t₁⟩
  · rw [hs] at ho
    cases ho
    obtain ⟨before, w, after, staged, t₂, t₃, hqueue, hpassed, hfails⟩ := exists_of_stageAll_error hs
    exact ⟨0, g, .staging hqueue hpassed hfails, rfl⟩
  · simp only [hs] at ho
    rcases hp : outcome (h.publishAll staged) t₁ with ⟨g | u, t₂⟩ <;> rw [hp] at ho <;> cases ho
    obtain ⟨before, s, target, after, t₃, t₄, rfl, hpassed, hfails⟩ := exists_of_publishAll_error hp
    exact ⟨before.length, g, .publishing hs hpassed hfails, rfl⟩

end Hindrance

/-! ## What a stopped commit leaves behind -/

namespace Tree

/-- What becomes of the files at all locations when some files are written in order, each where its path leads. -/
def filesAfter (t : Tree) (ws : List Pending) : Location → Option ByteArray :=
  ws.foldl (fun files w => Function.update files (t.locate w.target) (some w.content)) t.file?

/-- The last file to be written to a location decides what stands there. -/
theorem filesAfter_eq (t : Tree) (ws : List Pending) (l : Location) :
    t.filesAfter ws l = ((lastTo? t l ws).map Pending.content).or (t.file? l) := by
  have hfold : ∀ files : Location → Option ByteArray,
      ws.foldl (fun files w => Function.update files (t.locate w.target) (some w.content)) files l =
        ((lastTo? t l ws).map Pending.content).or (files l) := by
    induction ws with
    | nil => exact fun _ => rfl
    | cons w rest ih =>
      intro files
      rw [List.foldl_cons, ih, lastTo?_cons, Option.map_or, Option.or_assoc, Function.update_apply]
      by_cases hl : t.locate w.target = l
      · rw [if_pos hl, if_pos hl.symm]
        rfl
      · rw [if_neg hl, if_neg (Ne.symm hl)]
        rfl
  exact hfold t.file?

end Tree

/-- Files that have been put in their places after the ways to them were made. -/
theorem Batch.Settled.file?_eq_filesAfter {t t₁ t₂ : Tree} {ws : List Pending} (h : Settled t₁ ws t₂)
    (hgrows : Grows t t₁) (hslots : ∀ w ∈ ws, (t₁.slot? w.target).isSome = true) : t₂.file? = t.filesAfter ws := by
  funext l
  rw [h.file? l, lastAt_eq_lastTo hgrows.home hslots, hgrows.file?_eq, filesAfter_eq]

namespace Hindrance

variable {h : Hindrance} {t : Tree}

/-- A commit that stops while files are staged leaves the files as they are. -/
theorem commit_stops_staging {b : Batch} {before after : List Pending} {w : Pending} {staged : List (Scratch × Path)}
    {t₁ t₂ : Tree} {cause : Fault} (hqueue : b.queue = before ++ w :: after)
    (hpassed : outcome (h.stageAll before) t = (.ok staged, t₁)) (hfails : outcome (h.stage w) t₁ = (.error cause, t₂)) :
    ∃ t', outcome (h.commit b) t = (.error (.batchFailed cause), t') ∧ t'.scratch.Perm t.scratch ∧
      t'.file? = t.filesAfter (b.queue.take 0) := by
  obtain ⟨scratch, ho, hperm⟩ := stageAll_stops hpassed hfails after
  rw [← hqueue] at ho
  refine ⟨_, by rw [outcome_commit, ho], hperm, ?_⟩
  have hgrows := (stageAll_ok (stageAll_eq_ok hpassed)).1.trans (stage_eq_error hfails).1
  exact funext hgrows.file?_eq

/-- A commit that stops at a staged file has written the files before it. -/
theorem commit_stops_publishing {b : Batch} {before after : List (Scratch × Path)} {s : Scratch} {target : Path}
    {t₁ t₂ t₃ : Tree} {cause : Fault}
    (hstaged : outcome (h.stageAll b.queue) t = (.ok (before ++ (s, target) :: after), t₁))
    (hpassed : outcome (h.publishAll before) t₁ = (.ok (), t₂))
    (hfails : outcome (h.publish s target) t₂ = (.error cause, t₃)) :
    ∃ t', outcome (h.commit b) t = (.error (.batchFailed cause), t') ∧ t'.scratch.Perm t.scratch ∧
      t'.file? = t.filesAfter (b.queue.take before.length) := by
  obtain ⟨hgrows, hqueue, hscratch, -⟩ := stageAll_ok (stageAll_eq_ok hstaged)
  rw [List.map_append, List.append_assoc] at hscratch
  obtain ⟨t₂', hset, hrest, ho⟩ := outcome_publishAll before t₁ _ hscratch
  have hslotted : (queued before).all (isSlotted t₁) = true := by
    by_contra hnot
    rw [if_neg hnot] at ho
    obtain ⟨f, hf⟩ := ho
    rw [publishAll_eq_ok hpassed] at hf
    cases hf
  rw [if_pos hslotted, publishAll_eq_ok hpassed] at ho
  obtain rfl : t₂ = t₂' := (Prod.mk.inj ho).2
  rw [List.all_eq_true] at hslotted
  rw [List.takeWhile_eq_self_iff.mpr hslotted] at hset
  obtain ⟨scratch, hall, hperm⟩ := publishAll_stops hpassed hfails hrest
  refine ⟨{ t₂ with scratch }, by rw [outcome_commit, hstaged]; simp only [hall], hperm, ?_⟩
  have htake : b.queue.take before.length = queued before := by
    rw [← hqueue, queued, List.map_append]
    exact List.take_left' (List.length_map _)
  rw [htake, ← hset.file?_eq_filesAfter hgrows hslotted]
  rfl

theorem commit_stops {b : Batch} {j : Nat} {cause : Fault} (hstop : h.StopsAt b t j cause) :
    ∃ t', outcome (h.commit b) t = (.error (.batchFailed cause), t') ∧ t'.scratch.Perm t.scratch ∧
      t'.file? = t.filesAfter (b.queue.take j) := by
  cases hstop with
  | staging hqueue hpassed hfails => exact commit_stops_staging hqueue hpassed hfails
  | publishing hstaged hpassed hfails => exact commit_stops_publishing hstaged hpassed hfails

/-- Commits fail exactly where a call of theirs does. -/
theorem commit_fails_iff (b : Batch) :
    (∃ f t', outcome (h.commit b) t = (.error f, t')) ↔ ∃ j cause, h.StopsAt b t j cause := by
  constructor
  · rintro ⟨f, t', ho⟩
    obtain ⟨j, cause, hstop, -⟩ := exists_stopsAt ho
    exact ⟨j, cause, hstop⟩
  · rintro ⟨j, cause, hstop⟩
    obtain ⟨t', ho, -⟩ := commit_stops hstop
    exact ⟨_, t', ho⟩

end Hindrance

end MachineBundle
