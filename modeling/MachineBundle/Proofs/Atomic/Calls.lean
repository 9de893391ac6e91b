import Mathlib.Data.List.DropRight
import MachineBundle.Proofs.Atomic.Footprint
import MachineBundle.Proofs.Atomic.Written

/-!
# Calls on one writer

A writer queues files and commits them, as often as it likes. A commit leaves nothing queued, so that it writes what was
queued since the one before.
-/

namespace MachineBundle

namespace Batch

open Tree Filing

/-- A call on a writer. -/
inductive Call where
  | addText (relative text : String)
  | addBytes (relative : String) (content : ByteArray)
  | commit

namespace Call

/-- The writer and the tree after a call. The queue is empty after a commit, be it to the end or not. -/
def step (c : Call) (s : Batch × Tree) : Batch × Tree :=
  match c with
  | addText relative text => (s.1.addText relative text, s.2)
  | addBytes relative content => (s.1.addBytes relative content, s.2)
  | commit => (s.1.emptied, (outcome s.1.commit s.2).2)

/-- The file that a call asks a writer with this base to queue. -/
def asked? (base : Path) : Call → Option Pending
  | addText relative text => some ⟨base.join relative, text.toUTF8⟩
  | addBytes relative content => some ⟨base.join relative, content⟩
  | commit => none

end Call

/-- A new writer and the tree after some calls. -/
def afterCalls (base : Path) (calls : List Call) (t : Tree) : Batch × Tree :=
  calls.foldl (fun s c => c.step s) (Batch.start base, t)

/-- The files that were asked for since the last commit, in order. -/
def askedSince (base : Path) (calls : List Call) : List Pending :=
  (calls.rtakeWhile fun c => (c.asked? base).isSome).filterMap (Call.asked? base)

theorem afterCalls_concat (base : Path) (calls : List Call) (c : Call) (t : Tree) :
    afterCalls base (calls ++ [c]) t = c.step (afterCalls base calls t) := by
  simp [afterCalls, List.foldl_append]

theorem askedSince_concat (base : Path) (calls : List Call) (c : Call) :
    askedSince base (calls ++ [c]) =
      match c.asked? base with
      | some w => askedSince base calls ++ [w]
      | none => [] := by
  unfold askedSince
  rw [List.rtakeWhile_concat]
  cases h : c.asked? base with
  | some w => simp [h]
  | none => rfl

/-- What was asked for before a commit is forgotten after it. -/
theorem askedSince_commit (base : Path) (calls more : List Call) :
    askedSince base (calls ++ .commit :: more) = askedSince base more := by
  induction more using List.reverseRecOn with
  | nil => exact askedSince_concat base calls .commit
  | append_singleton more c ih => rw [← List.cons_append, ← List.append_assoc, askedSince_concat, askedSince_concat, ih]

/-! ## The state of a writer -/

/-- What holds of a writer and the tree after some calls. -/
structure Kept (base : Path) (calls : List Call) (t : Tree) (s : Batch × Tree) : Prop where
  batch : s.1 = ⟨base, askedSince base calls⟩
  home : s.2.home = t.home
  scratch : s.2.scratch.Perm t.scratch

theorem Kept.step {base : Path} {calls : List Call} {t : Tree} {s : Batch × Tree} (h : Kept base calls t s) (c : Call) :
    Kept base (calls ++ [c]) t (c.step s) := by
  obtain ⟨b, t₁⟩ := s
  obtain ⟨rfl, hhome, hscratch⟩ := h
  cases c with
  | addText relative text =>
    refine ⟨?_, hhome, hscratch⟩
    rw [askedSince_concat]
    rfl
  | addBytes relative content =>
    refine ⟨?_, hhome, hscratch⟩
    rw [askedSince_concat]
    rfl
  | commit =>
    refine ⟨?_, (commit_home rfl).trans hhome, (commit_settled rfl).2.trans hscratch⟩
    rw [askedSince_concat]
    rfl

theorem kept_afterCalls (base : Path) (calls : List Call) (t : Tree) : Kept base calls t (afterCalls base calls t) := by
  induction calls using List.reverseRecOn with
  | nil => exact ⟨rfl, rfl, .refl _⟩
  | append_singleton calls c ih =>
    rw [afterCalls_concat]
    exact ih.step c

/-! ## What a commit writes -/

/-- The last of some files whose paths spell out a location. -/
def lastTo? (t : Tree) (l : Location) (queue : List Pending) : Option Pending :=
  (queue.filter fun w => t.locate w.target = l).getLast?

theorem lastTo?_cons (t : Tree) (l : Location) (w : Pending) (queue : List Pending) :
    lastTo? t l (w :: queue) = (lastTo? t l queue).or (if t.locate w.target = l then some w else none) := by
  unfold lastTo?
  by_cases h : t.locate w.target = l
  · rw [List.filter_cons_of_pos (by simpa using h), List.getLast?_cons, if_pos h]
    cases (queue.filter fun w => t.locate w.target = l).getLast? <;> rfl
  · rw [List.filter_cons_of_neg (by simpa using h), if_neg h, Option.or_none]

theorem isSome_lastTo? {t : Tree} {queue : List Pending} {w : Pending} (h : w ∈ queue) :
    (lastTo? t (t.locate w.target) queue).isSome = true := by
  rw [lastTo?, List.getLast?_isSome]
  exact List.ne_nil_of_mem (List.mem_filter.mpr ⟨h, by simp⟩)

theorem lastTo?_eq_none {t : Tree} {l : Location} {queue : List Pending} :
    lastTo? t l queue = none ↔ ∀ w ∈ queue, t.locate w.target ≠ l := by
  simp [lastTo?]

/-- Where all files have slots, the last content at a location is that of the last file there. -/
theorem lastAt_eq_lastTo {t t' : Tree} (hhome : t'.home = t.home) {queue : List Pending}
    (h : ∀ w ∈ queue, (t'.slot? w.target).isSome = true) (l : Location) :
    lastAt t' l queue = (lastTo? t l queue).map Pending.content := by
  induction queue with
  | nil => rfl
  | cons w rest ih =>
    obtain ⟨m, hm⟩ := Option.isSome_iff_exists.mp (h w List.mem_cons_self)
    have hl : m = t.locate w.target := (slot?_eq_locate hm).trans (locate_congr hhome _)
    rw [lastAt, lastTo?_cons, ih fun v hv => h v (List.mem_cons_of_mem w hv), hm, hl, Option.map_or]
    simp only [Option.some.injEq]
    split <;> rfl

/-- What writing some files does to a tree. -/
structure Replaces (queue : List Pending) (t t' : Tree) : Prop where
  /-- Each location that some of the files lead to holds the content of the last one of them. -/
  last : ∀ l w, lastTo? t l queue = some w → t'.node? l = some (.file w.content)
  /-- Everything else is as it was, up to directories on the way to the files that were missing. -/
  frame : ∀ l, lastTo? t l queue = none →
    t'.node? l = t.node? l ∨ (t.node? l = none ∧ t'.node? l = some .directory ∧ OnWays t.home queue l)
  /-- The paths of the files lead to what stands there. -/
  readable : ∀ w ∈ queue, ∃ v, lastTo? t (t.locate w.target) queue = some v ∧ t'.readBytes w.target = .ok v.content

theorem replaces_of_commit {b : Batch} {t t' : Tree} {n : Nat} (h : outcome b.commit t = (.ok n, t')) :
    Replaces b.queue t t' := by
  obtain ⟨hset, hall⟩ := commit_ok h
  have hhome := (b.stagedTree_grows t).home
  have hlast : ∀ l w, lastTo? t l b.queue = some w → t'.file? l = some w.content := by
    intro l w hw
    rw [hset.file? l, lastAt_eq_lastTo hhome (fun w hw => (hall w hw).2) l, hw]
    rfl
  refine ⟨fun l w hw => file?_eq_some.mp (hlast l w hw), fun l hl => ?_, fun w hw => ?_⟩
  · by_cases hsame : t'.node? l = t.node? l
    · exact .inl hsame
    · rcases (commit_footprint h).2 l hsame with ⟨w, hw, he⟩ | hnew
      · exact absurd he.symm (lastTo?_eq_none.mp hl w hw)
      · exact .inr hnew
  · obtain ⟨v, hv⟩ := Option.isSome_iff_exists.mp (isSome_lastTo? (t := t) hw)
    obtain ⟨l, hl⟩ := Option.isSome_iff_exists.mp (hall w hw).2
    have hloc : l = t.locate w.target := (slot?_eq_locate hl).trans (locate_congr hhome _)
    subst hloc
    exact ⟨v, hv, readBytes_of_slot ((hset.slot? w.target).trans hl) (hlast _ v hv) (hall w hw).1⟩

theorem commit_count {b : Batch} {t t' : Tree} {n : Nat} (h : outcome b.commit t = (.ok n, t')) :
    n = b.queue.length := by
  rw [outcome_commit] at h
  rcases hs : outcome (stageAll b.queue) t with ⟨f | staged, t₁⟩ <;> simp only [hs] at h
  · cases h
  · rcases hp : outcome (publishAll staged) t₁ with ⟨f | _, t₂⟩ <;> rw [hp] at h <;> cases h
    rfl

/-- A commit that succeeds after some calls on a writer writes what was asked for since the last commit and returns its
number. No scratch file remains, and nothing of it is left to be written later. -/
theorem commit_replaces (base : Path) (calls : List Call) (t t' : Tree) (n : Nat)
    (h : outcome (afterCalls base calls t).1.commit (afterCalls base calls t).2 = (.ok n, t')) :
    n = (askedSince base calls).length ∧
      Replaces (askedSince base calls) (afterCalls base calls t).2 t' ∧
      t'.scratch.Perm t.scratch ∧
      afterCalls base (calls ++ [.commit]) t = (Batch.start base, t') ∧
      ∀ more, (afterCalls base (calls ++ .commit :: more) t).1.queue = askedSince base more := by
  obtain ⟨hbatch, _, hscratch⟩ := kept_afterCalls base calls t
  have hqueue : (afterCalls base calls t).1.queue = askedSince base calls := by rw [hbatch]
  refine ⟨hqueue ▸ commit_count h, hqueue ▸ replaces_of_commit h, (commit_settled h).2.trans hscratch, ?_, fun more => ?_⟩
  · rw [afterCalls_concat, Call.step, h, hbatch]
    rfl
  · rw [(kept_afterCalls base (calls ++ .commit :: more) t).batch, askedSince_commit]

/-- Calls with a commit among them. One file is written once more after it, under another spelling of its path. -/
def respelling : List Call :=
  [.addText "a" "1", .commit, .addText "d/b" "2", .addBytes "a" ⟨#[0]⟩, .addText "d/../a" "ä"]

theorem respelling_replaces :
    ∃ t', outcome (afterCalls (.ofText "b") respelling .empty).1.commit (afterCalls (.ofText "b") respelling .empty).2 =
        (.ok 3, t') ∧
      Replaces (askedSince (.ofText "b") respelling) (afterCalls (.ofText "b") respelling .empty).2 t' ∧
      lastTo? .empty ["work", "b", "a"] (askedSince (.ofText "b") respelling) =
        some ⟨(Path.ofText "b").join "d/../a", "ä".toUTF8⟩ :=
  ⟨_, rfl, (commit_replaces (.ofText "b") respelling .empty _ 3 rfl).2.1, by decide⟩

/-! ## Commits in a row -/

/-- Batches that are committed one after the other. -/
inductive Committed : List Batch → Tree → Tree → Prop
  | nil (t : Tree) : Committed [] t t
  | cons {b : Batch} {rest : List Batch} {t t₁ t' : Tree} {n : Nat} :
      outcome b.commit t = (.ok n, t₁) → Committed rest t₁ t' → Committed (b :: rest) t t'

/-- All files that some batches hold. -/
def filesOf (batches : List Batch) : List Pending :=
  batches.flatMap queue

theorem lastTo?_congr {t t' : Tree} (h : t'.home = t.home) (l : Location) (queue : List Pending) :
    lastTo? t' l queue = lastTo? t l queue := by
  simp only [lastTo?, locate_congr h]

theorem lastTo?_append (t : Tree) (l : Location) (queue more : List Pending) :
    lastTo? t l (queue ++ more) = (lastTo? t l more).or (lastTo? t l queue) := by
  rw [lastTo?, List.filter_append, List.getLast?_append]
  rfl

theorem Replaces.file? {queue : List Pending} {t t' : Tree} (h : Replaces queue t t') (l : Location) :
    t'.file? l = ((lastTo? t l queue).map Pending.content).or (t.file? l) := by
  cases hl : lastTo? t l queue with
  | some w =>
    rw [file?_eq_some.mpr (h.last l w hl)]
    rfl
  | none =>
    rcases h.frame l hl with hsame | ⟨hnone, hdir, _⟩
    · unfold Tree.file?
      rw [hsame]
      rfl
    · unfold Tree.file?
      rw [hnone, hdir]
      rfl

namespace Committed

variable {b : Batch} {rest batches : List Batch} {t t' : Tree}

theorem home (h : Committed batches t t') : t'.home = t.home := by
  induction h with
  | nil t => rfl
  | cons hc _ ih => exact ih.trans (commit_home hc)

/-- What stands at a location in the end is the last of all files that lead there. -/
theorem file? (h : Committed batches t t') (l : Location) :
    t'.file? l = ((lastTo? t l (filesOf batches)).map Pending.content).or (t.file? l) := by
  induction h with
  | nil t => rfl
  | @cons b rest t t₁ t' n hc _ ih =>
    have hall : filesOf (b :: rest) = b.queue ++ filesOf rest := rfl
    rw [ih, (replaces_of_commit hc).file?, lastTo?_congr (commit_home hc), hall, lastTo?_append, Option.map_or,
      Option.or_assoc]

/-- A path to a file goes on leading there. -/
theorem slot? (h : Committed batches t t') {p : Path} {l : Location} (hl : t.slot? p = some l)
    (hf : (t.file? l).isSome = true) : t'.slot? p = some l := by
  induction h with
  | nil t => exact hl
  | @cons b rest t t₁ t' n hc _ ih =>
    have hgrows := b.stagedTree_grows t
    obtain ⟨hset, _⟩ := commit_ok hc
    have hsome : (t₁.file? l).isSome = true := by
      rw [(replaces_of_commit hc).file?, Option.isSome_or, hf, Bool.or_true]
    refine ih ?_ hsome
    obtain ⟨hp, d, hd, _, he⟩ := slot?_eq_some.mp hl
    have hfile : (b.stagedTree t).hasDirectory l = false := by
      obtain ⟨c, hc⟩ := Option.isSome_iff_exists.mp hf
      have hstaged : (b.stagedTree t).file? l = some c := (hgrows.file?_eq l).trans hc
      unfold hasDirectory
      rw [file?_eq_some.mp hstaged]
    rw [hset.slot?]
    exact slot?_eq_some.mpr ⟨hp, d, hgrows.directory? hd, he ▸ hfile, he⟩

/-- The first of some batches are committed before the others. -/
theorem of_append {before after : List Batch} (h : Committed (before ++ after) t t') :
    ∃ t₁, Committed before t t₁ ∧ Committed after t₁ t' := by
  induction before generalizing t with
  | nil => exact ⟨t, .nil t, h⟩
  | cons b before ih =>
    cases h with
    | cons hc hrest =>
      obtain ⟨t₁, hbefore, hafter⟩ := ih hrest
      exact ⟨t₁, .cons hc hbefore, hafter⟩

end Committed

end Batch

end MachineBundle
