import Mathlib.Data.List.Infix
import MachineBundle.Proofs.Atomic.Commit
import MachineBundle.Proofs.Tree.Locate

/-!
# Where a commit leaves traces

A commit changes the tree at the locations of its files, and on the way to them where directories are missing. This
holds of a commit that fails as well.
-/

namespace MachineBundle

namespace Filing

open Tree

variable {α β : Type} {home : Location} {S S' : Location → Prop}

/-- Calls that change a tree with a given working directory at some locations only. -/
def Confined (home : Location) (S : Location → Prop) (act : Filing α) : Prop :=
  ∀ t, t.home = home → (outcome act t).2.home = home ∧ ∀ l, (outcome act t).2.node? l ≠ t.node? l → S l

namespace Confined

theorem mono {act : Filing α} (h : Confined home S act) (hs : ∀ l, S l → S' l) : Confined home S' act := by
  intro t ht
  obtain ⟨hhome, hnode⟩ := h t ht
  exact ⟨hhome, fun l hl => hs l (hnode l hl)⟩

/-- Calls after which the nodes are the same leave no trace. -/
theorem of_same {act : Filing α} (h : ∀ t, (outcome act t).2.home = t.home ∧ (outcome act t).2.nodes = t.nodes) :
    Confined home S act := by
  intro t ht
  obtain ⟨hhome, hnodes⟩ := h t
  refine ⟨hhome.trans ht, fun l hl => ?_⟩
  unfold node? at hl
  rw [hnodes] at hl
  exact absurd rfl hl

theorem pure (a : α) : Confined home S (Pure.pure a) :=
  of_same fun _ => ⟨rfl, rfl⟩

theorem throw (f : Fault) : Confined home S (MonadExcept.throw f : Filing α) :=
  of_same fun _ => ⟨rfl, rfl⟩

/-- What two calls after each other change one of them changes. -/
theorem trans {t t₁ t₂ : Tree} (h₁ : t₁.home = home ∧ ∀ l, t₁.node? l ≠ t.node? l → S l)
    (h₂ : t₂.home = home ∧ ∀ l, t₂.node? l ≠ t₁.node? l → S l) :
    t₂.home = home ∧ ∀ l, t₂.node? l ≠ t.node? l → S l := by
  refine ⟨h₂.1, fun l hl => ?_⟩
  by_cases hfirst : t₁.node? l = t.node? l
  · rw [← hfirst] at hl
    exact h₂.2 l hl
  · exact h₁.2 l hfirst

theorem bind {act : Filing α} {next : α → Filing β} (h : Confined home S act) (hn : ∀ a, Confined home S (next a)) :
    Confined home S (act >>= next) := by
  intro t ht
  have h₁ := h t ht
  rw [outcome_bind]
  generalize outcome act t = r at h₁ ⊢
  rcases r with ⟨f | a, t₁⟩
  · exact h₁
  · exact trans h₁ (hn a t₁ h₁.1)

theorem tryCatch {act : Filing α} {handle : Fault → Filing α} (h : Confined home S act)
    (hh : ∀ f, Confined home S (handle f)) : Confined home S (MonadExcept.tryCatch act handle) := by
  intro t ht
  have h₁ := h t ht
  rw [outcome_tryCatch]
  generalize outcome act t = r at h₁ ⊢
  rcases r with ⟨f | a, t₁⟩
  · exact trans h₁ (hh f t₁ h₁.1)
  · exact h₁

end Confined

/-! ## Directories -/

/-- The locations on the way to a path, which its first components spell out. -/
def OnWay (start : Location) (parts : List String) (l : Location) : Prop :=
  ∃ ps, ps <+: parts ∧ l = climb start ps

instance (start : Location) (parts : List String) (l : Location) : Decidable (OnWay start parts l) :=
  decidable_of_iff (∃ ps ∈ parts.inits, l = climb start ps) (by simp only [List.mem_inits, OnWay])

theorem OnWay.mono {start l : Location} {ps qs : List String} (h : OnWay start ps l) (hp : ps <+: qs) :
    OnWay start qs l := by
  obtain ⟨rs, hr, he⟩ := h
  exact ⟨rs, hr.trans hp, he⟩

/-- The way along two parts is the way along the first one, and from there along the second one. -/
theorem OnWay.of_append {start l : Location} {ps qs : List String} (h : OnWay start (ps ++ qs) l) :
    OnWay start ps l ∨ OnWay (climb start ps) qs l := by
  obtain ⟨rs, hrs, rfl⟩ := h
  rcases List.prefix_or_prefix_of_prefix hrs (List.prefix_append ps qs) with hin | ⟨rest, rfl⟩
  · exact .inl ⟨rs, hin, rfl⟩
  · exact .inr ⟨rest, (List.prefix_append_right_inj ps).mp hrs, climb_append start ps rest⟩

/-- Where paths with an anchor start if the working directory is given. -/
def startAt (home : Location) (anchor : Anchor) : Location :=
  if anchor = .none then home else []

theorem start_eq_startAt (t : Tree) (p : Path) : t.start p = startAt t.home p.anchor := rfl

theorem makeDirectory_confined (p : Path) :
    Confined home (· = climb (startAt home p.anchor) p.parts) (makeDirectory p) := by
  intro t ht
  rcases outcome_makeDirectory p t with ⟨f, h⟩ | ⟨d, name, _, hp, h⟩
  · rw [h]
    exact ⟨ht, fun l hl => absurd rfl hl⟩
  · rw [h]
    refine ⟨ht, fun l hl => ?_⟩
    dsimp only at hl
    rw [node?_setNode _ _ _ _ (by simp)] at hl
    split at hl
    · rename_i he
      rw [← he, place_free_eq_locate hp, locate, start_eq_startAt, ht]
    · exact absurd rfl hl

theorem acceptDirectory_confined (p : Path) (f : Fault) : Confined home S (acceptDirectory p f) :=
  .of_same fun t => by
    rw [outcome_acceptDirectory]
    exact ⟨rfl, rfl⟩

theorem makeDirectoriesUp_confined (anchor : Anchor) (ps : List String) :
    Confined home (OnWay (startAt home anchor) ps.reverse) (makeDirectoriesUp anchor ps) := by
  induction ps with
  | nil => exact acceptDirectory_confined _ _
  | cons name above ih =>
    have hmake : Confined home (OnWay (startAt home anchor) (name :: above).reverse)
        (makeDirectory ⟨anchor, (name :: above).reverse⟩) :=
      (makeDirectory_confined ⟨anchor, (name :: above).reverse⟩).mono fun l hl => ⟨_, List.prefix_rfl, hl⟩
    have habove : above.reverse <+: (name :: above).reverse := by
      rw [List.reverse_cons]
      exact List.prefix_append _ _
    refine hmake.tryCatch fun f => ?_
    split
    · refine (ih.mono fun l hl => hl.mono habove).bind fun _ => ?_
      exact hmake.tryCatch fun f => acceptDirectory_confined _ f
    · exact acceptDirectory_confined _ _

theorem makeDirectories_confined (p : Path) :
    Confined home (OnWay (startAt home p.anchor) p.parts) (makeDirectories p) := by
  have h : Confined home _ _ := makeDirectoriesUp_confined p.anchor p.parts.reverse
  rw [List.reverse_reverse] at h
  exact h

/-! ## Scratch files -/

theorem createScratch_confined (target : Path) :
    Confined home (OnWay (startAt home target.anchor) target.parts) (createScratch target) := by
  have hparent : target.parent.parts <+: target.parts := List.dropLast_prefix target.parts
  refine ((makeDirectories_confined target.parent).mono fun l hl => hl.mono hparent).bind fun _ => ?_
  refine .of_same fun t => ?_
  cases hn : hasNull target with
  | true => exact ⟨rfl, rfl⟩
  | false =>
    simp only [Bool.false_eq_true, if_false, outcome_bind, outcome_get]
    split
    · split
      · exact ⟨rfl, rfl⟩
      · exact ⟨rfl, rfl⟩
    · exact ⟨rfl, rfl⟩
    · exact ⟨rfl, rfl⟩

theorem discard_confined (s : Scratch) : Confined home S (discard s) :=
  .of_same fun _ => ⟨rfl, rfl⟩

theorem fill_confined (s : Scratch) (c : ByteArray) : Confined home S (fill s c) :=
  .of_same fun _ => ⟨rfl, rfl⟩

end Filing

namespace Batch

open Tree Filing

variable {home : Location}

theorem stage_confined (w : Pending) :
    Confined home (OnWay (startAt home w.target.anchor) w.target.parts) (stage w) :=
  (createScratch_confined w.target).bind fun s => fill_confined s w.content

/-- The locations on the way to some of the files. -/
def OnWays (home : Location) (queue : List Pending) (l : Location) : Prop :=
  ∃ w ∈ queue, OnWay (startAt home w.target.anchor) w.target.parts l

theorem stageAll_confined (queue : List Pending) : Confined home (OnWays home queue) (stageAll queue) := by
  induction queue with
  | nil => exact .pure []
  | cons w rest ih =>
    have hfirst : Confined home (OnWays home (w :: rest)) (stage w) :=
      (stage_confined w).mono fun l hl => ⟨w, List.mem_cons_self, hl⟩
    have hrest : Confined home (OnWays home (w :: rest)) (stageAll rest) := by
      refine ih.mono fun l hl => ?_
      obtain ⟨v, hv, hl⟩ := hl
      exact ⟨v, List.mem_cons_of_mem w hv, hl⟩
    refine hfirst.bind fun s => ?_
    have hundo : Confined home (OnWays home (w :: rest)) (orUndo (discard s) (stageAll rest)) :=
      hrest.tryCatch fun f => (discard_confined s).bind fun _ => .throw f
    exact hundo.bind fun more => .pure _

theorem published_subset (b : Batch) (t : Tree) : b.published t ⊆ b.queue := by
  unfold published
  split
  · exact (List.takeWhile_sublist _).subset
  · exact List.nil_subset _

theorem mem_of_lastAt {t : Tree} {l : Location} {ws : List Pending} {c : ByteArray} (h : lastAt t l ws = some c) :
    ∃ w ∈ ws, t.slot? w.target = some l := by
  induction ws with
  | nil => cases h
  | cons w rest ih =>
    rw [lastAt, Option.or_eq_some_iff] at h
    rcases h with h | ⟨_, h⟩
    · obtain ⟨v, hv, hl⟩ := ih h
      exact ⟨v, List.mem_cons_of_mem w hv, hl⟩
    · split at h
      · rename_i hl
        exact ⟨w, List.mem_cons_self, hl⟩
      · cases h

/-- What a commit does to a tree, be it to the end or not: files come to stand at their locations, directories on the way
there where nothing stood. -/
theorem commit_footprint {b : Batch} {t t' : Tree} {r : Except Fault Nat} (h : outcome b.commit t = (r, t')) :
    t'.scratch.Perm t.scratch ∧ ∀ l, t'.node? l ≠ t.node? l →
      (∃ w ∈ b.queue, l = t.locate w.target) ∨
      (t.node? l = none ∧ t'.node? l = some .directory ∧ OnWays t.home b.queue l) := by
  obtain ⟨hset, hperm⟩ := commit_settled h
  have hgrows := b.stagedTree_grows t
  refine ⟨hperm, fun l hl => ?_⟩
  cases hlast : lastAt (b.stagedTree t) l (b.published t) with
  | some c =>
    obtain ⟨w, hw, hslot⟩ := mem_of_lastAt hlast
    refine .inl ⟨w, b.published_subset t hw, ?_⟩
    rw [slot?_eq_locate hslot, locate_congr hgrows.home]
  | none =>
    have hfile : t'.file? l = (b.stagedTree t).file? l := by
      rw [hset.file? l, hlast]
      rfl
    have hsame : t'.node? l = (b.stagedTree t).node? l := node?_congr hfile (hset.hasDirectory l)
    rcases hgrows.node l with hn | ⟨hn, hd⟩
    · exact absurd (hsame.trans hn) hl
    · refine .inr ⟨hn, hsame.trans hd, ?_⟩
      exact (stageAll_confined b.queue t rfl).2 l (by rw [← stagedTree, hn, hd]; simp)

/-- After a commit that succeeds there are the directories that were there before, and those that the ways to the files
pass. -/
theorem hasDirectory_of_commit {b : Batch} {t t' : Tree} {n : Nat} (h : outcome b.commit t = (.ok n, t')) {l : Location} :
    t'.hasDirectory l = true ↔
      t.hasDirectory l = true ∨ ∃ w ∈ b.queue, OnWay (t.start w.target) w.target.parent.parts l := by
  obtain ⟨hset, hall⟩ := commit_ok h
  have hgrows := b.stagedTree_grows t
  have hstart : ∀ p, (b.stagedTree t).start p = t.start p := fun p => by
    rw [Tree.start, Tree.start, hgrows.home]
  constructor
  · intro hdir
    by_cases hsame : t'.node? l = t.node? l
    · rw [hasDirectory_iff, hsame, ← hasDirectory_iff] at hdir
      exact .inl hdir
    rw [hset.hasDirectory l] at hdir
    have hfile : ∀ w ∈ b.queue, l ≠ t.locate w.target := by
      rintro w hw rfl
      obtain ⟨m, hm⟩ := Option.isSome_iff_exists.mp (hall w hw).2
      have hslot := slot?_not_directory hm
      rw [slot?_eq_locate hm, locate_congr hgrows.home, hdir] at hslot
      cases hslot
    rcases (commit_footprint h).2 l hsame with ⟨w, hw, he⟩ | ⟨_, _, w, hw, ps, hps, he⟩
    · exact absurd he (hfile w hw)
    · obtain ⟨m, hm⟩ := Option.isSome_iff_exists.mp (hall w hw).2
      have hparts := parts_eq_concat (slot?_eq_some.mp hm).1.1
      refine .inr ⟨w, hw, ps, ?_, he⟩
      rw [hparts] at hps
      rcases List.prefix_concat_iff.mp hps with rfl | hps
      · rw [← hparts] at he
        exact absurd he (hfile w hw)
      · exact hps
  · rw [hset.hasDirectory l]
    rintro (hdir | ⟨w, hw, ps, ⟨rest, hrest⟩, rfl⟩)
    · exact hgrows.hasDirectory l hdir
    · obtain ⟨m, hm⟩ := Option.isSome_iff_exists.mp (hall w hw).2
      obtain ⟨_, d, hd, _⟩ := slot?_eq_some.mp hm
      unfold directory? at hd
      rw [← hrest, reach_append] at hd
      obtain ⟨d', hd', _⟩ := Option.bind_eq_some_iff.mp hd
      have hclimb := reach_eq_climb hd'
      have hstart' : (b.stagedTree t).start w.target.parent = t.start w.target := hstart w.target
      rw [hstart'] at hclimb
      rw [← hclimb]
      exact reach_hasDirectory hd'

end Batch

end MachineBundle
