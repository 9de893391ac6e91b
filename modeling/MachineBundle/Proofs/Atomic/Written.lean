import Mathlib.Data.List.Nodup
import MachineBundle.Proofs.Atomic.Commit
import MachineBundle.Proofs.Tree.Locate

/-!
# What a commit leaves to be read

Files whose names do not lead upwards come to stand below one directory. So each of them is read back as it was
queued, unless two have the same name.
-/

namespace MachineBundle

namespace Tree

theorem reach_of_no_dots {t : Tree} {ps : List String} {here l : Location} (h : t.reach here ps = some l)
    (hd : ".." ∉ ps) : l = here ++ ps := by
  rw [reach_eq_climb h, climb_of_no_dots hd]

/-- A file below a base comes to stand below the directory that the base leads to. -/
theorem slot?_append {t : Tree} {base : Path} {ps : List String} {l : Location}
    (h : t.slot? (base.append ⟨.none, ps⟩) = some l) (hne : ps ≠ []) (hd : ".." ∉ ps) :
    ∃ d, t.directory? base = some d ∧ l = d ++ ps := by
  obtain ⟨_, d, hr, _, rfl⟩ := slot?_eq_some.mp h
  have hp : (base.append ⟨.none, ps⟩).parent = ⟨base.anchor, base.parts ++ ps.dropLast⟩ := by
    simp [Path.append, Path.parent, List.dropLast_append_of_ne_nil hne]
  have hn : (base.append ⟨.none, ps⟩).name = ps.getLast hne := by
    simp [Path.append, Path.name, List.getLast?_append, List.getLast?_eq_some_getLast hne]
  rw [hp] at hr
  unfold directory? at hr
  rw [reach_append] at hr
  obtain ⟨d', hb, hr⟩ := Option.bind_eq_some_iff.mp hr
  refine ⟨d', hb, ?_⟩
  rw [reach_of_no_dots hr fun hm => hd (List.dropLast_subset _ hm), hn, List.append_assoc,
    List.dropLast_append_getLast]

end Tree

namespace Batch

open Tree

theorem lastAt_eq_none {t : Tree} {l : Location} {ws : List Pending} (h : ∀ w ∈ ws, t.slot? w.target ≠ some l) :
    lastAt t l ws = none := by
  induction ws with
  | nil => rfl
  | cons w rest ih =>
    rw [lastAt, ih fun v hv => h v (List.mem_cons_of_mem w hv), if_neg (h w List.mem_cons_self)]
    rfl

/-- A location gets some content if a file is written there. -/
theorem isSome_lastAt {t : Tree} {l : Location} {ws : List Pending} {w : Pending} (hw : w ∈ ws)
    (hl : t.slot? w.target = some l) : (lastAt t l ws).isSome = true := by
  induction ws with
  | nil => cases hw
  | cons v rest ih =>
    rw [lastAt, Option.isSome_or, Bool.or_eq_true]
    rcases List.mem_cons.mp hw with rfl | hw
    · exact .inr (by rw [if_pos hl]; rfl)
    · exact .inl (ih hw)

/-- A location has the content that all files written there have. -/
theorem lastAt_of_forall {t : Tree} {l : Location} {ws : List Pending} {w : Pending} (hw : w ∈ ws)
    (hl : t.slot? w.target = some l) (hall : ∀ v ∈ ws, t.slot? v.target = some l → v.content = w.content) :
    lastAt t l ws = some w.content := by
  have hlast : ∀ c, lastAt t l ws = some c → c = w.content := by
    clear hw
    induction ws with
    | nil =>
      intro c hc
      cases hc
    | cons v rest ih =>
      intro c hc
      rw [lastAt, Option.or_eq_some_iff] at hc
      rcases hc with hc | ⟨_, hc⟩
      · exact ih (fun u hu => hall u (List.mem_cons_of_mem v hu)) c hc
      · split at hc
        · rename_i hv
          cases hc
          exact hall v List.mem_cons_self hv
        · cases hc
  obtain ⟨c, hc⟩ := Option.isSome_iff_exists.mp (isSome_lastAt hw hl)
  rw [hc, hlast c hc]

/-- What is known of the files of a batch before they are written: they go below the base, each to another place. -/
structure Spread (b : Batch) : Prop where
  below : ∀ w ∈ b.queue, ∃ ps, ps ≠ [] ∧ ".." ∉ ps ∧ w.target = b.base.append ⟨.none, ps⟩
  nodup : (b.queue.map Pending.target).Nodup

/-- Two files with the same place are the same. -/
theorem Spread.eq_of_slot {b : Batch} (h : b.Spread) {t : Tree} {w v : Pending} (hw : w ∈ b.queue) (hv : v ∈ b.queue)
    {l : Location} (hl : t.slot? w.target = some l) (hl' : t.slot? v.target = some l) : v = w := by
  refine List.inj_on_of_nodup_map h.nodup hv hw ?_
  obtain ⟨ps, hps, hpd, hwp⟩ := h.below w hw
  obtain ⟨qs, hqs, hqd, hvq⟩ := h.below v hv
  rw [hwp] at hl
  rw [hvq] at hl'
  obtain ⟨d, hd, rfl⟩ := slot?_append hl hps hpd
  obtain ⟨d', hd', he⟩ := slot?_append hl' hqs hqd
  rw [hd] at hd'
  cases hd'
  rw [hwp, hvq, List.append_cancel_left he]

/-- The files of a batch are there after a commit, each as it was queued. -/
theorem readBytes_of_commit {b : Batch} (hb : b.Spread) {t t' : Tree} {n : Nat}
    (h : outcome b.commit t = (.ok n, t')) :
    ∀ w ∈ b.queue, hasNull w.target = false ∧ (t'.slot? w.target).isSome = true ∧
      t'.readBytes w.target = .ok w.content := by
  intro w hw
  obtain ⟨hset, hall⟩ := commit_ok h
  obtain ⟨l, hl⟩ := Option.isSome_iff_exists.mp (hall w hw).2
  have hl' : t'.slot? w.target = some l := (hset.slot? w.target).trans hl
  have hf : t'.file? l = some w.content := by
    rw [hset.file? l, lastAt_of_forall hw hl fun v hv hl' => congrArg Pending.content (hb.eq_of_slot hw hv hl hl')]
    rfl
  exact ⟨(hall w hw).1, by rw [hl']; rfl, readBytes_of_slot hl' hf (hall w hw).1⟩

/-! ## Two commits -/

/-- What is read after a commit depends on what was queued, not on what was there before. -/
theorem readBytes_of_commits {b : Batch} {t₁ t₁' t₂ t₂' : Tree} {n₁ n₂ : Nat} (hhome : t₁.home = t₂.home)
    (h₁ : outcome b.commit t₁ = (.ok n₁, t₁')) (h₂ : outcome b.commit t₂ = (.ok n₂, t₂')) :
    ∀ w ∈ b.queue, ∃ c, t₁'.readBytes w.target = .ok c ∧ t₂'.readBytes w.target = .ok c := by
  obtain ⟨hset₁, hall₁⟩ := commit_ok h₁
  obtain ⟨hset₂, hall₂⟩ := commit_ok h₂
  have hstaged : (b.stagedTree t₁).home = (b.stagedTree t₂).home := by
    rw [(b.stagedTree_grows t₁).home, (b.stagedTree_grows t₂).home, hhome]
  have hslots : ∀ w ∈ b.queue, (b.stagedTree t₁).slot? w.target = (b.stagedTree t₂).slot? w.target := by
    intro w hw
    obtain ⟨l₁, hl₁⟩ := Option.isSome_iff_exists.mp (hall₁ w hw).2
    obtain ⟨l₂, hl₂⟩ := Option.isSome_iff_exists.mp (hall₂ w hw).2
    rw [hl₁, hl₂, slot?_eq_locate hl₁, slot?_eq_locate hl₂, locate_congr hstaged]
  intro w hw
  obtain ⟨l, hl₁⟩ := Option.isSome_iff_exists.mp (hall₁ w hw).2
  have hl₂ : (b.stagedTree t₂).slot? w.target = some l := (hslots w hw).symm.trans hl₁
  obtain ⟨c, hc⟩ := Option.isSome_iff_exists.mp (isSome_lastAt hw hl₁)
  have hf₁ : t₁'.file? l = some c := by
    rw [hset₁.file? l, hc]
    rfl
  have hf₂ : t₂'.file? l = some c := by
    rw [hset₂.file? l, ← lastAt_congr l hslots, hc]
    rfl
  exact ⟨c, readBytes_of_slot ((hset₁.slot? w.target).trans hl₁) hf₁ (hall₁ w hw).1,
    readBytes_of_slot ((hset₂.slot? w.target).trans hl₂) hf₂ (hall₁ w hw).1⟩

/-- A file is where it was queued for if no other file comes to the same place. -/
theorem file?_of_commit_alone {b : Batch} {t t' : Tree} {n : Nat} (h : outcome b.commit t = (.ok n, t'))
    {w : Pending} (hw : w ∈ b.queue)
    (halone : ∀ v ∈ b.queue, t.locate v.target = t.locate w.target → v.content = w.content) :
    t'.file? (t.locate w.target) = some w.content := by
  obtain ⟨hset, hall⟩ := commit_ok h
  obtain ⟨l, hl⟩ := Option.isSome_iff_exists.mp (hall w hw).2
  have hhome := (b.stagedTree_grows t).home
  rw [← locate_congr hhome, ← slot?_eq_locate hl, hset.file? l, lastAt_of_forall hw hl]
  · rfl
  · intro v hv hl'
    refine halone v hv ?_
    rw [← locate_congr hhome, ← locate_congr hhome, ← slot?_eq_locate hl, ← slot?_eq_locate hl']

theorem readBytes_of_commit_alone {b : Batch} {t t' : Tree} {n : Nat} (h : outcome b.commit t = (.ok n, t'))
    {w : Pending} (hw : w ∈ b.queue)
    (halone : ∀ v ∈ b.queue, t.locate v.target = t.locate w.target → v.content = w.content) :
    t'.readBytes w.target = .ok w.content := by
  obtain ⟨hset, hall⟩ := commit_ok h
  obtain ⟨l, hl⟩ := Option.isSome_iff_exists.mp (hall w hw).2
  have hf := file?_of_commit_alone h hw halone
  rw [← locate_congr (b.stagedTree_grows t).home, ← slot?_eq_locate hl] at hf
  exact readBytes_of_slot ((hset.slot? w.target).trans hl) hf (hall w hw).1

/-- A file stays as it was if none comes to its place. -/
theorem file?_of_commit {b : Batch} {t t' : Tree} {r : Except Fault Nat} (h : outcome b.commit t = (r, t'))
    {l : Location} (hnone : ∀ w ∈ b.queue, t.locate w.target ≠ l) : t'.file? l = t.file? l := by
  have hset := (commit_settled h).1
  have hhome := (b.stagedTree_grows t).home
  have hlast : lastAt (b.stagedTree t) l (b.published t) = none := by
    refine lastAt_eq_none fun w hw hl => ?_
    refine hnone w ?_ ?_
    · unfold published at hw
      split at hw
      · exact (List.takeWhile_sublist _).mem hw
      · cases hw
    · rw [← locate_congr hhome]
      exact (slot?_eq_locate hl).symm
  rw [hset.file? l, hlast, (b.stagedTree_grows t).file?_eq l]
  rfl

end Batch

end MachineBundle
