import MachineBundle.Proofs.Outcome
import MachineBundle.Proofs.Tree.Reach

/-!
# What calls on the tree do

Making directories only ever adds directories where nothing stood. Publishing a file changes the file at its slot and
no directory.
-/

namespace MachineBundle

namespace Tree

/-- Some directories may be new where nothing stood; everything else is as it was. -/
structure Grows (t t' : Tree) : Prop where
  home : t'.home = t.home
  node : ∀ l, t'.node? l = t.node? l ∨ t.node? l = none ∧ t'.node? l = some .directory

namespace Grows

theorem refl (t : Tree) : Grows t t :=
  ⟨rfl, fun _ => Or.inl rfl⟩

theorem trans {t₁ t₂ t₃ : Tree} (h : Grows t₁ t₂) (h' : Grows t₂ t₃) : Grows t₁ t₃ := by
  refine ⟨h'.home.trans h.home, fun l => ?_⟩
  rcases h.node l with h₁ | ⟨h₁, h₂⟩
  · rw [← h₁]
    exact h'.node l
  · rcases h'.node l with h₃ | ⟨h₃, _⟩
    · exact Or.inr ⟨h₁, h₃.trans h₂⟩
    · simp [h₂] at h₃

theorem file?_eq {t t' : Tree} (h : Grows t t') (l : Location) : t'.file? l = t.file? l := by
  unfold file?
  rcases h.node l with h₁ | ⟨h₁, h₂⟩
  · rw [h₁]
  · rw [h₁, h₂]

theorem hasDirectory {t t' : Tree} (h : Grows t t') (l : Location) (hd : t.hasDirectory l = true) :
    t'.hasDirectory l = true := by
  rw [hasDirectory_iff] at hd ⊢
  rcases h.node l with h₁ | ⟨h₁, _⟩
  · rw [h₁, hd]
  · simp [hd] at h₁

theorem directory? {t t' : Tree} {p : Path} {d : Location} (h : Grows t t') (hd : t.directory? p = some d) :
    t'.directory? p = some d := by
  unfold Tree.directory? start at hd ⊢
  rw [h.home]
  exact reach_mono h.hasDirectory hd

end Grows

theorem setNode_grows {t : Tree} {l : Location} (h : t.node? l = none) : Grows t (t.setNode l .directory) := by
  have hl : l ≠ [] := by
    rintro rfl
    simp [node?] at h
  refine ⟨rfl, fun m => ?_⟩
  rw [node?_setNode t l m _ hl]
  by_cases hm : l = m
  · subst hm
    rw [if_pos rfl]
    exact Or.inr ⟨h, rfl⟩
  · rw [if_neg hm]
    exact Or.inl rfl

/-! ## Files that are read -/

/-- Where there is a file there is no directory. -/
theorem hasDirectory_of_file? {t : Tree} {l : Location} {c : ByteArray} (h : t.file? l = some c) :
    t.hasDirectory l = false := by
  rw [Bool.eq_false_iff, ne_eq, hasDirectory_iff, file?_eq_some.mp h]
  exact nofun

/-- A file that can be read at a path stands where a file would be written. -/
theorem slot?_of_readBytes {t : Tree} {p : Path} {c : ByteArray} (hempty : p.name ≠ "") (hdots : p.name ≠ "..")
    (h : t.readBytes p = .ok c) : hasNull p = false ∧ ∃ l, t.slot? p = some l ∧ t.file? l = some c := by
  unfold readBytes at h
  split at h
  · cases h
  · rename_i hnull
    refine ⟨Bool.eq_false_iff.mpr hnull, ?_⟩
    split at h
    · rename_i l content hplace
      cases h
      obtain ⟨hnames, d, hd, hq⟩ := place_ok hplace hempty hdots
      unfold placeIn at hq
      split at hq
      · rename_i hnode
        obtain ⟨rfl, rfl⟩ := Place.taken.inj hq
        have hfile := file?_eq_some.mpr hnode
        exact ⟨_, slot?_eq_some.mpr ⟨hnames, d, hd, hasDirectory_of_file? hfile, rfl⟩, hfile⟩
      · cases hq
    · cases h
    · cases h
    · cases h

/-- What has been read can still be read where directories have been added. -/
theorem Grows.readBytes {t t' : Tree} {p : Path} {c : ByteArray} (hgrows : Grows t t') (hempty : p.name ≠ "")
    (hdots : p.name ≠ "..") (h : t.readBytes p = .ok c) : t'.readBytes p = .ok c := by
  obtain ⟨hnull, l, hl, hc⟩ := slot?_of_readBytes hempty hdots h
  obtain ⟨hp, d, hd, -, rfl⟩ := slot?_eq_some.mp hl
  have hc' : t'.file? (d ++ [p.name]) = some c := by rw [hgrows.file?_eq, hc]
  exact readBytes_of_slot (slot?_eq_some.mpr ⟨hp, d, hgrows.directory? hd, hasDirectory_of_file? hc', rfl⟩) hc' hnull
/-! ## A file put in its place -/

/-- A tree after a file has taken its place. -/
def settle (t : Tree) (l : Location) (content : ByteArray) (scratch : List Scratch) : Tree :=
  { t.setNode l (.file content) with scratch }

theorem file?_settle {t : Tree} {l : Location} (hl : l ≠ []) (c : ByteArray) (scratch : List Scratch) (m : Location) :
    (t.settle l c scratch).file? m = if l = m then some c else t.file? m := by
  have h : (t.settle l c scratch).node? m = (t.setNode l (.file c)).node? m := rfl
  unfold file?
  rw [h, node?_setNode t l m _ hl]
  by_cases hm : l = m <;> simp [hm]

theorem hasDirectory_settle {t : Tree} {l : Location} (hl : l ≠ []) (hd : t.hasDirectory l = false) (c : ByteArray)
    (scratch : List Scratch) (m : Location) : (t.settle l c scratch).hasDirectory m = t.hasDirectory m := by
  have h : (t.settle l c scratch).node? m = (t.setNode l (.file c)).node? m := rfl
  by_cases hm : l = m
  · subst hm
    rw [hd]
    simp [hasDirectory, h, node?_setNode t l l _ hl]
  · simp [hasDirectory, h, node?_setNode t l m _ hl, hm]

theorem slot?_settle {t : Tree} {l : Location} (hl : l ≠ []) (hd : t.hasDirectory l = false) (c : ByteArray)
    (scratch : List Scratch) (p : Path) : (t.settle l c scratch).slot? p = t.slot? p := by
  refine slot?_congr ?_ (hasDirectory_settle hl hd c scratch) p
  rfl

end Tree

namespace Filing

open Tree

/-! ## Directories -/

/-- A directory is made in a free place, or the tree stays as it is. -/
theorem outcome_makeDirectory (p : Path) (t : Tree) :
    (∃ f, outcome (makeDirectory p) t = (.error f, t)) ∨
      ∃ d name, hasNull p = false ∧ t.place p = .ok (.free d name) ∧
        outcome (makeDirectory p) t = (.ok (), t.setNode (d ++ [name]) .directory) := by
  unfold makeDirectory
  cases hn : hasNull p with
  | true => exact Or.inl ⟨.nullCharacter, by simp⟩
  | false =>
    cases hp : t.place p with
    | error e => exact Or.inl ⟨_, by simp [outcome_bind, hp]; rfl⟩
    | ok q =>
      cases q with
      | taken l n => exact Or.inl ⟨_, by simp [outcome_bind, hp]; rfl⟩
      | free d name => exact Or.inr ⟨d, name, rfl, rfl, by simp [outcome_bind, hp]⟩

theorem outcome_acceptDirectory (p : Path) (f : Fault) (t : Tree) :
    outcome (acceptDirectory p f) t = (if t.isDirectory p = .ok true then .ok () else .error f, t) := by
  unfold acceptDirectory
  rw [outcome_bind, outcome_get]
  rcases h : t.isDirectory p with e | (_ | _) <;> simp [h]

/-- Whether a call does no more to a tree than to add directories. -/
def Growing {α : Type} (act : Filing α) : Prop :=
  ∀ t, Grows t (outcome act t).2 ∧ (outcome act t).2.scratch = t.scratch

theorem Growing.bind {α β : Type} {act : Filing α} {next : α → Filing β} (h : Growing act)
    (h' : ∀ a, Growing (next a)) : Growing (act >>= next) := by
  intro t
  have h₁ := h t
  rw [outcome_bind]
  generalize outcome act t = r at h₁ ⊢
  rcases r with ⟨f | a, t₁⟩
  · exact h₁
  · exact ⟨h₁.1.trans (h' a t₁).1, (h' a t₁).2.trans h₁.2⟩

theorem Growing.tryCatch {α : Type} {act : Filing α} {handle : Fault → Filing α} (h : Growing act)
    (h' : ∀ f, Growing (handle f)) : Growing (tryCatch act handle) := by
  intro t
  have h₁ := h t
  rw [outcome_tryCatch]
  generalize outcome act t = r at h₁ ⊢
  rcases r with ⟨f | a, t₁⟩
  · exact ⟨h₁.1.trans (h' f t₁).1, (h' f t₁).2.trans h₁.2⟩
  · exact h₁

theorem acceptDirectory_growing (p : Path) (f : Fault) : Growing (acceptDirectory p f) := by
  intro t
  rw [outcome_acceptDirectory]
  exact ⟨Grows.refl t, rfl⟩

theorem makeDirectory_growing (p : Path) : Growing (makeDirectory p) := by
  intro t
  rcases outcome_makeDirectory p t with ⟨f, h⟩ | ⟨d, name, _, hp, h⟩
  · rw [h]
    exact ⟨Grows.refl t, rfl⟩
  · rw [h]
    rw [place_eq] at hp
    split at hp
    · cases hp
    · obtain ⟨_, _, _, _, _, hd⟩ := follow_free hp
      exact ⟨setNode_grows hd, rfl⟩

/-- A directory that has been made is there. -/
theorem isDirectory_of_makeDirectory {p : Path} {t t' : Tree} (h : outcome (makeDirectory p) t = (.ok (), t')) :
    t'.isDirectory p = .ok true := by
  have hg := (makeDirectory_growing p t).1
  simp only [h] at hg
  rcases outcome_makeDirectory p t with ⟨f, hf⟩ | ⟨d, name, hn, hp, ho⟩
  · simp [hf] at h
  · rw [place_eq] at hp
    split at hp
    · cases hp
    · rename_i hl
      obtain ⟨init, hi, h₁, h₂, h₃, h₄⟩ := follow_free hp
      refine isDirectory_eq_true.mpr ⟨hn, Nat.not_le.mp hl, ?_⟩
      simp only [ho, Prod.mk.injEq, true_and] at h
      have hr : t'.reach (t.start p) init = some d := reach_mono hg.hasDirectory h₃
      have hd : t'.hasDirectory (d ++ [name]) = true := by
        rw [← h, hasDirectory_iff, node?_setNode _ _ _ _ (by simp), if_pos rfl]
      have hs : t'.start p = t.start p := by simp [start, hg.home]
      simp only [directory?, hi, reach_append, hs, hr, Option.bind_some,
        reach_singleton (reach_hasDirectory hr) h₁ h₂, hd, if_true, Option.isSome_some]

theorem makeDirectoriesUp_growing (anchor : Anchor) (ps : List String) : Growing (makeDirectoriesUp anchor ps) := by
  induction ps with
  | nil => exact acceptDirectory_growing _ _
  | cons name above ih =>
    refine (makeDirectory_growing _).tryCatch fun f => ?_
    split
    · refine ih.bind fun _ => ?_
      exact (makeDirectory_growing _).tryCatch fun f => acceptDirectory_growing _ f
    · exact acceptDirectory_growing _ _

theorem makeDirectories_growing (p : Path) : Growing (makeDirectories p) :=
  makeDirectoriesUp_growing p.anchor p.parts.reverse

theorem acceptDirectory_ok {p : Path} {f : Fault} {t t' : Tree} (h : outcome (acceptDirectory p f) t = (.ok (), t')) :
    t'.isDirectory p = .ok true := by
  rw [outcome_acceptDirectory] at h
  split at h
  · rename_i hd
    simp only [Prod.mk.injEq, true_and] at h
    rwa [← h]
  · simp at h

theorem isDirectory_of_makeDirectories {p : Path} {t t' : Tree} (h : outcome (makeDirectories p) t = (.ok (), t')) :
    t'.isDirectory p = .ok true := by
  obtain ⟨anchor, ps⟩ := p
  unfold makeDirectories at h
  dsimp only at h
  rw [← List.reverse_reverse ps]
  cases hq : ps.reverse with
  | nil =>
    rw [hq] at h
    exact acceptDirectory_ok h
  | cons name above =>
    simp only [hq, makeDirectoriesUp, outcome_tryCatch] at h
    rcases h₁ : outcome (makeDirectory ⟨anchor, (name :: above).reverse⟩) t with ⟨f | u, t₁⟩
    · simp only [h₁] at h
      split at h
      · obtain ⟨_, t₂, _, h₂⟩ := outcome_bind_eq_ok h
        rw [outcome_tryCatch] at h₂
        rcases h₃ : outcome (makeDirectory ⟨anchor, (name :: above).reverse⟩) t₂ with ⟨f | u, t₃⟩
        · simp only [h₃] at h₂
          exact acceptDirectory_ok h₂
        · simp only [h₃, Prod.mk.injEq] at h₂
          obtain ⟨_, rfl⟩ := h₂
          exact isDirectory_of_makeDirectory h₃
      · exact acceptDirectory_ok h
    · simp only [h₁, Prod.mk.injEq] at h
      obtain ⟨_, rfl⟩ := h
      exact isDirectory_of_makeDirectory h₁

/-! ## Scratch files -/

/-- A scratch file is created in a directory that is there afterwards. -/
theorem createScratch_ok {target : Path} {s : Scratch} {t t' : Tree}
    (h : outcome (createScratch target) t = (.ok s, t')) :
    Grows t t' ∧ t'.scratch = t.scratch ++ [s] ∧ hasNull target = false ∧
      (t'.directory? target.parent).isSome = true ∧ target.parent.text.utf8ByteSize < pathLimit := by
  unfold createScratch at h
  obtain ⟨_, t₁, hm, h⟩ := outcome_bind_eq_ok h
  have hg := makeDirectories_growing target.parent t
  simp only [hm] at hg
  obtain ⟨_, hp, hd⟩ := isDirectory_eq_true.mp (isDirectory_of_makeDirectories hm)
  cases hn : hasNull target with
  | true => simp [hn] at h
  | false =>
    obtain ⟨d, hd'⟩ := Option.isSome_iff_exists.mp hd
    simp only [hn, Bool.false_eq_true, if_false, outcome_bind, outcome_get, place_of_directory hd' hp] at h
    split at h
    · simp at h
    · simp only [outcome_bind, outcome_pure, outcome_set, Prod.mk.injEq, Except.ok.injEq] at h
      obtain ⟨rfl, rfl⟩ := h
      refine ⟨⟨hg.1.home, hg.1.node⟩, by rw [hg.2], rfl, ?_, hp⟩
      rw [directory?_scratch t₁]
      exact hd

theorem createScratch_error {target : Path} {f : Fault} {t t' : Tree}
    (h : outcome (createScratch target) t = (.error f, t')) : Grows t t' ∧ t'.scratch = t.scratch := by
  unfold createScratch at h
  have hg := makeDirectories_growing target.parent t
  rw [outcome_bind] at h
  rcases hm : outcome (makeDirectories target.parent) t with ⟨f' | u, t₁⟩
  · simp only [hm, Prod.mk.injEq] at h hg
    obtain ⟨_, rfl⟩ := h
    exact hg
  · simp only [hm] at h hg
    obtain ⟨_, hp, hd⟩ := isDirectory_eq_true.mp (isDirectory_of_makeDirectories hm)
    obtain ⟨d, hd'⟩ := Option.isSome_iff_exists.mp hd
    cases hn : hasNull target with
    | true =>
      simp only [hn, if_true] at h
      cases h
      exact hg
    | false =>
      simp only [hn, Bool.false_eq_true, if_false, outcome_bind, outcome_get,
        place_of_directory hd' hp] at h
      split at h
      · cases h
        exact hg
      · cases h

theorem outcome_discard (s : Scratch) (t : Tree) :
    outcome (discard s) t = (.ok (), { t with scratch := t.scratch.erase s }) := rfl

theorem outcome_fill (s : Scratch) (c : ByteArray) (t : Tree) :
    outcome (fill s c) t =
      (.ok { s with content := c }, { t with scratch := t.scratch.erase s ++ [{ s with content := c }] }) := rfl

/-! ## Publishing -/

theorem outcome_publish {target : Path} {t : Tree} {l : Location} (h : t.slot? target = some l) (s : Scratch) :
    outcome (publish s target) t =
      (.ok (), t.settle l s.content (t.scratch.erase s)) := by
  obtain ⟨hp, d, hd, hnd, rfl⟩ := slot?_eq_some.mp h
  have hne : ¬(target.name = "" ∨ target.name = "..") := fun h => h.elim hp.1 hp.2.1
  simp only [publish, outcome_bind, outcome_get, if_neg hne, place_in_directory hd hp, placeIn]
  rcases hasDirectory_eq_false hnd with hn | ⟨c, hn⟩
  · simp only [hn, outcome_bind, outcome_set, outcome_discard]
    rfl
  · simp only [hn, outcome_bind, outcome_set, outcome_discard]
    rfl

/-- A path without a slot is refused, and nothing is done. -/
theorem outcome_publish_none {target : Path} {t : Tree} (h : t.slot? target = none) (s : Scratch) :
    ∃ f, outcome (publish s target) t = (.error f, t) := by
  simp only [publish, outcome_bind, outcome_get]
  by_cases hne : target.name = "" ∨ target.name = ".."
  · simp [hne]
  · rw [if_neg hne]
    obtain ⟨h₁, h₂⟩ := not_or.mp hne
    cases hp : t.place target with
    | error e => exact ⟨_, rfl⟩
    | ok q =>
      obtain ⟨hf, d, hd, rfl⟩ := place_ok hp h₁ h₂
      cases hs : t.hasDirectory (d ++ [target.name]) with
      | false =>
        have hl := slot?_eq_some.mpr ⟨hf, d, hd, hs, rfl⟩
        simp [h] at hl
      | true => simp [placeIn, hasDirectory_iff.mp hs]

/-! ## Faults -/

section

variable {q : Fault → Bool}

theorem makeDirectory_failsOnly (hq : ∀ r text, q (.refused r text) = true) {p : Path}
    (hnull : hasNull p = true → q .nullCharacter = true) : FailsOnly q (makeDirectory p) := by
  unfold makeDirectory
  cases hn : hasNull p with
  | true => exact (FailsOnly.throw (hnull hn)).bind fun _ _ _ h => by cases h
  | false =>
    intro t f t' h
    simp only [Bool.false_eq_true, if_false, outcome_bind, outcome_get] at h
    split at h <;> cases h <;> exact hq _ _

theorem acceptDirectory_failsOnly (p : Path) {f : Fault} (hf : q f = true) : FailsOnly q (acceptDirectory p f) := by
  intro t g t' h
  rw [outcome_acceptDirectory] at h
  split at h <;> cases h
  exact hf

theorem makeDirectoriesUp_failsOnly (hq : ∀ r text, q (.refused r text) = true) (anchor : Anchor) {ps : List String}
    (hnull : hasNull ⟨anchor, ps⟩ = true → q .nullCharacter = true) : FailsOnly q (makeDirectoriesUp anchor ps) := by
  induction ps with
  | nil => exact acceptDirectory_failsOnly _ (hq _ _)
  | cons name above ih =>
    have habove : hasNull ⟨anchor, above⟩ = true → q .nullCharacter = true := fun h =>
      hnull (by simp only [hasNull, List.any_cons] at h ⊢; rw [h, Bool.or_true])
    have hall : hasNull ⟨anchor, (name :: above).reverse⟩ = true → q .nullCharacter = true := fun h =>
      hnull (by rwa [hasNull, List.any_reverse] at h)
    refine (makeDirectory_failsOnly hq hall).tryCatch fun f hf => ?_
    split
    · refine (ih habove).bind fun _ _ _ _ => ?_
      exact (makeDirectory_failsOnly hq hall).tryCatch fun f hf => acceptDirectory_failsOnly _ hf
    · exact acceptDirectory_failsOnly _ hf

/-- A scratch file is refused, unless there is something wrong with its path as such. -/
theorem createScratch_failsOnly (hq : ∀ r text, q (.refused r text) = true) {target : Path}
    (hnull : hasNull target = true → q .nullCharacter = true) : FailsOnly q (createScratch target) := by
  have hparent : hasNull target.parent = true → q .nullCharacter = true := by
    intro h
    obtain ⟨part, hpart, hn⟩ := List.any_eq_true.mp h
    exact hnull (List.any_eq_true.mpr ⟨part, List.dropLast_subset _ hpart, hn⟩)
  refine (makeDirectoriesUp_failsOnly hq _ (by rwa [hasNull, List.any_reverse])).bind fun _ _ _ _ => ?_
  cases hn : hasNull target with
  | true => exact (FailsOnly.throw (hnull hn)).bind fun _ _ _ h => by cases h
  | false =>
    intro t f t' h
    simp only [Bool.false_eq_true, if_false, outcome_bind, outcome_get] at h
    split at h
    · split at h <;> cases h
      exact hq _ _
    · cases h
      exact hq _ _
    · cases h
      exact hq _ _

end

end Filing

end MachineBundle
