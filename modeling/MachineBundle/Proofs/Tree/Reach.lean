import Mathlib.Data.List.Basic
import MachineBundle.Tree.Basic

/-!
# Where paths lead

A path leads through directories only. So the directory that it leads to, and the place where a file written to it
comes to stand, depend on the directories of the tree alone, not on its files.
-/

namespace MachineBundle

theorem Table.get?_of_not_mem {κ ν : Type} [DecidableEq κ] {t : Table κ ν} {k : κ} (h : ∀ e ∈ t, e.1 ≠ k) :
    t.get? k = none := by
  induction t with
  | nil => rfl
  | cons e r ih =>
    rw [get?, if_neg (h e List.mem_cons_self)]
    exact ih fun e' he' => h e' (List.mem_cons_of_mem e he')

namespace Tree

/-- The content of the file at a location. -/
def file? (t : Tree) (l : Location) : Option ByteArray :=
  match t.node? l with
  | some (.file content) => some content
  | _ => none

/-- Whether a directory stands at a location. -/
def hasDirectory (t : Tree) (l : Location) : Bool :=
  match t.node? l with
  | some .directory => true
  | _ => false

/-- The directory that components lead to. -/
def reach (t : Tree) (here : Location) : List String → Option Location
  | [] => if t.hasDirectory here then some here else none
  | part :: rest =>
    if !t.hasDirectory here then none
    else if part = ".." then reach t here.dropLast rest
    else if nameLimit < part.utf8ByteSize then none
    else reach t (here ++ [part]) rest

/-- The directory that a path leads to. -/
def directory? (t : Tree) (p : Path) : Option Location :=
  t.reach (t.start p) p.parts

/-- Whether a path can name a file as far as its own text is concerned. -/
def namesFile (p : Path) : Prop :=
  p.name ≠ "" ∧ p.name ≠ ".." ∧ p.name.utf8ByteSize ≤ nameLimit ∧ p.text.utf8ByteSize < pathLimit

instance (p : Path) : Decidable (namesFile p) :=
  inferInstanceAs (Decidable (_ ∧ _))

/-- Where a file written to a path comes to stand. There is no such place if a directory stands there. -/
def slot? (t : Tree) (p : Path) : Option Location :=
  if namesFile p then
    (t.directory? p.parent).bind fun d => if t.hasDirectory (d ++ [p.name]) then none else some (d ++ [p.name])
  else none

/-! ## Files and directories -/

theorem file?_eq_some {t : Tree} {l : Location} {c : ByteArray} : t.file? l = some c ↔ t.node? l = some (.file c) := by
  unfold file?
  cases h : t.node? l with
  | none => simp
  | some n => cases n <;> simp

theorem hasDirectory_iff {t : Tree} {l : Location} : t.hasDirectory l = true ↔ t.node? l = some .directory := by
  unfold hasDirectory
  cases h : t.node? l with
  | none => simp
  | some n => cases n <;> simp

theorem hasDirectory_eq_false {t : Tree} {l : Location} (h : t.hasDirectory l = false) :
    t.node? l = none ∨ ∃ c, t.node? l = some (.file c) := by
  unfold hasDirectory at h
  cases hn : t.node? l with
  | none => exact Or.inl rfl
  | some n => cases n with
    | file c => exact Or.inr ⟨c, rfl⟩
    | directory => simp [hn] at h

/-- Files and directories are all that stands at a location. -/
theorem node?_congr {t t' : Tree} {l : Location} (hf : t'.file? l = t.file? l) (hd : t'.hasDirectory l = t.hasDirectory l) :
    t'.node? l = t.node? l := by
  unfold file? at hf
  unfold hasDirectory at hd
  cases h : t.node? l with
  | none => cases h' : t'.node? l with
    | none => rfl
    | some n' => cases n' <;> simp [h, h'] at hf hd
  | some n => cases n with
    | file c => cases h' : t'.node? l with
      | none => simp [h, h'] at hf
      | some n' => cases n' <;> simp_all
    | directory => cases h' : t'.node? l with
      | none => simp [h, h'] at hd
      | some n' => cases n' <;> simp_all

/-- Nothing stands at a location or below it. -/
def IsFree (t : Tree) (l : Location) : Prop :=
  ∀ rest, t.node? (l ++ rest) = none

theorem IsFree.file? {t : Tree} {l : Location} (h : t.IsFree l) (rest : Location) : t.file? (l ++ rest) = none := by
  unfold Tree.file?
  rw [h rest]

/-- A location is free that leads to none of the nodes. -/
theorem isFree_of_nodes {t : Tree} {l : Location} (hl : l ≠ []) (h : ∀ e ∈ t.nodes, ¬l <+: e.1) : t.IsFree l := by
  intro rest
  rw [node?, if_neg (List.append_ne_nil_of_left_ne_nil hl rest)]
  exact Table.get?_of_not_mem fun e he hkey => h e he (hkey ▸ List.prefix_append l rest)

/-! ## Reaching a directory -/

theorem reach_hasDirectory {t : Tree} {ps : List String} {here l : Location} (h : t.reach here ps = some l) :
    t.hasDirectory l = true := by
  induction ps generalizing here with
  | nil =>
    simp only [reach] at h
    split at h
    · cases h; assumption
    · cases h
  | cons part rest ih =>
    simp only [reach] at h
    split at h
    · cases h
    · split at h
      · exact ih h
      · split at h
        · cases h
        · exact ih h

theorem reach_append (t : Tree) (ps qs : List String) (here : Location) :
    t.reach here (ps ++ qs) = (t.reach here ps).bind fun l => t.reach l qs := by
  induction ps generalizing here with
  | nil =>
    cases hd : t.hasDirectory here with
    | true => simp [reach, hd]
    | false => cases qs <;> simp [reach, hd]
  | cons part rest ih =>
    simp only [List.cons_append, reach]
    split
    · rfl
    · split
      · exact ih _
      · split
        · rfl
        · exact ih _

/-- Only the directories of a tree count. -/
theorem reach_congr {t t' : Tree} (h : ∀ l, t'.hasDirectory l = t.hasDirectory l) (ps : List String)
    (here : Location) : t'.reach here ps = t.reach here ps := by
  induction ps generalizing here with
  | nil => simp [reach, h]
  | cons part rest ih => simp [reach, h, ih]

theorem directory?_congr {t t' : Tree} (hh : t'.home = t.home) (h : ∀ l, t'.hasDirectory l = t.hasDirectory l)
    (p : Path) : t'.directory? p = t.directory? p := by
  simp only [directory?, start, hh, reach_congr h]

theorem directory?_scratch (t : Tree) (scratch : List Scratch) (p : Path) :
    ({ t with scratch } : Tree).directory? p = t.directory? p := by
  refine directory?_congr ?_ (fun l => ?_) p <;> rfl

/-- More directories lead to the same places and to further ones. -/
theorem reach_mono {t t' : Tree} (h : ∀ l, t.hasDirectory l = true → t'.hasDirectory l = true) {ps : List String}
    {here l : Location} (hl : t.reach here ps = some l) : t'.reach here ps = some l := by
  induction ps generalizing here with
  | nil =>
    simp only [reach] at hl ⊢
    split at hl
    · rename_i hd; simp [h here hd, hl]
    · cases hl
  | cons part rest ih =>
    simp only [reach] at hl ⊢
    cases hd : t.hasDirectory here with
    | false => simp [hd] at hl
    | true =>
      simp only [hd, h here hd, Bool.not_true, Bool.false_eq_true, if_false] at hl ⊢
      by_cases hp : part = ".."
      · rw [if_pos hp] at hl ⊢
        exact ih hl
      · rw [if_neg hp] at hl ⊢
        by_cases hn : nameLimit < part.utf8ByteSize
        · rw [if_pos hn] at hl
          cases hl
        · rw [if_neg hn] at hl ⊢
          exact ih hl

theorem reach_here {t : Tree} {ps : List String} {here l : Location} (h : t.reach here ps = some l) :
    t.hasDirectory here = true := by
  cases hd : t.hasDirectory here with
  | true => rfl
  | false => cases ps <;> simp [reach, hd] at h

theorem reach_singleton {t : Tree} {d : Location} {name : String} (hd : t.hasDirectory d = true)
    (hne : name ≠ "..") (hn : name.utf8ByteSize ≤ nameLimit) :
    t.reach d [name] = if t.hasDirectory (d ++ [name]) then some (d ++ [name]) else none := by
  simp [reach, hd, hne, Nat.not_lt.mpr hn]

/-! ## Following a path -/

/-- What a name in a directory leads to. -/
def placeIn (t : Tree) (d : Location) (name : String) : Place :=
  match t.node? (d ++ [name]) with
  | some n => .taken (d ++ [name]) n
  | none => .free d name

theorem follow_of_reach {t : Tree} {ps : List String} {here l : Location} (h : t.reach here ps = some l) :
    t.follow here ps = .ok (.taken l .directory) := by
  induction ps generalizing here with
  | nil =>
    have hd := reach_here h
    simp only [reach, hd, if_true, Option.some.injEq] at h
    subst h
    simp [follow, hasDirectory_iff.mp hd]
  | cons part rest ih =>
    have hd := reach_here h
    simp only [reach, hd, Bool.not_true, Bool.false_eq_true, if_false] at h
    simp only [follow, hasDirectory_iff.mp hd]
    by_cases hp : part = ".."
    · rw [if_pos hp] at h ⊢
      exact ih h
    · rw [if_neg hp] at h ⊢
      by_cases hn : nameLimit < part.utf8ByteSize
      · rw [if_pos hn] at h
        cases h
      · rw [if_neg hn] at h ⊢
        have hnode : t.node? (here ++ [part]) ≠ none := by
          rw [hasDirectory_iff.mp (reach_here h)]
          simp
        rw [if_neg fun hr => hnode hr.2]
        exact ih h

theorem reach_of_follow {t : Tree} {ps : List String} {here l : Location}
    (h : t.follow here ps = .ok (.taken l .directory)) : t.reach here ps = some l := by
  induction ps generalizing here with
  | nil =>
    simp only [follow] at h
    split at h
    · rename_i n hn
      cases h
      simp [reach, hasDirectory_iff.mpr hn]
    · cases h
  | cons part rest ih =>
    simp only [follow] at h
    split at h
    · cases h
    · cases h
    · rename_i hn
      simp only [reach, hasDirectory_iff.mpr hn, Bool.not_true, Bool.false_eq_true, if_false]
      by_cases hp : part = ".."
      · rw [if_pos hp] at h ⊢
        exact ih h
      · rw [if_neg hp] at h ⊢
        by_cases hl : nameLimit < part.utf8ByteSize
        · rw [if_pos hl] at h
          cases h
        · rw [if_neg hl] at h ⊢
          split at h
          · cases h
          · exact ih h

/-- After components that lead to a directory the others are followed from there. -/
theorem follow_append {t : Tree} {ps qs : List String} {here d : Location} (h : t.reach here ps = some d)
    (hqs : qs ≠ []) : t.follow here (ps ++ qs) = t.follow d qs := by
  induction ps generalizing here with
  | nil =>
    simp only [reach, reach_here h, if_true, Option.some.injEq] at h
    rw [List.nil_append, h]
  | cons part rest ih =>
    have hd := reach_here h
    simp only [reach, hd, Bool.not_true, Bool.false_eq_true, if_false] at h
    simp only [List.cons_append, follow, hasDirectory_iff.mp hd]
    by_cases hp : part = ".."
    · rw [if_pos hp] at h ⊢
      exact ih h
    · rw [if_neg hp] at h ⊢
      by_cases hl : nameLimit < part.utf8ByteSize
      · rw [if_pos hl] at h
        cases h
      · rw [if_neg hl] at h ⊢
        rw [if_neg fun hr => hqs (List.append_eq_nil_iff.mp hr.1).2]
        exact ih h

/-- A name after components that lead to a directory is looked up there. -/
theorem follow_concat {t : Tree} {ps : List String} {here d : Location} {name : String}
    (h : t.reach here ps = some d) (hne : name ≠ "..") (hn : name.utf8ByteSize ≤ nameLimit) :
    t.follow here (ps ++ [name]) = .ok (t.placeIn d name) := by
  rw [follow_append h (List.cons_ne_nil name [])]
  simp only [follow, hasDirectory_iff.mp (reach_hasDirectory h), if_neg hne, if_neg (Nat.not_lt.mpr hn), placeIn,
    true_and]
  cases t.node? (d ++ [name]) with
  | none => rfl
  | some n => rfl

/-- No directory holds a name that is too long. -/
theorem follow_long_name {t : Tree} {ps : List String} {here d : Location} {name : String}
    (h : t.reach here ps = some d) (hn : nameLimit < name.utf8ByteSize) :
    t.follow here (ps ++ [name]) = .error .nameTooLong := by
  have hne : name ≠ ".." := by
    rintro rfl
    exact absurd hn (by decide)
  rw [follow_append h (List.cons_ne_nil name [])]
  simp only [follow, hasDirectory_iff.mp (reach_hasDirectory h), if_neg hne, if_pos hn]

/-- A name leads somewhere only in a directory. -/
theorem follow_concat_ok {t : Tree} {ps : List String} {here : Location} {name : String} {q : Place}
    (h : t.follow here (ps ++ [name]) = .ok q) (hne : name ≠ "..") :
    ∃ d, t.reach here ps = some d ∧ name.utf8ByteSize ≤ nameLimit := by
  induction ps generalizing here with
  | nil =>
    simp only [List.nil_append, follow] at h
    split at h
    · cases h
    · cases h
    · rename_i hd
      rw [if_neg hne] at h
      by_cases hl : nameLimit < name.utf8ByteSize
      · rw [if_pos hl] at h
        cases h
      · exact ⟨here, by simp [reach, hasDirectory_iff.mpr hd], Nat.not_lt.mp hl⟩
  | cons part rest ih =>
    simp only [List.cons_append, follow] at h
    split at h
    · cases h
    · cases h
    · rename_i hd
      simp only [reach, hasDirectory_iff.mpr hd, Bool.not_true, Bool.false_eq_true, if_false]
      by_cases hp : part = ".."
      · rw [if_pos hp] at h ⊢
        exact ih h
      · rw [if_neg hp] at h ⊢
        by_cases hl : nameLimit < part.utf8ByteSize
        · rw [if_pos hl] at h
          cases h
        · rw [if_neg hl] at h ⊢
          rw [if_neg fun hr => by simp at hr] at h
          exact ih h

/-- A free place is a name that a directory does not hold. -/
theorem follow_free {t : Tree} {ps : List String} {here d : Location} {name : String}
    (h : t.follow here ps = .ok (.free d name)) :
    ∃ init, ps = init ++ [name] ∧ name ≠ ".." ∧ name.utf8ByteSize ≤ nameLimit ∧ t.reach here init = some d ∧
      t.node? (d ++ [name]) = none := by
  induction ps generalizing here with
  | nil =>
    simp only [follow] at h
    split at h <;> cases h
  | cons part rest ih =>
    simp only [follow] at h
    split at h
    · cases h
    · cases h
    · rename_i hn
      have hd := hasDirectory_iff.mpr hn
      by_cases hp : part = ".."
      · rw [if_pos hp] at h
        obtain ⟨init, rfl, h₁, h₂, h₃, h₄⟩ := ih h
        exact ⟨part :: init, rfl, h₁, h₂, by simpa [reach, hd, hp] using h₃, h₄⟩
      · rw [if_neg hp] at h
        by_cases hl : nameLimit < part.utf8ByteSize
        · rw [if_pos hl] at h
          cases h
        · rw [if_neg hl] at h
          split at h
          · rename_i hr
            cases h
            exact ⟨[], by simp [hr.1], hp, Nat.not_lt.mp hl, by simp [reach, hd], hr.2⟩
          · obtain ⟨init, rfl, h₁, h₂, h₃, h₄⟩ := ih h
            exact ⟨part :: init, rfl, h₁, h₂, by simpa [reach, hd, hp, hl] using h₃, h₄⟩

/-! ## The places of paths -/

theorem parts_eq_concat {p : Path} (h : p.name ≠ "") : p.parts = p.parent.parts ++ [p.name] := by
  unfold Path.name at h ⊢
  cases hl : p.parts.getLast? with
  | none => simp [hl] at h
  | some last =>
    obtain ⟨ys, hy⟩ := List.getLast?_eq_some_iff.mp hl
    simp [Path.parent, hy]

theorem place_of_directory {t : Tree} {p : Path} {d : Location} (h : t.directory? p = some d)
    (hp : p.text.utf8ByteSize < pathLimit) : t.place p = .ok (.taken d .directory) := by
  rw [place_eq, if_neg (Nat.not_le.mpr hp)]
  exact follow_of_reach h

theorem place_in_directory {t : Tree} {p : Path} {d : Location} (h : t.directory? p.parent = some d)
    (hp : namesFile p) : t.place p = .ok (t.placeIn d p.name) := by
  obtain ⟨h₁, h₂, h₃, h₄⟩ := hp
  rw [place_eq, if_neg (Nat.not_le.mpr h₄), parts_eq_concat h₁]
  exact follow_concat h h₂ h₃

theorem place_ok {t : Tree} {p : Path} {q : Place} (h : t.place p = .ok q) (h₁ : p.name ≠ "") (h₂ : p.name ≠ "..") :
    namesFile p ∧ ∃ d, t.directory? p.parent = some d ∧ q = t.placeIn d p.name := by
  have hc := h
  rw [place_eq] at h
  split at h
  · cases h
  · rename_i hp
    rw [parts_eq_concat h₁] at h
    obtain ⟨d, hd, hn⟩ := follow_concat_ok h h₂
    have hf : namesFile p := ⟨h₁, h₂, hn, Nat.not_le.mp hp⟩
    have hd' : t.directory? p.parent = some d := hd
    rw [place_in_directory hd' hf] at hc
    cases hc
    exact ⟨hf, d, hd', rfl⟩

theorem slot?_eq_some {t : Tree} {p : Path} {l : Location} :
    t.slot? p = some l ↔
      namesFile p ∧ ∃ d, t.directory? p.parent = some d ∧ t.hasDirectory (d ++ [p.name]) = false ∧
        l = d ++ [p.name] := by
  unfold slot?
  by_cases hp : namesFile p
  · rw [if_pos hp]
    cases hd : t.directory? p.parent with
    | none => simp
    | some d =>
      cases hs : t.hasDirectory (d ++ [p.name]) with
      | true => simp [hp, hs]
      | false =>
        simp only [Option.bind_some, hs, Bool.false_eq_true, if_false, Option.some.injEq, hp, true_and,
          exists_eq_left']
        exact eq_comm
  · simp [hp]

theorem slot?_congr {t t' : Tree} (hh : t'.home = t.home) (h : ∀ l, t'.hasDirectory l = t.hasDirectory l) (p : Path) :
    t'.slot? p = t.slot? p := by
  simp only [slot?, directory?_congr hh h, h]

theorem slot?_scratch (t : Tree) (scratch : List Scratch) (p : Path) :
    ({ t with scratch } : Tree).slot? p = t.slot? p := by
  have hh : ({ t with scratch } : Tree).home = t.home := rfl
  exact slot?_congr hh (fun _ => rfl) p

theorem slot?_ne_root {t : Tree} {p : Path} {l : Location} (h : t.slot? p = some l) : l ≠ [] := by
  obtain ⟨_, d, _, _, rfl⟩ := slot?_eq_some.mp h
  simp

theorem slot?_not_directory {t : Tree} {p : Path} {l : Location} (h : t.slot? p = some l) :
    t.hasDirectory l = false := by
  obtain ⟨_, d, _, hd, rfl⟩ := slot?_eq_some.mp h
  exact hd

/-! ## Queries -/

theorem isDirectory_eq_true {t : Tree} {p : Path} :
    t.isDirectory p = .ok true ↔
      hasNull p = false ∧ p.text.utf8ByteSize < pathLimit ∧ (t.directory? p).isSome = true := by
  constructor
  · intro h
    unfold isDirectory look at h
    cases hn : hasNull p with
    | true => simp [hn, Except.map] at h
    | false =>
      simp only [hn, Bool.false_eq_true, if_false] at h
      rw [place_eq] at h
      by_cases hp : pathLimit ≤ p.text.utf8ByteSize
      · simp [hp, Except.map] at h
      · rw [if_neg hp] at h
        refine ⟨rfl, Nat.not_le.mp hp, ?_⟩
        cases hf : t.follow (t.start p) p.parts with
        | error e => cases e <;> simp [hf, Except.map] at h
        | ok q =>
          cases q with
          | free d name => simp [hf, Except.map] at h
          | taken l n =>
            cases n with
            | file c => simp [hf, Except.map] at h
            | directory => simp [directory?, reach_of_follow hf]
  · rintro ⟨hn, hp, hd⟩
    obtain ⟨d, hd⟩ := Option.isSome_iff_exists.mp hd
    simp [isDirectory, look, hn, place_of_directory hd hp, Except.map]

theorem readBytes_of_slot {t : Tree} {p : Path} {l : Location} {c : ByteArray} (hl : t.slot? p = some l)
    (hc : t.file? l = some c) (hn : hasNull p = false) : t.readBytes p = .ok c := by
  obtain ⟨hp, d, hd, _, rfl⟩ := slot?_eq_some.mp hl
  simp [readBytes, hn, place_in_directory hd hp, placeIn, file?_eq_some.mp hc]

end Tree

end MachineBundle
