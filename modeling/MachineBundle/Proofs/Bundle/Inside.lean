import MachineBundle.Proofs.Atomic.Footprint
import MachineBundle.Proofs.Bundle.Replaced

/-!
# Exporting into a destination

An export leaves the tree outside its destination alone as long as the names of states do not lead above the
destination. A name with slashes and dots in it can lead there.
-/

namespace MachineBundle

/-! ## Paths that stay below -/

/-- Whether components that start some levels below a place never lead above it. -/
def descends : Nat → List String → Bool
  | _, [] => true
  | 0, part :: rest => part ≠ ".." && descends 1 rest
  | depth + 1, part :: rest => if part = ".." then descends depth rest else descends (depth + 2) rest

theorem climb_of_descends {ps : List String} {base extra : Location} (h : descends extra.length ps = true) :
    base <+: climb (base ++ extra) ps := by
  induction ps generalizing extra with
  | nil => exact List.prefix_append base extra
  | cons part rest ih =>
    cases extra using List.reverseRecOn with
    | nil =>
      rw [List.length_nil, descends, Bool.and_eq_true, decide_eq_true_eq] at h
      rw [climb, if_neg h.1, List.append_nil]
      exact ih (by simpa using h.2)
    | append_singleton extra last =>
      rw [List.length_append, List.length_singleton, descends] at h
      rw [climb]
      split at h
      · rename_i hp
        rw [if_pos hp, ← List.append_assoc, List.dropLast_concat]
        exact ih h
      · rename_i hp
        rw [if_neg hp, List.append_assoc]
        exact ih (by simpa using h)

theorem descends_of_start {ps qs : List String} {depth : Nat} (h : descends depth ps = true) (hq : qs <+: ps) :
    descends depth qs = true := by
  induction qs generalizing depth ps with
  | nil => cases depth <;> rfl
  | cons q qs ih =>
    obtain ⟨rest, rfl, hrest⟩ := List.cons_prefix_iff.mp hq
    cases depth with
    | zero =>
      rw [descends, Bool.and_eq_true] at h ⊢
      exact ⟨h.1, ih h.2 hrest⟩
    | succ depth =>
      rw [descends] at h ⊢
      split at h
      · rename_i hp
        rw [if_pos hp]
        exact ih h hrest
      · rename_i hp
        rw [if_neg hp]
        exact ih h hrest

/-- Components that never lead above a place lead to that place or below it. -/
theorem climb_eq_append {ps : List String} (h : descends 0 ps = true) (base : Location) :
    ∃ rest, climb base ps = base ++ rest := by
  have hbelow : base <+: climb (base ++ []) ps := climb_of_descends h
  obtain ⟨rest, he⟩ := hbelow
  rw [List.append_nil] at he
  exact ⟨rest, he.symm⟩

namespace Path

/-- A path without an anchor that names something below where it starts, and leads nowhere else on its way. -/
structure StaysBelow (p : Path) : Prop where
  anchor : p.anchor = .none
  name_ne : p.name ≠ ""
  name_ne_dots : p.name ≠ ".."
  descends : descends 0 p.parent.parts = true

variable {base p : Path}

theorem StaysBelow.append (h : p.StaysBelow) :
    base.append p = ⟨base.anchor, base.parts ++ (p.parent.parts ++ [p.name])⟩ := by
  rw [← Tree.parts_eq_concat h.name_ne, Path.append, if_pos h.anchor]

/-- What such a path names lies below the place that it starts from. -/
theorem StaysBelow.locate (h : p.StaysBelow) (t : Tree) :
    ∃ rest, rest ≠ [] ∧ t.locate (base.append p) = t.locate base ++ rest := by
  obtain ⟨rest, he⟩ := climb_eq_append h.descends (t.locate base)
  refine ⟨rest ++ [p.name], by simp, ?_⟩
  calc t.locate (base.append p)
    _ = climb (t.locate base) (p.parent.parts ++ [p.name]) := by
      rw [h.append]
      exact climb_append _ _ _
    _ = t.locate base ++ (rest ++ [p.name]) := by rw [climb_concat _ _ h.name_ne_dots, he, List.append_assoc]

/-- On the way to what such a path names, one is on the way to the place that it starts from, or below it. -/
theorem StaysBelow.onWay (h : p.StaysBelow) (t : Tree) {l : Location}
    (hl : Filing.OnWay (t.start base) (base.append p).parts l) :
    Filing.OnWay (t.start base) base.parts l ∨ ∃ rest, rest ≠ [] ∧ l = t.locate base ++ rest := by
  rw [h.append] at hl
  rcases hl.of_append with hl | ⟨qs, hqs, rfl⟩
  · exact .inl hl
  -- The rest of the way leads down from the place that the path starts from.
  obtain ⟨rest, he⟩ : ∃ rest, climb (t.locate base) qs = t.locate base ++ rest := by
    rcases List.prefix_concat_iff.mp hqs with rfl | hqs
    · obtain ⟨rest, he⟩ := climb_eq_append h.descends (t.locate base)
      exact ⟨rest ++ [p.name], by rw [climb_concat _ _ h.name_ne_dots, he, List.append_assoc]⟩
    · exact climb_eq_append (descends_of_start h.descends hqs) (t.locate base)
  cases rest with
  | nil => exact .inl ⟨base.parts, List.prefix_rfl, he.trans (List.append_nil _)⟩
  | cons part rest => exact .inr ⟨part :: rest, by simp, he⟩

theorem staysBelow_name {n : String} (h : IsName n) (hd : n ≠ "..") : (ofText n).StaysBelow := by
  rw [ofText_name h]
  refine ⟨rfl, ?_, hd, rfl⟩
  rintro rfl
  exact absurd h.isComponent (by decide)

/-! ## Names without slashes -/

theorem not_mem_pieces {cs : List Char} : ∀ piece ∈ pieces cs, '/' ∉ piece := by
  induction cs with
  | nil =>
    intro piece hp
    rw [List.mem_singleton.mp hp]
    exact List.not_mem_nil
  | cons c r ih =>
    rw [pieces]
    split
    · exact List.forall_mem_cons.mpr ⟨List.not_mem_nil, ih⟩
    · rename_i hc
      cases hr : pieces r with
      | nil => simpa [Text.consFirst] using Ne.symm hc
      | cons piece more =>
        rw [hr, List.forall_mem_cons] at ih
        exact List.forall_mem_cons.mpr ⟨List.not_mem_cons_of_ne_of_not_mem (Ne.symm hc) ih.1, ih.2⟩

theorem stemOf_subset (cs : List Char) : stemOf cs ⊆ cs := by
  unfold stemOf
  rw [List.span_eq_takeWhile_dropWhile]
  dsimp only
  split
  · rename_i after c before _ hrest
    intro d hd
    have hmem : d ∈ cs.reverse.dropWhile (· != '.') := by
      rw [hrest]
      exact List.mem_cons_of_mem _ (List.mem_reverse.mp hd)
    exact List.mem_reverse.mp ((List.dropWhile_sublist _).subset hmem)
  · exact List.Subset.refl cs

/-- No component has a slash in it. -/
def IsSplit (p : Path) : Prop :=
  ∀ part ∈ p.parts, '/' ∉ part.toList

theorem isSplit_ofText (text : String) : (ofText text).IsSplit := by
  intro part hpart
  obtain ⟨piece, hp, rfl⟩ := List.mem_map.mp hpart
  rw [String.toList_ofList]
  exact not_mem_pieces piece (List.mem_filter.mp hp).1

theorem IsSplit.join {p : Path} (h : p.IsSplit) (text : String) : (p.join text).IsSplit := by
  unfold Path.join Path.append
  split
  · exact fun part hpart => (List.mem_append.mp hpart).elim (h part) (isSplit_ofText text part)
  · exact isSplit_ofText text

theorem IsSplit.not_mem_stem {p : Path} (h : p.IsSplit) : '/' ∉ p.stem.toList := by
  have hname : '/' ∉ p.name.toList := by
    unfold name
    cases hl : p.parts.getLast? with
    | none => simp
    | some last => exact h last (List.mem_of_getLast? hl)
  unfold stem
  rw [String.toList_ofList]
  exact fun hmem => hname (stemOf_subset _ hmem)

/-- There is no slash in the stem of a path that is given as a text. -/
theorem not_mem_stem (text : String) : '/' ∉ (ofText text).stem.toList :=
  (isSplit_ofText text).not_mem_stem

end Path

namespace Export

open Bundle Filing

/-! ## The files of a bundle -/

/-- Where the files of a state are, as seen from the bundle. -/
def stateFolder (name : String) : List String :=
  (Path.ofText (Binding.stateHeaderFile name)).parent.parts

theorem plain_of_suffix (cs : List Char) {suffix : String} (h : FileName suffix) :
    ∃ c ∈ cs ++ suffix.toList, Text.isPlain c = true := by
  obtain ⟨c, hc, hp⟩ := h.plain
  exact ⟨c, List.mem_append_right _ hc, hp⟩

/-- The files of a state are all in one directory. -/
theorem parts_stateFile (name : String) : ∃ last, ∀ suffix, FileName suffix →
    (Path.ofText (Binding.stateStem name ++ suffix)).parts =
      stateFolder name ++ [String.ofList (last ++ suffix.toList)] := by
  obtain ⟨init, last, hparts⟩ := Path.parts_ofText_append (Binding.stateStem name)
  have hall : ∀ suffix, FileName suffix → (Path.ofText (Binding.stateStem name ++ suffix)).parts =
      init ++ [String.ofList (last ++ suffix.toList)] := fun suffix h =>
    hparts suffix h.isName.noSlash (Path.isComponent_of_plain (plain_of_suffix last h))
  have hfolder : stateFolder name = init := by
    unfold stateFolder Path.parent Binding.stateHeaderFile
    rw [hall ".h" (FileName.ofList ".h".toList (by decide)), List.dropLast_concat]
  rw [hfolder]
  exact ⟨last, hall⟩

theorem staysBelow_stateFile {name : String} (h : descends 0 (stateFolder name) = true) {suffix : String}
    (hs : FileName suffix) : (Path.ofText (Binding.stateStem name ++ suffix)).StaysBelow := by
  obtain ⟨last, hparts⟩ := parts_stateFile name
  have hp := hparts suffix hs
  have hplain : ∃ c ∈ (Path.ofText (Binding.stateStem name ++ suffix)).name.toList, Text.isPlain c = true := by
    simpa [Path.name, hp] using plain_of_suffix last hs
  refine ⟨?_, ?_, Path.ne_dots_of_plain hplain, ?_⟩
  · refine Path.anchorOf_of_head ?_
    simp [Binding.stateStem]
  · intro he
    rw [he] at hplain
    obtain ⟨c, hc, -⟩ := hplain
    cases hc
  · simpa [Path.parent, hp] using h

theorem fileName_implementationSuffix (b : Binding) : FileName b.implementationSuffix := by
  cases b <;> exact FileName.ofList _ (by decide)

section

variable {P : String → Prop} {m : Machine}

/-- What holds of names that begin with the stem of a state holds of the names of its files. -/
theorem forall_mem_stateFiles {plan : Source.MachinePlan} {s : Source.StatePlan}
    (h : ∀ suffix, FileName suffix → P (Binding.stateStem s.name ++ suffix)) : ∀ f ∈ stateFiles m plan s, P f.1 := by
  have hend : ∀ c ∈ ".expr".toList, Text.isPlain c = true ∨ c = '.' := by decide
  have hguard : ∀ i : Nat, FileName ("_Transition_" ++ (toString i ++ ".expr")) := fun i =>
    (FileName.ofList _ (by decide)).append fun c hc => by
      rw [String.toList_append, List.mem_append] at hc
      exact hc.elim (fun h => .inl (Text.PlainText.ofNat i c h)) (hend c)
  unfold stateFiles sectionFiles Binding.stateSectionFiles
  simp only [List.forall_mem_append, List.forall_mem_cons, List.forall_mem_map, List.not_mem_nil, false_implies,
    implies_true, and_true]
  refine ⟨⟨⟨h _ (FileName.ofList _ (by decide)), h _ (fileName_implementationSuffix _)⟩, ?_⟩, ?_⟩
  · and_intros
    all_goals exact h _ (FileName.ofList _ (by decide))
  · intro t _
    have hname : Binding.guardFile s.name t.index =
        Binding.stateStem s.name ++ ("_Transition_" ++ (toString t.index ++ ".expr")) := by
      unfold Binding.guardFile
      rw [String.append_assoc, String.append_assoc]
      rfl
    rw [textFile, hname]
    exact h _ (hguard t.index)

/-- What holds of fixed names, and of those that begin with the stem of the machine or of a state, holds of the names of
all files. -/
theorem forall_mem_files {b : Binding} {name : String} {isSuspensible : Bool} (hfixed : ∀ n, FileName n → P n)
    (hstem : ∀ suffix, FileName suffix → P (b.stem name ++ suffix))
    (hstate : ∀ s ∈ m.graph.listedStates, ∀ suffix, FileName suffix → P (Binding.stateStem s.name ++ suffix)) :
    ∀ f ∈ files m b name isSuspensible, P f.1 := by
  unfold files sectionFiles Binding.sectionFiles
  simp only [List.forall_mem_append, List.forall_mem_cons, List.forall_mem_map, List.not_mem_nil, false_implies,
    implies_true, and_true]
  refine ⟨⟨⟨⟨⟨hfixed _ fileName_languageFile, hfixed _ fileName_statesFile⟩, ?_⟩, ?_⟩, ?_, ?_⟩, ?_⟩
  · intro f hf
    obtain ⟨layout, _, rfl⟩ := Option.map_eq_some_iff.mp (Option.mem_toList.mp hf)
    exact hfixed _ fileName_windowLayoutFile
  · refine ⟨hfixed _ (FileName.ofList _ (by decide)), ?_, ?_, ?_⟩
    all_goals exact hstem _ (FileName.ofList _ (by decide))
  · exact hstem _ (FileName.ofList _ (by decide))
  · exact hstem _ (fileName_implementationSuffix b)
  · intro f hf
    obtain ⟨s, hs, hf⟩ := List.mem_flatMap.mp hf
    obtain ⟨state, hmem, rfl⟩ := List.mem_map.mp hs
    exact forall_mem_stateFiles (hstate state hmem) f hf

end

theorem staysBelow_append {s suffix : String} (hs : '/' ∉ s.toList) (h : FileName suffix) :
    (Path.ofText (s ++ suffix)).StaysBelow := by
  have hplain : ∃ c ∈ (s ++ suffix).toList, Text.isPlain c = true := by
    rw [String.toList_append]
    exact plain_of_suffix s.toList h
  refine Path.staysBelow_name ⟨Path.isComponent_of_plain hplain, ?_⟩ (Path.ne_dots_of_plain hplain)
  rw [String.toList_append, List.mem_append, not_or]
  exact ⟨hs, h.isName.noSlash⟩

theorem not_mem_bindingStem {b : Binding} {name : String} (h : '/' ∉ name.toList) : '/' ∉ (b.stem name).toList := by
  cases b <;> simpa [Binding.stem] using h

/-- If the files of states are in the bundle, all files are. -/
theorem staysBelow_files {m : Machine} {b : Binding} {name : String} {isSuspensible : Bool} (hname : '/' ∉ name.toList)
    (h : ∀ s ∈ m.graph.listedStates, descends 0 (stateFolder s.name) = true) :
    ∀ f ∈ files m b name isSuspensible, (Path.ofText f.1).StaysBelow := by
  refine forall_mem_files (P := fun n => (Path.ofText n).StaysBelow) (fun n hn => ?_) (fun suffix hs => ?_)
    fun s hs suffix hsuffix => ?_
  · exact Path.staysBelow_name hn.isName hn.ne_dots
  · exact staysBelow_append (not_mem_bindingStem hname) hs
  · exact staysBelow_stateFile (h s hs) hsuffix

variable {m : Machine} {b : Binding} {o : Options} {destination : Path} {scene scene' : Scene}

/-- An export changes the tree by committing its files only. -/
theorem machine_tree {r : Except Fault Report} (h : outcome (machine o m destination b) scene = (r, scene')) :
    scene'.tree = scene.tree ∨
      ∃ r', outcome (batchOf destination (files m b destination.stem o.isSuspensible)).commit scene.tree =
        (r', scene'.tree) := by
  unfold machine writeFiles at h
  rw [foldl_start, outcome_bind, outcome_query] at h
  cases ht : checkTemplates o.templates b with
  | error f =>
    rw [ht] at h
    exact .inl (congrArg Scene.tree (congrArg Prod.snd h)).symm
  | ok _ =>
    rw [ht] at h
    dsimp only at h
    rw [outcome_bind, outcome_bind, outcome_query] at h
    generalize batchOf destination (files m b destination.stem o.isSuspensible) = batch at h ⊢
    cases hp : batch.pending with
    | error f =>
      rw [hp] at h
      exact .inl (congrArg Scene.tree (congrArg Prod.snd h)).symm
    | ok names =>
      rw [hp] at h
      dsimp only at h
      rw [outcome_bind, outcome_file] at h
      generalize outcome batch.commit scene.tree = result at h ⊢
      obtain ⟨f | n, tree⟩ := result
      · exact .inr ⟨.error f, by rw [← congrArg Scene.tree (congrArg Prod.snd h)]⟩
      · exact .inr ⟨.ok n, by rw [← congrArg Scene.tree (congrArg Prod.snd h)]; rfl⟩

/-- An export leaves the tree outside its destination as it was, be it done or given up, as long as no name of a state
leads above the bundle; directories on the way to the destination come to be where nothing stood. -/
theorem machine_stays_inside (o : Options) (m : Machine) (text : String) (b : Binding) (scene scene' : Scene)
    (r : Except Fault Report) (hnames : ∀ s ∈ m.graph.listedStates, descends 0 (stateFolder s.name) = true)
    (h : outcome (machine o m (.ofText text) b) scene = (r, scene')) :
    scene'.tree.scratch.Perm scene.tree.scratch ∧ ∀ l, scene'.tree.node? l ≠ scene.tree.node? l →
      (∃ rest, rest ≠ [] ∧ l = scene.tree.locate (.ofText text) ++ rest) ∨
      (scene.tree.node? l = none ∧ scene'.tree.node? l = some .directory ∧
        OnWay (scene.tree.start (.ofText text)) (Path.ofText text).parts l) := by
  rcases machine_tree h with he | ⟨r', hc⟩
  · rw [he]
    exact ⟨.refl _, fun l hl => absurd rfl hl⟩
  obtain ⟨hperm, hfoot⟩ := Batch.commit_footprint hc
  have hbelow : ∀ f ∈ files m b (Path.ofText text).stem o.isSuspensible, (Path.ofText f.1).StaysBelow :=
    staysBelow_files (Path.not_mem_stem text) hnames
  refine ⟨hperm, fun l hl => ?_⟩
  rcases hfoot l hl with ⟨w, hw, rfl⟩ | ⟨hnone, hdir, w, hw, hway⟩
  · obtain ⟨f, hf, rfl⟩ := List.mem_map.mp hw
    exact .inl ((hbelow f hf).locate scene.tree)
  · obtain ⟨f, hf, rfl⟩ := List.mem_map.mp hw
    have hanchor : ((Path.ofText text).join f.1).anchor = (Path.ofText text).anchor := by
      rw [Path.join, (hbelow f hf).append]
    rw [hanchor] at hway
    rcases (hbelow f hf).onWay scene.tree hway with hon | hin
    · exact .inr ⟨hnone, hdir, hon⟩
    · exact .inl hin

/-! ## Names with slashes -/

/-- A bundle with one state. -/
def bundleWith (state : String) : Tree where
  home := ["work"]
  nodes :=
    [(["work"], .directory), (["work", "A"], .directory), (["work", "A", "Language"], .file "c".toUTF8),
      (["work", "A", "States"], .file (state ++ "\n").toUTF8)]
  scratch := []

/-- The machine in this bundle. -/
def machineWith (state : String) : Machine where
  name := "A"
  binding := .c
  graph := .ofRecords [⟨.generated 1, state⟩] [] none
  boilerplate := .blank
  stateBoilerplate := [(.generated 1, .blank)]
  stateLayout := Machine.gridLayout [⟨.generated 1, state⟩]
  windowLayout := none

/-- Whether an export of this machine leaves a file at a location. -/
def leaves (state : String) (l : Location) : Bool :=
  match outcome (machine ⟨none, true⟩ (machineWith state) (.ofText "out/M") .c) ⟨bundleWith state, ⟨.start, []⟩⟩ with
  | (.ok _, scene) => (scene.tree.file? l).isSome
  | (.error _, _) => false

theorem exists_of_leaves {state : String} {l : Location} (h : leaves state l = true) :
    ∃ report scene, outcome (machine ⟨none, true⟩ (machineWith state) (.ofText "out/M") .c)
      ⟨bundleWith state, ⟨.start, []⟩⟩ = (.ok report, scene) ∧ (scene.tree.file? l).isSome = true := by
  unfold leaves at h
  generalize outcome (machine ⟨none, true⟩ (machineWith state) (.ofText "out/M") .c)
    ⟨bundleWith state, ⟨.start, []⟩⟩ = r at h ⊢
  rcases r with ⟨f | report, scene⟩
  · cases h
  · exact ⟨report, scene, rfl, h⟩

/-- A name with a slash puts the files of its state into a directory of the bundle. -/
theorem nested_name_stays_inside :
    ∃ report scene,
      outcome (machine ⟨none, true⟩ (machineWith "x/y") (.ofText "out/M") .c) ⟨bundleWith "x/y", ⟨.start, []⟩⟩ =
        (.ok report, scene) ∧
      (scene.tree.file? ["work", "out", "M", "State_x", "y.h"]).isSome = true ∧
      scene.tree.scratch.Perm [] ∧ ∀ l, scene.tree.node? l ≠ (bundleWith "x/y").node? l →
        (∃ rest, rest ≠ [] ∧ l = ["work", "out", "M"] ++ rest) ∨
        ((bundleWith "x/y").node? l = none ∧ scene.tree.node? l = some .directory ∧
          OnWay ["work"] ["out", "M"] l) := by
  have hleaves : leaves "x/y" ["work", "out", "M", "State_x", "y.h"] = true := by decide +kernel
  obtain ⟨report, scene, h, hfile⟩ := exists_of_leaves hleaves
  have hnames : ∀ s ∈ (machineWith "x/y").graph.listedStates, descends 0 (stateFolder s.name) = true := by decide
  exact ⟨report, scene, h, hfile,
    machine_stays_inside ⟨none, true⟩ (machineWith "x/y") "out/M" .c ⟨bundleWith "x/y", ⟨.start, []⟩⟩ scene
      (.ok report) hnames h⟩

theorem load_climbing :
    ∃ trail, outcome (Machine.load (.ofText "A") none (bundleWith "x/../../evil")) ⟨.start, []⟩ =
      (.ok (machineWith "x/../../evil"), trail) :=
  exists_of_result (by decide +kernel)

/-- A loaded name can lead above the bundle that it is written to, and so put a file beside it. -/
theorem climbing_name_leads_outside :
    (∃ trail, outcome (Machine.load (.ofText "A") none (bundleWith "x/../../evil")) ⟨.start, []⟩ =
      (.ok (machineWith "x/../../evil"), trail)) ∧
    ∃ report scene,
      outcome (machine ⟨none, true⟩ (machineWith "x/../../evil") (.ofText "out/M") .c)
        ⟨bundleWith "x/../../evil", ⟨.start, []⟩⟩ = (.ok report, scene) ∧
      (bundleWith "x/../../evil").node? ["work", "out", "evil.h"] = none ∧
      (scene.tree.file? ["work", "out", "evil.h"]).isSome = true ∧
      ¬ (bundleWith "x/../../evil").locate (.ofText "out/M") <+: ["work", "out", "evil.h"] := by
  have hleaves : leaves "x/../../evil" ["work", "out", "evil.h"] = true := by decide +kernel
  obtain ⟨report, scene, h, hfile⟩ := exists_of_leaves hleaves
  exact ⟨load_climbing, report, scene, h, by decide, hfile, by decide⟩

end Export

end MachineBundle
