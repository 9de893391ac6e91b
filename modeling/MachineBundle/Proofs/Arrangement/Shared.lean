import MachineBundle.Proofs.Arrangement.Machines
import MachineBundle.Proofs.Bundle.Legible
import MachineBundle.Proofs.Bundle.Renamed
import MachineBundle.Proofs.Text.Bounded

/-!
# Machines that are shared

The machines of an arrangement are loaded as each would be by itself, but for one bundle only once. All stops at the
first name at which something comes up.
-/

namespace MachineBundle.Arrangement

variable {t : Tree} {directory : Path} {binding : Option Binding} {loaded : Table Path Machine} {bundle : Path}
  {names : List String} {trail trail' : Trail} {es : List (Path × Machine)}

/-! ## Faults -/

/-- What comes up where a bundle is loaded by itself. -/
def loadFault? (t : Tree) (binding : Option Binding) (bundle : Path) : Option Fault :=
  match (outcome (Machine.load bundle binding t) Scene.start.trail).1 with
  | .error f => some f
  | .ok _ => none

/-- What comes up at a name by itself, where its bundle is looked for or where this is loaded. -/
def nameFault? (t : Tree) (directory : Path) (binding : Option Binding) (name : String) : Option Fault :=
  match bundle? t directory name with
  | .error f => some f
  | .ok found => found.bind (loadFault? t binding)

/-- The fault that comes up by itself comes up from everywhere. -/
theorem outcome_load_cases (t : Tree) (binding : Option Binding) (bundle : Path) (trail : Trail) :
    (∃ f trail', loadFault? t binding bundle = some f ∧
      outcome (Machine.load bundle binding t) trail = (.error f, trail')) ∨
    ∃ m trail', loadFault? t binding bundle = none ∧
      outcome (Machine.load bundle binding t) trail = (.ok m, trail') := by
  unfold loadFault?
  obtain ⟨f, h, h'⟩ | ⟨m, m', h, h', -⟩ := Machine.load_from_anywhere t bundle binding Scene.start.trail trail
  · exact .inl ⟨f, _, by rw [h], Prod.ext h' rfl⟩
  · exact .inr ⟨m', _, by rw [h], Prod.ext h' rfl⟩

theorem outcome_loadOnce_cases (hloaded : ∀ bundle m, loaded.get? bundle = some m → loadFault? t binding bundle = none)
    (bundle : Path) (trail : Trail) :
    (∃ f trail', loadFault? t binding bundle = some f ∧
      outcome (loadOnce binding loaded bundle t) trail = (.error f, trail')) ∨
    ∃ m trail', loadFault? t binding bundle = none ∧
      outcome (loadOnce binding loaded bundle t) trail = (.ok m, trail') := by
  unfold loadOnce
  cases hm : loaded.get? bundle with
  | none => exact outcome_load_cases t binding bundle trail
  | some m => exact .inr ⟨m, trail, hloaded bundle m hm, rfl⟩

/-- The fault of the first name that has one is the fault of all. -/
theorem loadFrom_eq_error_iff (hloaded : ∀ bundle m, loaded.get? bundle = some m → loadFault? t binding bundle = none)
    {f : Fault} : (outcome (loadFrom directory binding loaded names t) trail).1 = .error f ↔
      names.findSome? (nameFault? t directory binding) = some f := by
  induction names generalizing loaded trail with
  | nil => simp [loadFrom]
  | cons name rest ih =>
    unfold loadFrom
    rw [List.findSome?_cons, nameFault?]
    cases hfound : bundle? t directory name with
    | error g =>
      have hquery : outcome (Reading.query (fun t => bundle? t directory name) t) trail = (.error g, trail) := by
        rw [outcome_reading_query, hfound]
      rw [outcome_reading_bind_error hquery]
      simp
    | ok found =>
      have hquery : outcome (Reading.query (fun t => bundle? t directory name) t) trail = (.ok found, trail) := by
        rw [outcome_reading_query, hfound]
      rw [outcome_reading_bind_ok hquery]
      cases found with
      | none => exact ih hloaded
      | some bundle =>
        dsimp only [Option.bind_some]
        obtain ⟨g, trail₁, hg, hload⟩ | ⟨m, trail₁, hnone, hload⟩ := outcome_loadOnce_cases hloaded bundle trail
        · rw [hg, outcome_reading_bind_error hload]
          simp
        · have hset : ∀ bundle' m', (loaded.set bundle m).get? bundle' = some m' →
              loadFault? t binding bundle' = none := Table.forall_get?_set hnone hloaded
          have hih : (outcome (loadFrom directory binding (loaded.set bundle m) rest t) trail₁).1 = .error f ↔
              rest.findSome? (nameFault? t directory binding) = some f := ih hset
          rw [hnone, outcome_reading_bind_ok hload]
          refine Iff.trans ?_ hih
          rcases hrest : outcome (loadFrom directory binding (loaded.set bundle m) rest t) trail₁ with ⟨g | more, _⟩
          · rw [outcome_reading_bind_error hrest]
          · rw [outcome_reading_bind_ok hrest]
            simp

theorem loadMachines_eq_error_iff {f : Fault} :
    (outcome (loadMachines directory names binding t) trail).1 = .error f ↔
      names.findSome? (nameFault? t directory binding) = some f :=
  loadFrom_eq_error_iff fun _ _ hnone => by cases hnone

/-! ## Entries -/

/-- The bundles to which names lead, in order. -/
def bundlesOf (t : Tree) (directory : Path) (names : List String) : List Path :=
  names.filterMap fun name => (bundle? t directory name).toOption.join

theorem bundlesOf_of_error {name : String} {f : Fault} (h : bundle? t directory name = .error f) :
    bundlesOf t directory (name :: names) = bundlesOf t directory names := by
  rw [bundlesOf, List.filterMap_cons, h]
  rfl

theorem findSome?_of_error {name : String} {f : Fault} (h : bundle? t directory name = .error f) :
    (name :: names).findSome? (nameFault? t directory binding) = some f := by
  rw [List.findSome?_cons, nameFault?, h]

/-- There is an entry for each name that leads to a bundle. -/
theorem bundles_of_loadFrom (h : outcome (loadFrom directory binding loaded names t) trail = (.ok es, trail')) :
    es.map Prod.fst = bundlesOf t directory names := by
  induction names generalizing loaded trail es with
  | nil =>
    cases h
    rfl
  | cons name rest ih =>
    obtain ⟨hfound, hrest⟩ | ⟨bundle, m, more, trail₁, hfound, -, hrest, rfl⟩ := loadFrom_cons_eq_ok h
    · rw [ih hrest, bundlesOf, bundlesOf, List.filterMap_cons, hfound]
      rfl
    · rw [List.map_cons, ih hrest, bundlesOf, bundlesOf, List.filterMap_cons, hfound]
      rfl

/-- A name that is too long leads to no bundle, but to a fault. -/
theorem bundle?_long_name {d : Location} {name : String} (hname : Path.IsName name)
    (hd : t.directory? directory = some d) (hnull : Tree.hasNull (directory.join name) = false)
    (hlong : Tree.nameLimit < name.utf8ByteSize) :
    bundle? t directory name = .error (.refused .nameTooLong (directory.join name).text) := by
  unfold bundle? Tree.isDirectory
  dsimp only
  rw [Tree.look_long_name hname hd hnull hlong]
  rfl

/-- Where every name can be looked for, the first fault at a name is that of the first bundle that has one. -/
theorem findSome?_nameFault? (h : ∀ name ∈ names, ∃ found, bundle? t directory name = .ok found) :
    names.findSome? (nameFault? t directory binding) =
      (bundlesOf t directory names).findSome? (loadFault? t binding) := by
  induction names with
  | nil => rfl
  | cons name rest ih =>
    rw [List.forall_mem_cons] at h
    obtain ⟨found, hfound⟩ := h.1
    rw [List.findSome?_cons, nameFault?, bundlesOf, List.filterMap_cons, hfound]
    cases found with
    | none => exact ih h.2
    | some bundle =>
      change _ = (bundle :: bundlesOf t directory rest).findSome? (loadFault? t binding)
      rw [List.findSome?_cons, ← ih h.2]
      rfl

/-- The notices about names that lead to no bundle. -/
def missingNotices (t : Tree) (directory : Path) (names : List String) : List Log.Notice :=
  (names.filter fun name => (bundle? t directory name).toOption = some none).map (missingNotice directory)

/-- The readings of some bundles, one after the other. -/
def loadAll (binding : Option Binding) (bundles : List Path) : Reading (List Machine) :=
  bundles.mapM fun bundle => Machine.load bundle binding

/-- The bundles that have been seen are those of the machines that are loaded. -/
def Known (seen : List Path) (loaded : Table Path Machine) : Prop :=
  ∀ p, p ∈ seen ↔ (loaded.get? p).isSome = true

section Known

variable {seen : List Path} {m : Machine}

theorem Known.set (h : Known seen loaded) : Known (bundle :: seen) (loaded.set bundle m) := by
  intro p
  rw [Table.get?_set, List.mem_cons, h p]
  split
  · rename_i he
    exact iff_of_true (.inl he.symm) rfl
  · rename_i he
    exact or_iff_right (Ne.symm he)

theorem Known.set_of_mem (h : Known seen loaded) (hin : bundle ∈ seen) : Known seen (loaded.set bundle m) := by
  intro p
  rw [← h.set p, List.mem_cons]
  refine ⟨.inr, ?_⟩
  rintro (rfl | hp)
  · exact hin
  · exact hp

/-- A machine that has been loaded is used again for an entry that is not the first; another one is loaded for an entry
that is the first. -/
theorem loadOnce_known (hknown : Known seen loaded)
    (h : outcome (loadOnce binding loaded bundle t) trail = (.ok m, trail')) (more : List (Path × Machine)) :
    (loaded.get? bundle = some m ∧ trail' = trail ∧ Known seen (loaded.set bundle m) ∧
      firstOf Prod.fst seen ((bundle, m) :: more) = firstOf Prod.fst seen more) ∨
    (outcome (Machine.load bundle binding t) trail = (.ok m, trail') ∧ Known (bundle :: seen) (loaded.set bundle m) ∧
      firstOf Prod.fst seen ((bundle, m) :: more) = (bundle, m) :: firstOf Prod.fst (bundle :: seen) more) := by
  obtain ⟨hm, rfl⟩ | ⟨hm, hload⟩ := loadOnce_eq_ok h
  · have hin : bundle ∈ seen := (hknown bundle).mpr (by rw [hm]; rfl)
    exact .inl ⟨hm, rfl, hknown.set_of_mem hin, by rw [firstOf, if_pos hin]⟩
  · have hnot : bundle ∉ seen := by
      rw [hknown bundle, hm]
      exact Bool.false_ne_true
    exact .inr ⟨hload, hknown.set, by rw [firstOf, if_neg hnot]⟩

/-- What is drawn and noticed for the entries is drawn and noticed for the first entry of each bundle, apart from the
notices about names that are passed over. -/
theorem loadAll_of_loadFrom (h : outcome (loadFrom directory binding loaded names t) trail = (.ok es, trail'))
    (hknown : Known seen loaded) {start : Trail} {passed : List Log.Notice} (hsupply : start.supply = trail.supply)
    (hnotices : trail.notices.Perm (start.notices ++ passed)) :
    ∃ after, outcome (loadAll binding ((firstOf Prod.fst seen es).map Prod.fst) t) start =
        (.ok ((firstOf Prod.fst seen es).map Prod.snd), after) ∧ after.supply = trail'.supply ∧
      trail'.notices.Perm (after.notices ++ (passed ++ missingNotices t directory names)) := by
  induction names generalizing loaded seen trail es start passed with
  | nil =>
    cases h
    exact ⟨start, rfl, hsupply, by simpa [missingNotices] using hnotices⟩
  | cons name rest ih =>
    obtain ⟨hfound, hrest⟩ | ⟨bundle, m, more, trail₁, hfound, hm, hrest, rfl⟩ := loadFrom_cons_eq_ok h
    · have hmissing : passed ++ missingNotices t directory (name :: rest) =
          passed ++ [missingNotice directory name] ++ missingNotices t directory rest := by
        simp [missingNotices, hfound, Except.toOption]
      rw [hmissing]
      refine ih hrest hknown hsupply ?_
      rw [← List.append_assoc]
      exact hnotices.append_right _
    have hmissing : missingNotices t directory (name :: rest) = missingNotices t directory rest := by
      simp [missingNotices, hfound, Except.toOption]
    rw [hmissing]
    obtain ⟨-, rfl, hset, hfirst⟩ | ⟨hload, hset, hfirst⟩ := loadOnce_known hknown hm more
    · rw [hfirst]
      exact ih hrest hset hsupply hnotices
    · obtain ⟨hresult, hdrawn, noticed, hnoticed, hnoticed'⟩ := Machine.load_of_supply t bundle binding hsupply
      rw [hload] at hresult hdrawn hnoticed
      have hagain : outcome (Machine.load bundle binding t) start =
          (.ok m, (outcome (Machine.load bundle binding t) start).2) := Prod.ext hresult rfl
      have hnext : trail₁.notices.Perm ((outcome (Machine.load bundle binding t) start).2.notices ++ passed) := by
        rw [hnoticed, hnoticed', List.append_assoc]
        refine (hnotices.append_right noticed).trans ?_
        rw [List.append_assoc]
        exact List.perm_append_comm.append_left start.notices
      obtain ⟨after, hall, hafter⟩ := ih hrest hset hdrawn hnext
      refine ⟨after, ?_, hafter⟩
      rw [hfirst, List.map_cons, List.map_cons, loadAll, List.mapM_cons, outcome_reading_bind_ok hagain]
      exact outcome_reading_bind_ok hall _

/-- Every entry has a machine that was loaded before, or it is the first entry of its bundle over again. -/
theorem mem_firstOf_of_loadFrom (h : outcome (loadFrom directory binding loaded names t) trail = (.ok es, trail'))
    (hknown : Known seen loaded) : ∀ e ∈ es, loaded.get? e.1 = some e.2 ∨ e ∈ firstOf Prod.fst seen es := by
  induction names generalizing loaded seen trail es with
  | nil =>
    cases h
    simp
  | cons name rest ih =>
    obtain ⟨-, hrest⟩ | ⟨bundle, m, more, trail₁, -, hm, hrest, rfl⟩ := loadFrom_cons_eq_ok h
    · exact ih hrest hknown
    have hnew : ∀ e : Path × Machine, (loaded.set bundle m).get? e.1 = some e.2 →
        e = (bundle, m) ∨ loaded.get? e.1 = some e.2 :=
      fun e => Table.forall_get?_set (P := fun p m' => (p, m') = (bundle, m) ∨ loaded.get? p = some m') (.inl rfl)
        (fun _ _ => .inr) e.1 e.2
    obtain ⟨hg, -, hset, hfirst⟩ | ⟨-, hset, hfirst⟩ := loadOnce_known hknown hm more
    · rw [hfirst, List.forall_mem_cons]
      refine ⟨.inl hg, fun e he => ?_⟩
      obtain hloaded | hmem := ih hrest hset e he
      · obtain rfl | hold := hnew e hloaded
        · exact .inl hg
        · exact .inl hold
      · exact .inr hmem
    · rw [hfirst, List.forall_mem_cons]
      refine ⟨.inr List.mem_cons_self, fun e he => ?_⟩
      obtain hloaded | hmem := ih hrest hset e he
      · obtain rfl | hold := hnew e hloaded
        · exact .inr List.mem_cons_self
        · exact .inl hold
      · exact .inr (List.mem_cons_of_mem _ hmem)

end Known

/-! ## Sharing -/

/-- The entries for which a bundle is read: the first ones of all bundles. -/
def firstEntries (es : List (Path × Machine)) : List (Path × Machine) :=
  firstOf Prod.fst [] es

/-- Entries share the machines of their bundles. -/
structure Shares (t : Tree) (directory : Path) (names : List String) (binding : Option Binding) (trail : Trail)
    (es : List (Path × Machine)) (trail' : Trail) : Prop where
  /-- The entries that are loaded have different bundles. -/
  nodup : ((firstEntries es).map Prod.fst).Nodup
  /-- These bundles are loaded one after the other. Nothing else is drawn, and nothing else is noticed but the names that
  lead to no bundle. -/
  loaded : ∃ after, outcome (loadAll binding ((firstEntries es).map Prod.fst) t) trail =
      (.ok ((firstEntries es).map Prod.snd), after) ∧ after.supply = trail'.supply ∧
    trail'.notices.Perm (after.notices ++ missingNotices t directory names)
  /-- Each entry holds the machine of one of these, and two entries that of the same one just if their bundles are. -/
  shared : ∃ which : Fin es.length → Fin (firstEntries es).length,
    (∀ i, es[i] = (firstEntries es)[which i]) ∧ ∀ i j, which i = which j ↔ es[i].1 = es[j].1

theorem known_nil : Known [] [] :=
  fun _ => iff_of_false List.not_mem_nil Bool.false_ne_true

theorem mem_firstEntries (h : outcome (loadMachines directory names binding t) trail = (.ok es, trail')) :
    ∀ e ∈ es, e ∈ firstEntries es :=
  fun e he => (mem_firstOf_of_loadFrom h known_nil e he).resolve_left fun hnone => by cases hnone

theorem shares_of_loadMachines (h : outcome (loadMachines directory names binding t) trail = (.ok es, trail')) :
    Shares t directory names binding trail es trail' := by
  have hnodup : ((firstEntries es).map Prod.fst).Nodup := nodup_firstOf Prod.fst [] es
  have hnotices : trail.notices.Perm (trail.notices ++ []) := .of_eq (List.append_nil _).symm
  refine ⟨hnodup, loadAll_of_loadFrom h known_nil rfl hnotices, ?_⟩
  have hfirst : ∀ i : Fin es.length, ∃ k : Fin (firstEntries es).length, es[i] = (firstEntries es)[k] := by
    intro i
    obtain ⟨k, hk, he⟩ := List.getElem_of_mem (mem_firstEntries h es[i] (List.getElem_mem i.isLt))
    exact ⟨⟨k, hk⟩, he.symm⟩
  choose which hwhich using hfirst
  refine ⟨which, hwhich, fun i j => ⟨fun he => by rw [hwhich i, hwhich j, he], fun he => ?_⟩⟩
  rw [hwhich i, hwhich j] at he
  have hsame := List.inj_on_of_nodup_map hnodup (List.getElem_mem (which i).isLt) (List.getElem_mem (which j).isLt) he
  exact Fin.ext (hnodup.of_map.getElem_inj_iff.mp hsame)

/-- Every entry could have been loaded by itself, with the same machine up to identifiers. -/
theorem load_of_loadMachines (h : outcome (loadMachines directory names binding t) trail = (.ok es, trail')) :
    ∀ e ∈ es, ∀ start, ∃ m, (outcome (Machine.load e.1 binding t) start).1 = .ok m ∧ m.SameButIds e.2 := by
  obtain ⟨after, hall, -⟩ := (shares_of_loadMachines h).loaded
  have hloads := forall₂_of_reading_mapM hall
  rw [List.forall₂_map_left_iff, List.forall₂_map_right_iff, List.forall₂_same] at hloads
  intro e he start
  obtain ⟨start', after', hstart'⟩ := hloads e (mem_firstEntries h e he)
  obtain ⟨f, -, hfault⟩ | ⟨m, m', hm, hm', hsame⟩ := Machine.load_from_anywhere t e.1 binding start start'
  · rw [hstart'] at hfault
    cases hfault
  · rw [hstart'] at hm'
    cases hm'
    exact ⟨m, hm, hsame⟩

/-- Loading the machines of an arrangement agrees with loading each bundle by itself: there is a machine for each name
that leads to a bundle, the same up to identifiers as is loaded from anywhere, and the entries of a bundle share one. It
fails just if something comes up at a name, with the fault of the first such name; where every name can be looked for,
this is the fault of the first bundle that cannot be loaded. -/
theorem loadMachines_as_by_themselves (t : Tree) (directory : Path) (names : List String) (binding : Option Binding)
    (trail : Trail) :
    (∀ es trail', outcome (loadMachines directory names binding t) trail = (.ok es, trail') →
      es.map Prod.fst = bundlesOf t directory names ∧
      (∀ e ∈ es, ∀ start, ∃ m, (outcome (Machine.load e.1 binding t) start).1 = .ok m ∧ m.SameButIds e.2) ∧
      Shares t directory names binding trail es trail') ∧
    (∀ f, (outcome (loadMachines directory names binding t) trail).1 = .error f ↔
      names.findSome? (nameFault? t directory binding) = some f) ∧
    ((∀ name ∈ names, ∃ found, bundle? t directory name = .ok found) →
      ∀ f, (outcome (loadMachines directory names binding t) trail).1 = .error f ↔
        (bundlesOf t directory names).findSome? (loadFault? t binding) = some f) := by
  refine ⟨fun es trail' h => ⟨bundles_of_loadFrom h, load_of_loadMachines h, shares_of_loadMachines h⟩,
    fun f => loadMachines_eq_error_iff, ?_⟩
  intro hfound f
  rw [loadMachines_eq_error_iff, findSome?_nameFault? hfound]

/-- An arrangement with a bundle that two names lead to, and another one. -/
def twoSpellings : Tree where
  home := ["work"]
  nodes :=
    [(["work"], .directory), (["work", "a"], .directory), (["work", "a", "A.machine"], .directory),
      (["work", "a", "A.machine", "States"], .file "S\n".toUTF8), (["work", "a", "B"], .directory),
      (["work", "a", "B", "States"], .file "".toUTF8)]
  scratch := []

theorem two_spellings_share :
    ∃ es trail', outcome (loadMachines (.ofText "a") ["A", "C", "B", "A.machine", "A"] none twoSpellings)
        Scene.start.trail = (.ok es, trail') ∧
      es.map Prod.fst = [.ofText "a/A.machine", .ofText "a/B", .ofText "a/A.machine", .ofText "a/A.machine"] ∧
      Shares twoSpellings (.ofText "a") ["A", "C", "B", "A.machine", "A"] none Scene.start.trail es trail' := by
  obtain ⟨es, trail', h⟩ : ∃ es trail', outcome (loadMachines (.ofText "a") ["A", "C", "B", "A.machine", "A"] none
      twoSpellings) Scene.start.trail = (.ok es, trail') := exists_of_isOk (by decide +kernel)
  obtain ⟨hbundles, -, hshares⟩ := (loadMachines_as_by_themselves _ _ _ _ _).1 es trail' h
  exact ⟨es, trail', h, hbundles.trans (by decide), hshares⟩

/-- An arrangement with a bundle that lists no states. -/
def unlisted : Tree where
  home := ["work"]
  nodes := [(["work"], .directory), (["work", "a"], .directory), (["work", "a", "A"], .directory)]
  scratch := []

/-- A name of `n` letters. -/
def letters (n : Nat) : String :=
  String.ofList (List.replicate n 'x')

theorem bundle?_letters {n : Nat} (h : Tree.nameLimit < n) : bundle? unlisted (.ofText "a") (letters n) =
    .error (.refused .nameTooLong ((Path.ofText "a").join (letters n)).text) := by
  have hname : Path.IsName (letters n) := by
    cases n with
    | zero => cases h
    | succ n => exact ⟨by simp [letters, Path.isComponent, List.replicate_succ], by simp [letters]⟩
  have hnull : Tree.hasNull ((Path.ofText "a").join (letters n)) = false := by
    rw [Path.hasNull_join _ hname, Bool.or_eq_false_iff]
    exact ⟨by decide, by simp [letters]⟩
  have hd : unlisted.directory? (.ofText "a") = some ["work", "a"] := by decide
  have hlength : (letters n).toList.length = n := by simp [letters]
  have hsize : n ≤ (letters n).utf8ByteSize := hlength.symm.trans_le (Text.length_le_utf8ByteSize (letters n))
  exact bundle?_long_name hname hd hnull (h.trans_le hsize)

/-- A name that is too long to be asked about hides a bundle that cannot be loaded. -/
theorem long_name_comes_first :
    (bundlesOf unlisted (.ofText "a") [letters 256, "A"]).findSome? (loadFault? unlisted none) =
      some (.refused .notFound "a/A/States") ∧
    (outcome (loadMachines (.ofText "a") [letters 256, "A"] none unlisted) Scene.start.trail).1 =
      .error (.refused .nameTooLong ((Path.ofText "a").join (letters 256)).text) := by
  have hlong := bundle?_letters (show Tree.nameLimit < 256 from by decide)
  constructor
  · rw [bundlesOf_of_error hlong]
    decide
  · rw [loadMachines_eq_error_iff, findSome?_of_error hlong]

end MachineBundle.Arrangement
