import Mathlib.Data.List.Flatten
import MachineBundle.Proofs.Bundle.Inside

/-!
# Files of one name

Most files of a bundle are named after the machine or one of its states, with a suffix that tells what they are for. Since
names are free, the suffix of one file can be the end of the name that another one is named after. That is the only way in
which two files of a bundle come to have one name.
-/

namespace MachineBundle

/-! ## Names in folders -/

namespace Path

/-- The folders that a text leads through. -/
def folders (s : String) : List String :=
  ((pieces s.toList).dropLast.filter isComponent).map String.ofList

/-- What follows the last slash of a text. -/
def lastPiece (s : String) : List Char :=
  (pieces s.toList).getLast?.getD []

/-- Where a file comes to be that is named by a text, if `way` tells where folders lead. -/
def address {α : Type} (way : List String → α) (s : String) : α × List Char :=
  (way (folders s), lastPiece s)

theorem pieces_append_of_not_mem (cs : List Char) {suffix : List Char} (h : '/' ∉ suffix) :
    pieces (cs ++ suffix) = (pieces cs).dropLast ++ [(pieces cs).getLast?.getD [] ++ suffix] := by
  obtain ⟨init, last, hp⟩ := pieces_continued cs
  have hcs : pieces cs = init ++ [last] := by simpa using hp [] List.not_mem_nil
  rw [hp suffix h, hcs, List.dropLast_concat, List.getLast?_concat]
  rfl

variable {α : Type} {way : List String → α} {s x y suffix suffix' : String}

theorem folders_append (s : String) (h : '/' ∉ suffix.toList) : folders (s ++ suffix) = folders s := by
  rw [folders, String.toList_append, pieces_append_of_not_mem _ h, List.dropLast_concat]
  rfl

theorem lastPiece_append (s : String) (h : '/' ∉ suffix.toList) : lastPiece (s ++ suffix) = lastPiece s ++ suffix.toList := by
  rw [lastPiece, String.toList_append, pieces_append_of_not_mem _ h, List.getLast?_concat]
  rfl

theorem address_append (way : List String → α) (s : String) (h : '/' ∉ suffix.toList) :
    address way (s ++ suffix) = (way (folders s), lastPiece s ++ suffix.toList) := by
  rw [address, folders_append s h, lastPiece_append s h]

theorem address_of_not_mem (way : List String → α) (h : '/' ∉ s.toList) : address way s = (way [], s.toList) := by
  unfold address folders lastPiece
  rw [pieces_of_not_mem h]
  rfl

/-- One suffix leaves names as different as they are. -/
theorem address_append_iff (h : '/' ∉ suffix.toList) :
    address way (x ++ suffix) = address way (y ++ suffix) ↔ address way x = address way y := by
  rw [address_append way x h, address_append way y h, Prod.mk.injEq, List.append_left_inj, address, address, Prod.mk.injEq]

/-- Of two suffixes of one name, one ends the other. -/
theorem suffix_of_address_eq (h : '/' ∉ suffix.toList) (h' : '/' ∉ suffix'.toList)
    (he : address way (x ++ suffix) = address way (y ++ suffix')) :
    suffix.toList <:+ suffix'.toList ∨ suffix'.toList <:+ suffix.toList := by
  rw [address_append way x h, address_append way y h', Prod.mk.injEq] at he
  refine List.suffix_or_suffix_of_suffix (List.suffix_append (lastPiece x) _) ?_
  rw [he.2]
  exact List.suffix_append _ _

theorem parts_append (s : String) (h : FileName suffix) :
    (ofText (s ++ suffix)).parts = folders s ++ [String.ofList (lastPiece s ++ suffix.toList)] := by
  have hcomponent : isComponent (lastPiece s ++ suffix.toList) = true := by
    refine isComponent_of_plain ?_
    obtain ⟨c, hc, hp⟩ := h.plain
    exact ⟨c, List.mem_append_right _ hc, hp⟩
  have hpieces := pieces_append_of_not_mem s.toList h.isName.noSlash
  rw [← String.toList_append] at hpieces
  unfold ofText components
  rw [hpieces, List.filter_append, List.map_append, List.filter_singleton]
  change folders s ++ _ = _
  rw [show isComponent ((pieces s.toList).getLast?.getD [] ++ suffix.toList) = true from hcomponent]
  rfl

/-! ## Texts of paths -/

theorem components_intercalate {p : String} {ps : List String} (h : ∀ part ∈ p :: ps, IsName part) :
    components ("/".intercalate (p :: ps)).toList = p :: ps := by
  induction ps generalizing p with
  | nil =>
    have hp := h p List.mem_cons_self
    rw [String.intercalate_singleton, components, pieces_of_not_mem hp.noSlash, List.filter_singleton, hp.isComponent]
    simp
  | cons q ps ih =>
    have hp := h p List.mem_cons_self
    have hl : ("/".intercalate (p :: q :: ps)).toList = p.toList ++ '/' :: ("/".intercalate (q :: ps)).toList := by
      rw [String.intercalate_cons_cons]
      simp
    have hrest := ih fun part hpart => h part (List.mem_cons_of_mem p hpart)
    rw [components] at hrest
    rw [hl, components, pieces_append hp.noSlash, List.filter_cons_of_pos hp.isComponent, List.map_cons, hrest,
      String.ofList_toList]

/-- Paths below the working directory are told apart by their texts. -/
theorem parts_eq_of_text_eq {ps qs : List String} (hp : ∀ part ∈ ps, IsName part) (hq : ∀ part ∈ qs, IsName part)
    (hps : ps ≠ []) (hqs : qs ≠ []) (h : (⟨.none, ps⟩ : Path).text = (⟨.none, qs⟩ : Path).text) : ps = qs := by
  have htext : ∀ rs : List String, rs ≠ [] → (⟨.none, rs⟩ : Path).text = "/".intercalate rs := by
    intro rs hrs
    rw [text, if_neg fun he => hrs he.2, bareText]
    exact String.empty_append
  rw [htext ps hps, htext qs hqs] at h
  obtain ⟨p, ps, rfl⟩ := List.exists_cons_of_ne_nil hps
  obtain ⟨q, qs, rfl⟩ := List.exists_cons_of_ne_nil hqs
  rw [← components_intercalate hp, ← components_intercalate hq, h]

theorem isName_parts (s : String) : ∀ part ∈ (ofText s).parts, IsName part := by
  intro part hpart
  refine ⟨?_, isSplit_ofText s part hpart⟩
  obtain ⟨piece, hpiece, rfl⟩ := List.mem_map.mp hpart
  rw [String.toList_ofList]
  exact (List.mem_filter.mp hpiece).2

end Path

namespace Export

/-! ## What files are named after -/

/-- What some files of a bundle are named after: the machine, or a state with its actions and guards. -/
structure Owner where
  stem : String
  hasActions : Bool
  guards : Nat

namespace Owner

def ofState (s : Source.StatePlan) : Owner :=
  ⟨Binding.stateStem s.name, true, s.transitions.length⟩

def guardSuffix (index : Nat) : String :=
  "_Transition_" ++ toString index ++ ".expr"

/-- The suffixes of all files but guards. -/
def mainSuffixes (b : Binding) (hasActions : Bool) : List String :=
  [".h", b.implementationSuffix, "_Includes.h", "_Variables.h", "_Methods.h"] ++
    if hasActions then ["_OnEntry.mm", "_OnExit.mm", "_Internal.mm", "_OnSuspend.mm", "_OnResume.mm"] else []

/-- The suffixes of the files that are named after an owner. -/
def suffixes (b : Binding) (o : Owner) : List String :=
  mainSuffixes b o.hasActions ++ (List.range o.guards).map guardSuffix

def files (b : Binding) (o : Owner) : List String :=
  (o.suffixes b).map (o.stem ++ ·)

/-- What files of an owner that look like sources of another one add to its name. -/
def tails (b : Binding) (hasActions : Bool) : List String :=
  ["", "_Includes", "_Variables", "_Methods"] ++
    if hasActions ∧ b = .objectiveCpp then ["_OnEntry", "_OnExit", "_Internal", "_OnSuspend", "_OnResume"] else []

/-- A source of an owner comes to where a file of another one is. -/
def Shadows {α : Type} (way : List String → α) (b : Binding) (x y : Owner) : Prop :=
  ∃ tail ∈ tails b y.hasActions, Path.address way x.stem = Path.address way (y.stem ++ tail)

/-- No source of one owner comes to where a file of the other one is. -/
def Apart {α : Type} (way : List String → α) (b : Binding) (x y : Owner) : Prop :=
  ¬Shadows way b x y ∧ ¬Shadows way b y x

/-! ### Suffixes -/

theorem fileName_mainSuffixes (b : Binding) (hasActions : Bool) : ∀ s ∈ mainSuffixes b hasActions, FileName s := by
  have h : ∀ s ∈ mainSuffixes b hasActions,
      s.toList.all (fun c => Text.isPlain c || c == '.') = true ∧ s.toList.any Text.isPlain = true := by
    cases b <;> cases hasActions <;> decide
  intro s hs
  have hname := FileName.ofList s.toList (h s hs)
  rwa [String.ofList_toList] at hname

theorem nodup_mainSuffixes (b : Binding) (hasActions : Bool) : (mainSuffixes b hasActions).Nodup := by
  cases b <;> cases hasActions <;> decide

/-- A suffix that ends another one is that of a source, or the same. -/
theorem mainSuffixes_end (b : Binding) (hasActions hasActions' : Bool) :
    ∀ s ∈ mainSuffixes b hasActions, ∀ s' ∈ mainSuffixes b hasActions', s.toList <:+ s'.toList →
      ∃ tail ∈ tails b hasActions', s' = tail ++ s := by
  cases b <;> cases hasActions <;> cases hasActions' <;> decide

theorem exists_source (b : Binding) (hasActions hasActions' : Bool) :
    ∀ tail ∈ tails b hasActions', ∃ source ∈ mainSuffixes b hasActions, tail ++ source ∈ mainSuffixes b hasActions' := by
  cases b <;> cases hasActions <;> cases hasActions' <;> decide

theorem mainSuffixes_last (b : Binding) (hasActions : Bool) :
    ∀ s ∈ mainSuffixes b hasActions, ∃ c, s.toList.getLast? = some c ∧ c ≠ 'r' := by
  have h : ∀ s ∈ mainSuffixes b hasActions, (s.toList.getLast?.any (· ≠ 'r')) = true := by
    cases b <;> cases hasActions <;> decide
  intro s hs
  obtain ⟨c, hc, hr⟩ := (Option.any_eq_true _ _).mp (h s hs)
  exact ⟨c, hc, of_decide_eq_true hr⟩

theorem guardSuffix_last (i : Nat) : (guardSuffix i).toList.getLast? = some 'r' := by
  have h : (guardSuffix i).toList = ("_Transition_" ++ toString i ++ ".exp").toList ++ ['r'] := by
    simp [guardSuffix]
  rw [h, List.getLast?_concat]

theorem fileName_guardSuffix (i : Nat) : FileName (guardSuffix i) :=
  ((FileName.ofList "_Transition_".toList (by decide)).append_plain (.ofNat i)).append_ofList ".expr".toList (by decide)

/-- No guard's suffix ends that of another guard. -/
theorem guardSuffix_end {i j : Nat} (h : (guardSuffix i).toList <:+ (guardSuffix j).toList) : i = j := by
  obtain ⟨x, hx⟩ := h
  have hx' : (x ++ "_Transition_".toList ++ (toString i).toList) ++ ".expr".toList =
      ("_Transition_".toList ++ (toString j).toList) ++ ".expr".toList := by
    simpa [guardSuffix] using hx
  -- The digits are what follows the last low line.
  have hr := congrArg List.reverse (List.append_cancel_right hx')
  simp only [List.reverse_append] at hr
  refine Text.toString_injective (List.reverse_injective ?_)
  refine (Scan.run_append_inj (p := Scan.isDigit) ?_ ?_ ?_ ?_ hr).1
  · exact fun c hc => Scan.isDigit_toString (List.mem_reverse.mp hc)
  · exact fun c hc => Scan.isDigit_toString (List.mem_reverse.mp hc)
  · intro c hc
    cases hc
    decide
  · intro c hc
    cases hc
    decide

variable {α : Type} {way : List String → α} {b : Binding} {x y : Owner}

theorem mem_suffixes {s : String} :
    s ∈ x.suffixes b ↔ s ∈ mainSuffixes b x.hasActions ∨ ∃ i < x.guards, guardSuffix i = s := by
  simp [suffixes]

theorem fileName_suffixes : ∀ s ∈ x.suffixes b, FileName s := by
  intro s hs
  rcases mem_suffixes.mp hs with hs | ⟨i, -, rfl⟩
  · exact fileName_mainSuffixes b _ s hs
  · exact fileName_guardSuffix i

theorem nodup_suffixes : (x.suffixes b).Nodup := by
  refine (nodup_mainSuffixes b _).append ?_ ?_
  · refine List.Nodup.map_on (fun i _ j _ h => guardSuffix_end ?_) List.nodup_range
    rw [h]
  · rintro s hs hguard
    obtain ⟨i, -, rfl⟩ := List.mem_map.mp hguard
    obtain ⟨c, hc, hr⟩ := mainSuffixes_last b _ _ hs
    rw [guardSuffix_last] at hc
    exact hr (Option.some.inj hc).symm

theorem suffixes_end {s s' : String} (hs : s ∈ x.suffixes b) (hs' : s' ∈ y.suffixes b) (h : s.toList <:+ s'.toList) :
    ∃ tail ∈ tails b y.hasActions, s' = tail ++ s := by
  rcases mem_suffixes.mp hs with hs | ⟨i, -, rfl⟩
  · obtain ⟨c, hc, hr⟩ := mainSuffixes_last b _ s hs
    rcases mem_suffixes.mp hs' with hs' | ⟨j, -, rfl⟩
    · exact mainSuffixes_end b _ _ s hs s' hs' h
    · have hlast := Scan.getLast?_of_suffix h hc
      rw [guardSuffix_last] at hlast
      exact absurd (Option.some.inj hlast).symm hr
  · have hlast := Scan.getLast?_of_suffix h (guardSuffix_last i)
    rcases mem_suffixes.mp hs' with hs' | ⟨j, -, rfl⟩
    · obtain ⟨c, hc, hr⟩ := mainSuffixes_last b _ s' hs'
      rw [hc] at hlast
      exact absurd (Option.some.inj hlast) hr
    · obtain rfl := guardSuffix_end h
      exact ⟨"", by simp [tails], String.empty_append.symm⟩

/-! ### Files of owners -/

/-- The files of one owner come to different places. -/
theorem nodup_address_files : ((x.files b).map (Path.address way)).Nodup := by
  rw [files, List.map_map]
  refine List.Nodup.map_on (fun s hs s' hs' h => ?_) nodup_suffixes
  have hslash := (fileName_suffixes s hs).isName.noSlash
  have hslash' := (fileName_suffixes s' hs').isName.noSlash
  simp only [Function.comp_apply, Path.address_append way x.stem hslash, Path.address_append way x.stem hslash',
    Prod.mk.injEq, List.append_right_inj, true_and] at h
  exact String.toList_inj.mp h

theorem shadows_of_suffix {s s' : String} (hs : s ∈ x.suffixes b) (hs' : s' ∈ y.suffixes b) (h : s.toList <:+ s'.toList)
    (he : Path.address way (x.stem ++ s) = Path.address way (y.stem ++ s')) : Shadows way b x y := by
  obtain ⟨tail, htail, rfl⟩ := suffixes_end hs hs' h
  rw [← String.append_assoc, Path.address_append_iff (fileName_suffixes s hs).isName.noSlash] at he
  exact ⟨tail, htail, he⟩

theorem exists_common_of_shadows (h : Shadows way b x y) :
    ∃ a, a ∈ (x.files b).map (Path.address way) ∧ a ∈ (y.files b).map (Path.address way) := by
  obtain ⟨tail, htail, he⟩ := h
  obtain ⟨source, hx, hy⟩ := exists_source b x.hasActions y.hasActions tail htail
  have hslash := (fileName_mainSuffixes b _ source hx).isName.noSlash
  refine ⟨Path.address way (x.stem ++ source), ?_, ?_⟩
  · exact List.mem_map_of_mem (List.mem_map_of_mem (mem_suffixes.mpr (.inl hx)))
  · rw [(Path.address_append_iff hslash).mpr he, String.append_assoc]
    exact List.mem_map_of_mem (List.mem_map_of_mem (mem_suffixes.mpr (.inl hy)))

/-- The files of two owners come to different places exactly if their sources do not come to where files are. -/
theorem disjoint_iff_apart :
    ((x.files b).map (Path.address way)).Disjoint ((y.files b).map (Path.address way)) ↔ Apart way b x y := by
  constructor
  · intro h
    refine ⟨fun hxy => ?_, fun hyx => ?_⟩
    · obtain ⟨a, hx, hy⟩ := exists_common_of_shadows hxy
      exact h hx hy
    · obtain ⟨a, hy, hx⟩ := exists_common_of_shadows hyx
      exact h hx hy
  · rintro ⟨hxy, hyx⟩ a hx hy
    obtain ⟨file, hfile, rfl⟩ := List.mem_map.mp hx
    obtain ⟨s, hs, rfl⟩ := List.mem_map.mp hfile
    obtain ⟨file', hfile', he⟩ := List.mem_map.mp hy
    obtain ⟨s', hs', rfl⟩ := List.mem_map.mp hfile'
    rcases Path.suffix_of_address_eq (fileName_suffixes s' hs').isName.noSlash
      (fileName_suffixes s hs).isName.noSlash he with h | h
    · exact hyx (shadows_of_suffix hs' hs h he)
    · exact hxy (shadows_of_suffix hs hs' h he.symm)

/-- Where there are no slashes in names, a name shadows another one by being the longer one. -/
theorem shadows_iff (hx : '/' ∉ x.stem.toList) (hy : '/' ∉ y.stem.toList) :
    Shadows way b x y ↔ ∃ tail ∈ tails b y.hasActions, x.stem = y.stem ++ tail := by
  refine exists_congr fun tail => and_congr_right fun htail => ?_
  have htail' : '/' ∉ tail.toList := by
    have h : ∀ hasActions, ∀ tail ∈ tails b hasActions, '/' ∉ tail.toList := by
      cases b <;> decide
    exact h _ tail htail
  have hlong : '/' ∉ (y.stem ++ tail).toList := by
    rw [String.toList_append, List.mem_append, not_or]
    exact ⟨hy, htail'⟩
  rw [Path.address_of_not_mem way hx, Path.address_of_not_mem way hlong, Prod.mk.injEq, String.toList_inj]
  exact and_iff_right rfl

end Owner

/-! ## Files of a bundle -/

/-- The names that are the same in all bundles. The window layout is not always there. -/
def fixedNames (hasLayout : Bool) : List String :=
  [Bundle.languageFile, Bundle.statesFile] ++ (if hasLayout then [Bundle.windowLayoutFile] else []) ++ ["IncludePath"]

/-- What the other files of a bundle are named after. -/
def owners (plan : Source.MachinePlan) : List Owner :=
  ⟨plan.binding.stem plan.name, false, 0⟩ :: plan.states.map Owner.ofState

theorem fileName_fixedNames (hasLayout : Bool) : ∀ n ∈ fixedNames hasLayout, FileName n := by
  have h : ∀ n ∈ fixedNames hasLayout,
      n.toList.all (fun c => Text.isPlain c || c == '.') = true ∧ n.toList.any Text.isPlain = true := by
    cases hasLayout <;> decide
  intro n hn
  have hname := FileName.ofList n.toList (h n hn)
  rwa [String.ofList_toList] at hname

theorem nodup_fixedNames (hasLayout : Bool) : (fixedNames hasLayout).Nodup := by
  cases hasLayout <;> decide

/-- No fixed name ends as a file does that is named after something. -/
theorem not_suffix_fixedNames {hasLayout : Bool} {b : Binding} {x : Owner} {n s : String} (hn : n ∈ fixedNames hasLayout)
    (hs : s ∈ x.suffixes b) : ¬s.toList <:+ n.toList := by
  rcases Owner.mem_suffixes.mp hs with hs | ⟨i, -, rfl⟩
  · have h : ∀ hasActions, ∀ n ∈ fixedNames hasLayout, ∀ s ∈ Owner.mainSuffixes b hasActions, ¬s.toList <:+ n.toList := by
      cases hasLayout <;> cases b <;> decide
    exact h _ n hn s hs
  · have h : ∀ n ∈ fixedNames hasLayout, n.toList.getLast? ≠ some 'r' := by
      cases hasLayout <;> decide
    exact fun he => h n hn (Scan.getLast?_of_suffix he (Owner.guardSuffix_last i))

section

variable {m : Machine} {b : Binding} {name : String} {isSuspensible : Bool}

theorem names_stateFiles (plan : Source.MachinePlan) (s : State) :
    (stateFiles m plan (Source.statePlan m.graph s)).map Prod.fst =
      (Owner.ofState (Source.statePlan m.graph s)).files plan.binding := by
  have hguards : (Source.statePlan m.graph s).transitions.map (fun t => Binding.guardFile s.name t.index) =
      (List.range (Source.statePlan m.graph s).transitions.length).map
        fun i => Binding.stateStem s.name ++ Owner.guardSuffix i := by
    rw [← Source.map_index_statePlan, List.map_map]
    refine List.map_congr_left fun t _ => ?_
    simp only [Binding.guardFile, Owner.guardSuffix, Function.comp_apply, String.append_assoc]
    rfl
  unfold stateFiles Owner.files Owner.suffixes
  simp only [List.map_append, List.map_map]
  exact congrArg (_ ++ ·) hguards

/-- All files of a bundle have fixed names or are named after the machine or a state. -/
theorem names_files : ((files m b name isSuspensible).map Prod.fst).Perm
    (fixedNames m.windowLayout.isSome ++ (owners (.of m b name isSuspensible)).flatMap (Owner.files b)) := by
  have hstates : ((Source.MachinePlan.of m b name isSuspensible).states.flatMap
      (stateFiles m (.of m b name isSuspensible))).map Prod.fst =
        ((Source.MachinePlan.of m b name isSuspensible).states.map Owner.ofState).flatMap (Owner.files b) := by
    simp only [Source.MachinePlan.of, List.map_flatMap, List.flatMap_map]
    exact List.flatMap_congr fun s _ => names_stateFiles _ s
  have hlayout : (m.windowLayout.map fun layout => (Bundle.windowLayoutFile, layout)).toList.map Prod.fst =
      if m.windowLayout.isSome then [Bundle.windowLayoutFile] else [] := by
    cases m.windowLayout <;> rfl
  -- The machine's own sections come before its sources.
  have hmachine : ((sectionFiles m.boilerplate (b.sectionFiles name)).map Prod.fst ++
      [b.headerFile name, b.implementationFile name]).Perm
        ("IncludePath" :: Owner.files b ⟨b.stem name, false, 0⟩) :=
    .cons "IncludePath" List.perm_append_comm
  unfold files owners fixedNames
  simp only [List.map_append, hstates, hlayout, List.flatMap_cons, List.append_assoc]
  rw [← List.append_assoc (List.map Prod.fst (sectionFiles _ _))]
  exact (((hmachine.append_right _).append_left _).append_left _)

/-- The files of a bundle come to different places exactly if those of the machine and its states do. -/
theorem nodup_address_names {α : Type} {way : List String → α} :
    (((files m b name isSuspensible).map Prod.fst).map (Path.address way)).Nodup ↔
      (owners (.of m b name isSuspensible)).Pairwise (Owner.Apart way b) := by
  have hfixed : ∀ n ∈ fixedNames m.windowLayout.isSome, Path.address way n = (way [], n.toList) := fun n hn =>
    Path.address_of_not_mem way (fileName_fixedNames _ n hn).isName.noSlash
  have hnodup : ((fixedNames m.windowLayout.isSome).map (Path.address way)).Nodup := by
    refine List.Nodup.map_on (fun n hn n' hn' h => ?_) (nodup_fixedNames _)
    rw [hfixed n hn, hfixed n' hn', Prod.mk.injEq] at h
    exact String.toList_inj.mp h.2
  have hdisjoint : ((fixedNames m.windowLayout.isSome).map (Path.address way)).Disjoint
      (((owners (.of m b name isSuspensible)).flatMap (Owner.files b)).map (Path.address way)) := by
    intro a ha ha'
    obtain ⟨n, hn, rfl⟩ := List.mem_map.mp ha
    obtain ⟨file, hfile, he⟩ := List.mem_map.mp ha'
    obtain ⟨x, -, hx⟩ := List.mem_flatMap.mp hfile
    obtain ⟨s, hs, rfl⟩ := List.mem_map.mp hx
    rw [Path.address_append way _ (Owner.fileName_suffixes s hs).isName.noSlash, hfixed n hn, Prod.mk.injEq] at he
    exact not_suffix_fixedNames hn hs (he.2 ▸ List.suffix_append _ _)
  rw [(names_files.map _).nodup_iff, List.map_append, List.nodup_append']
  constructor
  · rintro ⟨-, h, -⟩
    rw [List.map_flatMap, List.nodup_flatMap] at h
    exact h.2.imp Owner.disjoint_iff_apart.mp
  · intro h
    refine ⟨hnodup, ?_, hdisjoint⟩
    rw [List.map_flatMap, List.nodup_flatMap]
    exact ⟨fun x _ => Owner.nodup_address_files, h.imp Owner.disjoint_iff_apart.mpr⟩

/-- A name that leads through folders to a file. -/
structure LeadsToFile (n : String) : Prop where
  anchor : (Path.ofText n).anchor = .none
  parts : (Path.ofText n).parts = Path.folders n ++ [String.ofList (Path.lastPiece n)]
  ne_dots : String.ofList (Path.lastPiece n) ≠ ".."

theorem leadsToFile_append {s suffix : String} (hs : (Path.ofText (s ++ suffix)).anchor = .none) (h : FileName suffix) :
    LeadsToFile (s ++ suffix) where
  anchor := hs
  parts := by
    rw [Path.parts_append s h, Path.folders_append s h.isName.noSlash, Path.lastPiece_append s h.isName.noSlash]
  ne_dots := by
    rw [Path.lastPiece_append s h.isName.noSlash]
    refine Path.ne_dots_of_plain ?_
    rw [String.toList_ofList]
    exact plain_of_suffix _ h

theorem leadsToFile_files (hname : '/' ∉ name.toList) : ∀ f ∈ files m b name isSuspensible, LeadsToFile f.1 := by
  refine forall_mem_files (P := LeadsToFile) (fun n hn => ?_) (fun suffix hs => ?_) fun s hs suffix hsuffix => ?_
  · rw [← String.empty_append (s := n)]
    refine leadsToFile_append ?_ hn
    rw [String.empty_append]
    exact (Path.staysBelow_name hn.isName hn.ne_dots).anchor
  · exact leadsToFile_append (staysBelow_append (not_mem_bindingStem hname) hs).anchor hs
  · refine leadsToFile_append (Path.anchorOf_of_head ?_) hsuffix
    simp [Binding.stateStem]

theorem nodup_map_iff_of_eq_iff {β γ : Type} {ns : List String} {f : String → β} {g : String → γ}
    (h : ∀ n ∈ ns, ∀ n' ∈ ns, f n = f n' ↔ g n = g n') : (ns.map f).Nodup ↔ (ns.map g).Nodup := by
  rw [List.Nodup, List.Nodup, List.pairwise_map, List.pairwise_map]
  exact List.Pairwise.iff_of_mem fun hn hn' => not_congr (h _ hn _ hn')

/-- The names that are reported tell apart what the paths of the files tell apart. -/
theorem nodup_texts {ns : List String} (h : ∀ n ∈ ns, LeadsToFile n) :
    (ns.map fun n => (⟨.none, (Path.ofText n).parts⟩ : Path).text).Nodup ↔ (ns.map (Path.address id)).Nodup := by
  refine nodup_map_iff_of_eq_iff fun n hn n' hn' => ?_
  obtain ⟨-, hparts, -⟩ := h n hn
  obtain ⟨-, hparts', -⟩ := h n' hn'
  calc _
    _ ↔ (Path.ofText n).parts = (Path.ofText n').parts := by
      refine ⟨Path.parts_eq_of_text_eq (Path.isName_parts n) (Path.isName_parts n') ?_ ?_, fun he => by rw [he]⟩
      · rw [hparts]
        exact List.concat_ne_nil _ _
      · rw [hparts']
        exact List.concat_ne_nil _ _
    _ ↔ Path.folders n = Path.folders n' ∧ Path.lastPiece n = Path.lastPiece n' := by
      rw [hparts, hparts', List.append_singleton_inj, String.ofList_inj]
    _ ↔ _ := by rw [Path.address, Path.address, Prod.mk.injEq, id, id]

/-- Files are in one place if their folders lead to one place and they have one name there. -/
theorem nodup_locations {ns : List String} (h : ∀ n ∈ ns, LeadsToFile n) (t : Tree) (destination : Path) :
    (ns.map fun n => t.locate (destination.join n)).Nodup ↔
      (ns.map (Path.address (climb (t.locate destination)))).Nodup := by
  have hlocate : ∀ n ∈ ns, t.locate (destination.join n) =
      climb (t.locate destination) (Path.folders n) ++ [String.ofList (Path.lastPiece n)] := by
    intro n hn
    obtain ⟨hanchor, hparts, hdots⟩ := h n hn
    rw [← climb_concat _ _ hdots, ← hparts, Path.join, Path.append, if_pos hanchor]
    exact climb_append _ _ _
  refine nodup_map_iff_of_eq_iff fun n hn n' hn' => ?_
  rw [hlocate n hn, hlocate n' hn', List.append_singleton_inj, String.ofList_inj, Path.address, Path.address,
    Prod.mk.injEq]

theorem leadsToFile_names (text : String) :
    ∀ n ∈ (files m b (Path.ofText text).stem isSuspensible).map Prod.fst, LeadsToFile n :=
  List.forall_mem_map.mpr (leadsToFile_files (Path.not_mem_stem text))

/-- The files that are to be written have names of their own exactly if no owner shadows another one. -/
theorem nodup_pending_iff (m : Machine) (text : String) (b : Binding) (isSuspensible : Bool) :
    ∃ names, (batchOf (.ofText text) (files m b (Path.ofText text).stem isSuspensible)).pending = .ok names ∧
      (names.Nodup ↔ (owners (.of m b (Path.ofText text).stem isSuspensible)).Pairwise (Owner.Apart id b)) := by
  refine ⟨_, pending_of_anchor fun f hf => (leadsToFile_names text f.1 (List.mem_map_of_mem hf)).anchor, ?_⟩
  rw [← nodup_address_names, ← nodup_texts (leadsToFile_names text), List.map_map]
  rfl

/-- The files that an export writes all have names of their own exactly if, among the machine and its states, no source
of one has the name of a file of another one. They are all in places of their own exactly if this holds of the places that
the folders in the names lead to. -/
theorem file_names_differ_iff (m : Machine) (text : String) (b : Binding) (isSuspensible : Bool) (t : Tree) :
    ∃ names, (batchOf (.ofText text) (files m b (Path.ofText text).stem isSuspensible)).pending = .ok names ∧
      (names.Nodup ↔ (owners (.of m b (Path.ofText text).stem isSuspensible)).Pairwise (Owner.Apart id b)) ∧
      (((batchOf (.ofText text) (files m b (Path.ofText text).stem isSuspensible)).queue.map
          fun w => t.locate w.target).Nodup ↔
        (owners (.of m b (Path.ofText text).stem isSuspensible)).Pairwise
          (Owner.Apart (climb (t.locate (.ofText text))) b)) := by
  obtain ⟨names, hpending, hnodup⟩ := nodup_pending_iff m text b isSuspensible
  refine ⟨names, hpending, hnodup, ?_⟩
  rw [← nodup_address_names, ← nodup_locations (leadsToFile_names text), batchOf, List.map_map, List.map_map]
  rfl

/-- The machine of a bundle with two states, one of which is named like a section of the other one. -/
def machineWithSection : Machine where
  name := "A"
  binding := .c
  graph := .ofRecords [⟨.generated 1, "A"⟩, ⟨.generated 2, "A_Includes"⟩] [] none
  boilerplate := .blank
  stateBoilerplate := [(.generated 1, .blank), (.generated 2, .blank)]
  stateLayout := Machine.gridLayout [⟨.generated 1, "A"⟩, ⟨.generated 2, "A_Includes"⟩]
  windowLayout := none

theorem load_withSection :
    ∃ trail, outcome (Machine.load (.ofText "A") none (bundleWith "A\nA_Includes")) ⟨.start, []⟩ =
      (.ok machineWithSection, trail) :=
  exists_of_result (by decide +kernel)

/-- The header of one of these states has the name of a section of the other one. -/
theorem header_has_name_of_section :
    (∃ trail, outcome (Machine.load (.ofText "A") none (bundleWith "A\nA_Includes")) ⟨.start, []⟩ =
      (.ok machineWithSection, trail)) ∧
    machineWithSection.graph.stateNames.Nodup ∧
    ∃ names, (batchOf (.ofText "B") (files machineWithSection .c (Path.ofText "B").stem true)).pending = .ok names ∧
      ¬names.Nodup := by
  have hstates : machineWithSection.graph.stateNames.Nodup := by decide
  obtain ⟨names, hpending, hnodup⟩ := nodup_pending_iff machineWithSection "B" .c true
  refine ⟨load_withSection, hstates, names, hpending, fun h => ?_⟩
  have happart : (owners (.of machineWithSection .c (Path.ofText "B").stem true))[1].Apart id .c
      (owners (.of machineWithSection .c (Path.ofText "B").stem true))[2] :=
    List.pairwise_iff_getElem.mp (hnodup.mp h) 1 2 (by decide) (by decide) (by decide)
  exact happart.2 ⟨"_Includes", by decide, rfl⟩

end

end Export

end MachineBundle
