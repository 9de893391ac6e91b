import MachineBundle.Proofs.Arrangement.RoundTrip
import MachineBundle.Proofs.Arrangement.Stopped
import MachineBundle.Proofs.Atomic.Single
import MachineBundle.Proofs.Bundle.Canonical

/-!
# Manifests that are saved

A manifest is replaced as a whole or stays as it is, whichever call fails. What is saved is read again except for blank
names, and what has been read can be saved and is then read again.
-/

namespace MachineBundle

open Tree Filing

namespace Text

/-- Between line feeds there are the other characters of a text. -/
theorem mem_entries {cs e : List Char} (h : e ∈ entries cs) : ∀ c ∈ e, c ∈ cs ∧ c ≠ '\n' := by
  induction cs generalizing e with
  | nil =>
    cases List.mem_singleton.mp h
    exact fun c hc => absurd hc List.not_mem_nil
  | cons d r ih =>
    have hrest : ∀ e ∈ entries r, ∀ c ∈ e, c ∈ d :: r ∧ c ≠ '\n' := fun e he c hc =>
      (ih he c hc).imp_left (List.mem_cons_of_mem d)
    rw [entries] at h
    split at h
    · rcases List.mem_cons.mp h with rfl | h
      · exact fun c hc => absurd hc List.not_mem_nil
      · exact hrest e h
    · -- the first entry of the rest goes on from the character
      rename_i hd
      cases hr : entries r with
      | nil =>
        rw [hr, consFirst, List.mem_singleton] at h
        rw [h]
        exact List.forall_mem_singleton.mpr ⟨List.mem_cons_self, hd⟩
      | cons first others =>
        rw [hr, consFirst] at h
        rw [hr] at hrest
        rcases List.mem_cons.mp h with rfl | h
        · exact List.forall_mem_cons.mpr ⟨⟨List.mem_cons_self, hd⟩, hrest first List.mem_cons_self⟩
        · exact hrest e (List.mem_cons_of_mem first h)

end Text

namespace Arrangement

variable {t t' : Tree} {directory : Path} {names : List String} {scene scene' : Scene}

/-! ## Names and lines -/

theorem hasLineBreak_eq_false_iff {name : String} :
    hasLineBreak name = false ↔ '\n' ∉ name.toList ∧ '\r' ∉ name.toList := by
  unfold hasLineBreak
  rw [List.any_eq_false]
  simp only [decide_eq_true_eq, Bool.or_eq_true, not_or]
  constructor
  · exact fun h => ⟨fun hn => (h _ hn).1 rfl, fun hr => (h _ hr).2 rfl⟩
  · rintro ⟨hn, hr⟩ c hc
    exact ⟨fun he => hn (he ▸ hc), fun he => hr (he ▸ hc)⟩

/-- Names are read from a file that holds their manifest. -/
theorem loadNames_of_manifest (h : ∀ n ∈ names, hasLineBreak n = false)
    (hread : t.readBytes (manifestPath directory) = .ok (manifestOf names).toUTF8) :
    loadNames t directory = .ok (names.filter fun n => !Text.isBlankText n) := by
  have hreturn : '\r' ∉ (manifestOf names).toList :=
    Source.not_mem_unlines (by decide) fun n hn => (hasLineBreak_eq_false_iff.mp (h n hn)).2
  have htext : textOf (manifestOf names).toUTF8 = .ok (manifestOf names) := Text.textOf_encode hreturn
  rw [loadNames_of_readBytes hread, htext, Except.map,
    namesIn_manifestOf fun n hn => (hasLineBreak_eq_false_iff.mp (h n hn)).1]

/-- Names that are read from a manifest can be saved, and none of them is blank. -/
theorem loadNames_ok (h : loadNames t directory = .ok names) :
    ∃ content, t.readBytes (manifestPath directory) = .ok content ∧
      ∀ n ∈ names, hasLineBreak n = false ∧ Text.isBlankText n = false := by
  obtain ⟨there, hthere, h⟩ := except_bind_eq_ok h
  cases there with
  | false => cases h
  | true =>
    obtain ⟨text, htext, h⟩ := except_bind_eq_ok h
    cases h
    obtain ⟨content, hcontent, -⟩ := except_bind_eq_ok htext
    refine ⟨content, hcontent, fun n hn => ?_⟩
    obtain ⟨line, hline, rfl⟩ := List.mem_map.mp hn
    obtain ⟨hentry, hkept⟩ := List.mem_filter.mp hline
    refine ⟨hasLineBreak_eq_false_iff.mpr ?_, ?_⟩
    · rw [String.toList_ofList]
      have hentries := Text.mem_entries hentry
      exact ⟨fun hm => (hentries _ hm).2 rfl, fun hm => not_mem_of_readText htext (hentries _ hm).1⟩
    · rw [Text.isBlankText, String.toList_ofList]
      simpa using hkept

/-! ## Saving -/

/-- A manifest is written on a disk that refuses some calls. -/
def saveNamesOn (h : Hindrance) (directory : Path) (names : List String) : Action Path := do
  match names.find? hasLineBreak with
  | some name => throw (.lineBreakInName name)
  | none =>
    h.writeFile (manifestPath directory) (.ofText (manifestOf names) .utf8)
    return manifestPath directory

/-- Where nothing is refused, a manifest is written as it is by the tree alone. -/
theorem saveNamesOn_none (directory : Path) (names : List String) :
    saveNamesOn .none directory names = saveNames directory names := rfl

variable {h : Hindrance}

theorem saveNamesOn_eq_ok {path : Path} (ho : outcome (saveNamesOn h directory names) scene = (.ok path, scene')) :
    (∀ n ∈ names, hasLineBreak n = false) ∧ path = manifestPath directory ∧
      Atomic.Written scene.tree path (manifestOf names).toUTF8 scene'.tree := by
  unfold saveNamesOn at ho
  cases hbreak : names.find? hasLineBreak with
  | some name =>
    rw [hbreak] at ho
    cases ho
  | none =>
    rw [hbreak] at ho
    obtain ⟨u, scene₁, hwrite, ho⟩ := outcome_bind_eq_ok ho
    cases ho
    obtain ⟨s, content, hcontent, hwritten⟩ := Hindrance.writeFile_eq_ok hwrite
    rw [Atomic.content_ofText, Except.ok.injEq] at hcontent
    rw [List.find?_eq_none] at hbreak
    exact ⟨fun n hn => Bool.eq_false_iff.mpr (hbreak n hn), rfl, hcontent ▸ hwritten⟩

theorem saveNamesOn_eq_error {f : Fault} (ho : outcome (saveNamesOn h directory names) scene = (.error f, scene')) :
    Grows scene.tree scene'.tree ∧ scene'.tree.scratch.Perm scene.tree.scratch := by
  unfold saveNamesOn at ho
  cases hbreak : names.find? hasLineBreak with
  | some name =>
    rw [hbreak] at ho
    cases ho
    exact ⟨.refl _, .refl _⟩
  | none =>
    rw [hbreak, outcome_bind] at ho
    rcases hwrite : outcome (h.writeFile (manifestPath directory) (.ofText (manifestOf names) .utf8)) scene
      with ⟨g | u, scene₁⟩
    · rw [hwrite] at ho
      cases ho
      exact Hindrance.writeFile_eq_error hwrite
    · rw [hwrite] at ho
      cases ho

/-- A name with a line break is reported before anything is done. -/
theorem outcome_saveNamesOn_of_break (hbreak : ∃ n ∈ names, hasLineBreak n = true) (scene : Scene) :
    ∃ n ∈ names, hasLineBreak n = true ∧
      outcome (saveNamesOn h directory names) scene = (.error (.lineBreakInName n), scene) := by
  obtain ⟨n, hn⟩ := Option.isSome_iff_exists.mp (List.find?_isSome.mpr hbreak)
  refine ⟨n, List.mem_of_find?_eq_some hn, List.find?_some hn, ?_⟩
  unfold saveNamesOn
  rw [hn]
  rfl

/-- Whatever a disk refuses, a manifest is either saved or reported as not saved. If it is saved its file holds all names, each
on a line, and otherwise all files are as they were. No other file is changed and no scratch file is left in either case; and if
a name has a line break, nothing at all is done. -/
theorem save_replaces_or_keeps (h : Hindrance) (directory : Path) (names : List String) (scene : Scene) :
    let after := outcome (saveNamesOn h directory names) scene
    (∀ path, after.1 = .ok path → path = manifestPath directory ∧
      after.2.tree.readBytes path = .ok (String.join (names.map (· ++ "\n"))).toUTF8 ∧
      after.2.tree.file? (scene.tree.locate path) = some (String.join (names.map (· ++ "\n"))).toUTF8) ∧
    (∀ f, after.1 = .error f → after.2.tree.file? = scene.tree.file?) ∧
    (∀ l, l ≠ scene.tree.locate (manifestPath directory) → after.2.tree.file? l = scene.tree.file? l) ∧
    after.2.tree.scratch.Perm scene.tree.scratch ∧
    ((∃ n ∈ names, hasLineBreak n = true) →
      ∃ n ∈ names, hasLineBreak n = true ∧ after = (.error (.lineBreakInName n), scene)) := by
  intro after
  have hbreak : (∃ n ∈ names, hasLineBreak n = true) →
      ∃ n ∈ names, hasLineBreak n = true ∧ after = (.error (.lineBreakInName n), scene) := fun hb =>
    outcome_saveNamesOn_of_break hb scene
  rcases ho : outcome (saveNamesOn h directory names) scene with ⟨f | path, scene'⟩
  · obtain ⟨hgrows, hscratch⟩ := saveNamesOn_eq_error ho
    have hfiles : scene'.tree.file? = scene.tree.file? := funext hgrows.file?_eq
    have hafter : after = (.error f, scene') := ho
    rw [hafter] at hbreak ⊢
    exact ⟨nofun, fun _ _ => hfiles, fun l _ => congrFun hfiles l, hscratch, hbreak⟩
  · obtain ⟨-, hpath, hwritten⟩ := saveNamesOn_eq_ok ho
    have hafter : after = (.ok path, scene') := ho
    rw [hafter] at hbreak ⊢
    refine ⟨fun p hp => ?_, nofun, fun l hl => ?_, hwritten.scratch, hbreak⟩
    · obtain rfl := Except.ok.inj hp
      refine ⟨hpath, hwritten.readBytes, ?_⟩
      rw [hwritten.file?, if_pos rfl]
      rfl
    · rw [hwritten.file?, hpath, if_neg hl.symm]

/-! ## Saving what is read and reading what is saved -/

/-- Where no name has a line break and no path is at fault as such, no fault in saving is that of a value. -/
theorem saveNames_not_badValue (hnames : ∀ n ∈ names, hasLineBreak n = false) (hnull : hasNull directory = false) :
    ¬FailsBy Fault.isBadValue (saveNames directory names) scene := by
  have hpath : hasNull (manifestPath directory) = false := by
    rw [manifestPath, Path.hasNull_join directory fileName_manifestFile.isName, hnull]
    rfl
  have hcreate : FailsOnly (fun f => !f.isBadValue) (createScratch (manifestPath directory)) :=
    createScratch_failsOnly (fun _ _ => rfl) fun hn => absurd (hpath.symm.trans hn) Bool.false_ne_true
  have hwrite : FailsOnly (fun f => !f.isBadValue) (Atomic.writeText (manifestPath directory) (manifestOf names)) := by
    refine (FailsOnly.file hcreate).bind fun s _ _ _ => (Atomic.complete_failsOnly _ _ s).mono fun f hf => ?_
    cases f <;> first | rfl | cases hf
  have hnone : names.find? hasLineBreak = none := List.find?_eq_none.mpr fun n hn => by simp [hnames n hn]
  have hsave : FailsOnly (fun f => !f.isBadValue) (saveNames directory names) := by
    unfold saveNames
    rw [hnone]
    exact hwrite.bind fun _ _ _ _ => .pure _
  exact hsave.not_failsBy fun f hf => by simpa using hf

theorem loadNames_of_grows (hgrows : Grows t t') (hload : loadNames t directory = .ok names) :
    loadNames t' directory = .ok names := by
  obtain ⟨content, hread, -⟩ := loadNames_ok hload
  have hname : (manifestPath directory).name = manifestFile := Path.name_join directory fileName_manifestFile.isName
  have hread' := hgrows.readBytes (by rw [hname]; decide) (by rw [hname]; decide) hread
  rw [loadNames_of_readBytes hread', ← loadNames_of_readBytes hread, hload]

/-- Names that have been saved are read again, except for blank ones. -/
theorem loadNames_of_saveNames {path : Path} (ho : outcome (saveNames directory names) scene = (.ok path, scene')) :
    loadNames scene'.tree directory = .ok (names.filter fun n => !Text.isBlankText n) := by
  obtain ⟨hnames, rfl, hwritten⟩ := saveNamesOn_eq_ok (h := .none) ho
  exact loadNames_of_manifest hnames hwritten.readBytes

/-- What is saved is read again, in order and with repetitions, except for blank names. What has been read, however its lines
end, can be saved in any place without being at fault, and is then read again as it is; and in its own place it is read again
even if it could not be saved. -/
theorem manifest_round_trip :
    (∀ (directory : Path) (names : List String) (scene scene' : Scene) (path : Path),
      outcome (saveNames directory names) scene = (.ok path, scene') →
        loadNames scene'.tree directory = .ok (names.filter fun n => !Text.isBlankText n)) ∧
    ∀ (directory : Path) (names : List String) (scene : Scene), loadNames scene.tree directory = .ok names →
      ¬FailsBy Fault.isBadValue (saveNames directory names) scene ∧
      loadNames (outcome (saveNames directory names) scene).2.tree directory = .ok names ∧
      ∀ (other : Path) (scene₁ : Scene), hasNull other = false →
        ¬FailsBy Fault.isBadValue (saveNames other names) scene₁ ∧
        ∀ path scene₂, outcome (saveNames other names) scene₁ = (.ok path, scene₂) →
          loadNames scene₂.tree other = .ok names := by
  refine ⟨fun _ _ _ _ _ ho => loadNames_of_saveNames ho, fun directory names scene hload => ?_⟩
  obtain ⟨content, hread, hall⟩ := loadNames_ok hload
  have hclean : ∀ n ∈ names, hasLineBreak n = false := fun n hn => (hall n hn).1
  have hkept : (names.filter fun n => !Text.isBlankText n) = names :=
    List.filter_eq_self.mpr fun n hn => by simp [(hall n hn).2]
  have hname : (manifestPath directory).name = manifestFile := Path.name_join directory fileName_manifestFile.isName
  obtain ⟨hpath, -⟩ := slot?_of_readBytes (by rw [hname]; decide) (by rw [hname]; decide) hread
  rw [manifestPath, Path.hasNull_join directory fileName_manifestFile.isName, Bool.or_eq_false_iff] at hpath
  refine ⟨saveNames_not_badValue hclean hpath.1, ?_, fun other scene₁ hother => ⟨saveNames_not_badValue hclean hother, ?_⟩⟩
  · rcases ho : outcome (saveNames directory names) scene with ⟨f | path, scene'⟩
    · exact loadNames_of_grows (saveNamesOn_eq_error (h := .none) ho).1 hload
    · rw [loadNames_of_saveNames ho, hkept]
  · intro path scene₂ ho
    rw [loadNames_of_saveNames ho, hkept]

/-- A manifest with all kinds of line ends. -/
def mixedLines : Tree where
  home := ["work"]
  nodes :=
    [(["work"], .directory), (["work", "d"], .directory),
      (["work", "d", "Machines"], .file "b\r\n \u2028\ra\x0b\r\n\n b ".toUTF8)]
  scratch := []

theorem mixed_lines_round_trip :
    (∃ path scene', outcome (saveNames (.ofText "d") ["b", " \u2028", "b"]) .start = (.ok path, scene') ∧
      loadNames scene'.tree (.ofText "d") = .ok ["b", "b"]) ∧
    loadNames mixedLines (.ofText "d") = .ok ["b", "a\x0b", " b "] ∧
      loadNames (outcome (saveNames (.ofText "d") ["b", "a\x0b", " b "]) ⟨mixedLines, ⟨.start, []⟩⟩).2.tree (.ofText "d") =
        .ok ["b", "a\x0b", " b "] := by
  obtain ⟨path, scene', hsave⟩ : ∃ path scene', outcome (saveNames (.ofText "d") ["b", " \u2028", "b"]) .start =
      (.ok path, scene') := exists_of_isOk (by decide)
  have hload : loadNames mixedLines (.ofText "d") = .ok ["b", "a\x0b", " b "] := by decide
  exact ⟨⟨path, scene', hsave, manifest_round_trip.1 _ _ _ _ _ hsave⟩, hload,
    (manifest_round_trip.2 _ _ ⟨mixedLines, ⟨.start, []⟩⟩ hload).2.1⟩

end Arrangement

end MachineBundle
