import MachineBundle.Proofs.Bundle.Canonical

/-!
# Copies of a bundle

Where nothing stood, an export leaves the files of the bundle and no others. So a bundle that was exported, loaded and
exported again to another place is there twice, file by file and byte by byte.
-/

namespace MachineBundle

namespace Export

open Bundle

variable {o : Options} {m m' : Machine} {destination : Path} {b : Binding} {scene scene' : Scene} {report : Report}

/-! ## The files at a destination -/

/-- The content of the file of a name among others. -/
def contentAt (fs : List File) : Location → Option ByteArray
  | [n] => (fs.find? fun f => f.1 = n).map Prod.snd
  | _ => none

theorem contentAt_eq_some {fs : List File} {rest : Location} {c : ByteArray} (h : contentAt fs rest = some c) :
    ∃ f ∈ fs, rest = [f.1] ∧ f.2 = c := by
  unfold contentAt at h
  split at h
  · rename_i n
    obtain ⟨f, hf, rfl⟩ := Option.map_eq_some_iff.mp h
    have hname : f.1 = n := by simpa using List.find?_some hf
    exact ⟨f, List.mem_of_find?_eq_some hf, by rw [hname], rfl⟩
  · cases h

theorem contentAt_eq_none {fs : List File} {rest : Location} (h : contentAt fs rest = none) :
    ∀ f ∈ fs, rest ≠ [f.1] := by
  rintro f hf rfl
  rw [contentAt, Option.map_eq_none_iff, List.find?_eq_none] at h
  exact h f hf (by simp)

/-- An export leaves alone what is not in the place of one of its files. -/
theorem file?_outside (h : outcome (machine o m destination b) scene = (.ok report, scene'))
    (hnames : ∀ f ∈ files m b destination.stem o.isSuspensible, FileName f.1) {l : Location}
    (hl : ∀ n, l ≠ scene.tree.locate destination ++ [n]) : scene'.tree.file? l = scene.tree.file? l := by
  obtain ⟨n, hc⟩ := machine_commit h
  refine Batch.file?_of_commit hc fun w hw => ?_
  obtain ⟨f, hf, rfl⟩ := List.mem_map.mp hw
  rw [scene.tree.locate_join_fileName destination (hnames f hf)]
  exact (hl f.1).symm

/-- At its destination an export leaves its files, and what stands there under other names. -/
theorem file?_inside (h : outcome (machine o m destination b) scene = (.ok report, scene'))
    (hnames : ∀ f ∈ files m b destination.stem o.isSuspensible, FileName f.1)
    (hnodup : ((files m b destination.stem o.isSuspensible).map Prod.fst).Nodup) (rest : Location) :
    scene'.tree.file? (scene.tree.locate destination ++ rest) =
      (contentAt (files m b destination.stem o.isSuspensible) rest).or
        (scene.tree.file? (scene.tree.locate destination ++ rest)) := by
  obtain ⟨n, hc⟩ := machine_commit h
  cases hcontent : contentAt (files m b destination.stem o.isSuspensible) rest with
  | none =>
    rw [Option.none_or]
    refine Batch.file?_of_commit hc fun w hw hl => ?_
    obtain ⟨f, hf, rfl⟩ := List.mem_map.mp hw
    rw [scene.tree.locate_join_fileName destination (hnames f hf)] at hl
    exact contentAt_eq_none hcontent f hf (List.append_cancel_left hl).symm
  | some c =>
    obtain ⟨f, hf, rfl, rfl⟩ := contentAt_eq_some hcontent
    have hlocate := scene.tree.locate_join_fileName destination (hnames f hf)
    rw [Option.some_or, ← hlocate]
    refine Batch.file?_of_commit_alone hc (List.mem_map.mpr ⟨f, hf, rfl⟩) (batchOf_alone fun g hg hl => ?_)
    rw [scene.tree.locate_join_fileName destination (hnames g hg), hlocate] at hl
    have hname : g.1 = f.1 := by simpa using hl
    rw [List.inj_on_of_nodup_map hnodup hg hf hname]

/-- What an export comes to depends on the files of the machine, not on the machine itself. -/
theorem machine_congr
    (hfiles : files m' b destination.stem o.isSuspensible = files m b destination.stem o.isSuspensible)
    (h : outcome (machine o m destination b) scene = (.ok report, scene')) :
    ∃ scene'', outcome (machine o m' destination b) scene = (.ok report, scene'') := by
  obtain ⟨_, s₁, hcheck, h⟩ := outcome_bind_eq_ok h
  obtain ⟨written, s₂, hwrite, h⟩ := outcome_bind_eq_ok h
  rw [outcome_bind_ok (outcome_notify _ _), outcome_pure, Prod.mk.injEq] at h
  rw [machine, outcome_bind_ok hcheck, hfiles, outcome_bind_ok hwrite, outcome_bind_ok (outcome_notify _ _),
    outcome_pure, h.1]
  exact ⟨_, rfl⟩

/-! ## Two destinations -/

/-- A location lies below another one. -/
def Below (base l : Location) : Prop :=
  ∃ rest, rest ≠ [] ∧ l = base ++ rest

/-- What lies at or below a location is no entry of another one that neither lies below it nor has it below. -/
theorem ne_concat_of_apart {l₁ l₂ : Location} (hne : l₁ ≠ l₂) (h₁ : ¬Below l₁ l₂) (h₂ : ¬Below l₂ l₁)
    (rest : Location) (n : String) : l₂ ++ rest ≠ l₁ ++ [n] := by
  intro he
  rcases List.append_eq_append_iff.mp he with ⟨ways, rfl, -⟩ | ⟨ways, rfl, -⟩
  · refine h₂ ⟨ways, ?_, rfl⟩
    rintro rfl
    exact hne (List.append_nil _)
  · refine h₁ ⟨ways, ?_, rfl⟩
    rintro rfl
    exact hne (List.append_nil _).symm

/-- Machines that have the same files leave the same files at two free places that lie apart. -/
theorem file?_of_exports {destination₁ destination₂ : Path} {scene₁ scene₂ : Scene} {report₁ report₂ : Report}
    {trail : Trail} (hfiles : files m' b destination₂.stem o.isSuspensible = files m b destination₁.stem o.isSuspensible)
    (hnames : ∀ f ∈ files m b destination₁.stem o.isSuspensible, FileName f.1)
    (hnodup : ((files m b destination₁.stem o.isSuspensible).map Prod.fst).Nodup)
    (hfree₁ : scene.tree.IsFree (scene.tree.locate destination₁))
    (hfree₂ : scene.tree.IsFree (scene.tree.locate destination₂))
    (hapart₁ : ¬Below (scene.tree.locate destination₁) (scene.tree.locate destination₂))
    (hapart₂ : ¬Below (scene.tree.locate destination₂) (scene.tree.locate destination₁))
    (h₁ : outcome (machine o m destination₁ b) scene = (.ok report₁, scene₁))
    (h₂ : outcome (machine o m' destination₂ b) ⟨scene₁.tree, trail⟩ = (.ok report₂, scene₂)) (rest : Location) :
    scene₂.tree.file? (scene.tree.locate destination₁ ++ rest) =
      scene₂.tree.file? (scene.tree.locate destination₂ ++ rest) := by
  by_cases hsame : scene.tree.locate destination₁ = scene.tree.locate destination₂
  · rw [hsame]
  have hnames₂ : ∀ f ∈ files m' b destination₂.stem o.isSuspensible, FileName f.1 := by
    rw [hfiles]
    exact hnames
  have hlocate : scene₁.tree.locate destination₂ = scene.tree.locate destination₂ :=
    Tree.locate_congr (place_of_bundle h₁).2.2 _
  -- The first export leaves its files at the first destination and nothing at the second one.
  have hfirst : scene₁.tree.file? (scene.tree.locate destination₁ ++ rest) =
      contentAt (files m b destination₁.stem o.isSuspensible) rest := by
    rw [file?_inside h₁ hnames hnodup rest, hfree₁.file?, Option.or_none]
  have hsecond : scene₁.tree.file? (scene.tree.locate destination₂ ++ rest) = none := by
    rw [file?_outside h₁ hnames (ne_concat_of_apart hsame hapart₁ hapart₂ rest), hfree₂.file?]
  -- The second export leaves the same files at the second destination, and the first one as it is.
  have hkept : scene₂.tree.file? (scene.tree.locate destination₁ ++ rest) =
      scene₁.tree.file? (scene.tree.locate destination₁ ++ rest) := by
    refine file?_outside h₂ hnames₂ ?_
    rw [hlocate]
    exact ne_concat_of_apart (Ne.symm hsame) hapart₂ hapart₁ rest
  have hcopied := file?_inside h₂ hnames₂ (by rw [hfiles]; exact hnodup) rest
  dsimp only at hcopied
  rw [hlocate, hfiles, hsecond, Option.or_none] at hcopied
  rw [hkept, hfirst, hcopied]

/-- A loaded machine that is loaded again from its bundle has the files of this bundle. -/
theorem files_of_loaded_again
    (hm : ∃ t bundle binding trail trail', outcome (Machine.load bundle binding t) trail = (.ok m, trail'))
    (hnames : ∀ s ∈ m.graph.listedStates, Source.FitName s.name) (hstem : Source.FitName destination.stem)
    (hfree : scene.tree.IsFree (scene.tree.locate destination))
    (h : outcome (machine o m destination b) scene = (.ok report, scene')) (hn : report.files.Nodup)
    {trail trail' : Trail}
    (hload : outcome (Machine.load destination none scene'.tree) trail = (.ok m', trail')) :
    m'.binding = b ∧
      files m' b destination.stem o.isSuspensible = files m b destination.stem o.isSuspensible := by
  obtain ⟨t, bundle, binding, trail₀, trail₀', hm⟩ := hm
  have hcanonical := canonical_of_load hm
  have hfit : Source.FitPlan (.of m b destination.stem o.isSuspensible) := fitPlan_of hstem hnames
  have hstored := machine_stored h hn hfit.plain hstem.nonempty
  obtain ⟨trail₁, hagain, hrestored⟩ :=
    load_stored hstored hcanonical.graph hcanonical.unbroken hnames hstem (load_ok hload).2 trail
  have hsame := congrArg Prod.fst (hload.symm.trans hagain)
  rw [Except.ok.injEq] at hsame
  rw [← hsame] at hrestored
  have hplace : scene.tree.file? (scene.tree.locate (destination.join windowLayoutFile)) = none := by
    rw [scene.tree.locate_join_fileName destination fileName_windowLayoutFile]
    exact hfree.file? _
  obtain ⟨-, hcode⟩ := load_code (stateNames_stored hstored hfit hcanonical.graph.statesKnown) hload
  have hkept := codeKept_stored hstored hcanonical.graph.statesKnown hrestored.binding hcode
    (windowLayout_restored h hstored (fun _ => hplace) hload)
  exact ⟨hrestored.binding, hrestored.files_eq id hkept hcanonical (canonical_of_load hload)⟩

/-- A bundle that is exported from a loaded machine is in canonical form: it can be loaded if the path of a window layout
can be looked at, and what is loaded of it, exported again in its own language, has the same files with the same bytes. -/
theorem machine_is_canonical (o : Options) (m : Machine) (destination₁ destination₂ : Path) (b : Binding)
    (scene scene₁ : Scene) (report₁ : Report)
    (hm : ∃ t bundle binding trail trail', outcome (Machine.load bundle binding t) trail = (.ok m, trail'))
    (hnames : ∀ s ∈ m.graph.listedStates, Source.FitName s.name) (hstem : Source.FitName destination₁.stem)
    (hstems : destination₂.stem = destination₁.stem)
    (hfree₁ : scene.tree.IsFree (scene.tree.locate destination₁))
    (hfree₂ : scene.tree.IsFree (scene.tree.locate destination₂))
    (hapart₁ : ¬Below (scene.tree.locate destination₁) (scene.tree.locate destination₂))
    (hapart₂ : ¬Below (scene.tree.locate destination₂) (scene.tree.locate destination₁))
    (h₁ : outcome (machine o m destination₁ b) scene = (.ok report₁, scene₁)) (hn : report₁.files.Nodup)
    (trail₁ trail₂ : Trail) :
    ((destination₁.join windowLayoutFile).text.utf8ByteSize < Tree.pathLimit →
        ∃ m' trail', outcome (Machine.load destination₁ none scene₁.tree) trail₁ = (.ok m', trail')) ∧
      ∀ m' trail', outcome (Machine.load destination₁ none scene₁.tree) trail₁ = (.ok m', trail') →
        ∀ report₂ scene₂, outcome (machine o m' destination₂ m'.binding) ⟨scene₁.tree, trail₂⟩ = (.ok report₂, scene₂) →
          ∀ rest, scene₂.tree.file? (scene.tree.locate destination₁ ++ rest) =
            scene₂.tree.file? (scene.tree.locate destination₂ ++ rest) := by
  obtain ⟨_, _, _, _, _, hloaded⟩ := id hm
  refine ⟨fun hroom => ?_, fun m' trail' hload report₂ scene₂ h₂ rest => ?_⟩
  · exact load_exported (canonical_of_load hloaded).graph.statesKnown hnames hstem hroom h₁ hn trail₁
  have hfit : Source.FitPlan (.of m b destination₁.stem o.isSuspensible) := fitPlan_of hstem hnames
  obtain ⟨hbinding, hfiles⟩ := files_of_loaded_again hm hnames hstem hfree₁ h₁ hn hload
  rw [hbinding] at h₂
  exact file?_of_exports (by rw [hstems]; exact hfiles) (fileName_files hfit.plain hstem.nonempty)
    (machine_stored h₁ hn hfit.plain hstem.nonempty).nodup hfree₁ hfree₂ hapart₁ hapart₂ h₁ h₂ rest

/-- Whether a machine can be exported to `B` and then to `d/B`, its files having different names. -/
def isExportedTwice (m : Machine) (scene : Scene) : Bool :=
  match outcome (machine ⟨none, true⟩ m (.ofText "B") .objectiveCpp) scene with
  | (.ok report, scene') =>
    decide report.files.Nodup && (outcome (machine ⟨none, true⟩ m (.ofText "d/B") .objectiveCpp) scene').1.isOk
  | (.error _, _) => false

theorem exists_of_isExportedTwice {m : Machine} {scene : Scene} (h : isExportedTwice m scene = true) :
    ∃ report₁ report₂ scene₁ scene₂,
      outcome (machine ⟨none, true⟩ m (.ofText "B") .objectiveCpp) scene = (.ok report₁, scene₁) ∧
      report₁.files.Nodup ∧
      outcome (machine ⟨none, true⟩ m (.ofText "d/B") .objectiveCpp) scene₁ = (.ok report₂, scene₂) := by
  unfold isExportedTwice at h
  split at h
  · rename_i report scene' h₁
    rw [Bool.and_eq_true, decide_eq_true_eq] at h
    obtain ⟨report₂, scene₂, h₂⟩ := exists_of_isOk h.2
    exact ⟨report, report₂, scene', scene₂, h₁, h.1, h₂⟩
  · cases h

/-- A bundle in one language that is exported in another one, and again to a place whose directory is not there. -/
theorem oneState_is_canonical :
    ∃ report₁ report₂ scene₁ scene₂ m' trail',
      outcome (machine ⟨none, true⟩ oneState (.ofText "B") .objectiveCpp) ⟨besideNothing, ⟨.start, []⟩⟩ =
        (.ok report₁, scene₁) ∧
      outcome (Machine.load (.ofText "B") none scene₁.tree) ⟨.start, []⟩ = (.ok m', trail') ∧
      outcome (machine ⟨none, true⟩ m' (.ofText "d/B") m'.binding) scene₁ = (.ok report₂, scene₂) ∧
      ∀ rest, scene₂.tree.file? (["work", "B"] ++ rest) = scene₂.tree.file? (["work", "d", "B"] ++ rest) := by
  have hexported : isExportedTwice oneState ⟨besideNothing, ⟨.start, []⟩⟩ = true := by decide +kernel
  obtain ⟨report₁, report₂, scene₁, _, h₁, hnodup, h₂⟩ := exists_of_isExportedTwice hexported
  have hstem : Source.FitName (Path.ofText "B").stem := by decide
  have hstems : (Path.ofText "d/B").stem = (Path.ofText "B").stem := by decide
  have hnames : ∀ s ∈ oneState.graph.listedStates, Source.FitName s.name := by decide
  obtain ⟨trail, hm⟩ := load_besideNothing
  have hplace₁ : besideNothing.locate (.ofText "B") = ["work", "B"] := by decide
  have hplace₂ : besideNothing.locate (.ofText "d/B") = ["work", "d", "B"] := by decide
  have hfree₁ : besideNothing.IsFree (besideNothing.locate (.ofText "B")) := by
    rw [hplace₁]
    exact Tree.isFree_of_nodes (by decide) (by decide)
  have hfree₂ : besideNothing.IsFree (besideNothing.locate (.ofText "d/B")) := by
    rw [hplace₂]
    exact Tree.isFree_of_nodes (by decide) (by decide)
  have hapart₁ : ¬Below (besideNothing.locate (.ofText "B")) (besideNothing.locate (.ofText "d/B")) := by
    simp [hplace₁, hplace₂, Below]
  have hapart₂ : ¬Below (besideNothing.locate (.ofText "d/B")) (besideNothing.locate (.ofText "B")) := by
    simp [hplace₁, hplace₂, Below]
  have hroom : ((Path.ofText "B").join windowLayoutFile).text.utf8ByteSize < Tree.pathLimit := by decide
  obtain ⟨hloads, hsame⟩ := machine_is_canonical ⟨none, true⟩ oneState (.ofText "B") (.ofText "d/B") .objectiveCpp
    ⟨besideNothing, ⟨.start, []⟩⟩ scene₁ report₁ ⟨_, _, _, _, _, hm⟩ hnames hstem hstems hfree₁ hfree₂ hapart₁ hapart₂ h₁
    hnodup ⟨.start, []⟩ scene₁.trail
  obtain ⟨m', trail', hload⟩ := hloads hroom
  -- The machine that is loaded again is not computed: it has the files of the first one, which have been written twice.
  obtain ⟨hbinding, hfiles⟩ := files_of_loaded_again ⟨_, _, _, _, _, hm⟩ hnames hstem hfree₁ h₁ hnodup hload
  rw [← hstems] at hfiles
  obtain ⟨scene₂, h₂⟩ := machine_congr hfiles h₂
  rw [← hbinding] at h₂
  have hcopied := hsame m' trail' hload report₂ scene₂ h₂
  rw [hplace₁, hplace₂] at hcopied
  exact ⟨report₁, report₂, scene₁, scene₂, m', trail', h₁, hload, h₂, hcopied⟩

end Export

end MachineBundle
