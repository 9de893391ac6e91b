import MachineBundle.Proofs.Arrangement.Machines
import MachineBundle.Proofs.Bundle.Files

/-!
# Machines that a conversion keeps

A conversion writes one bundle for each stem of the bundles that it has loaded. So it keeps all machines apart exactly
if no two of those bundles have the same stem.
-/

namespace MachineBundle.Arrangement

/-- The directory inside an arrangement that the bundle of a machine is written to. -/
def bundleDirectory (m : Machine) : String :=
  m.name ++ bundleSuffix

/-- The loaded machines that are written, each with the bundle that it comes from. -/
def writtenEntries (loaded : List (Path × Machine)) : List (Path × Machine) :=
  firstOf (fun e => e.2.name) [] loaded

/-- No two of the loaded bundles have the same stem. -/
def StemsDiffer (loaded : List (Path × Machine)) : Prop :=
  ∀ e ∈ loaded, ∀ e' ∈ loaded, e.1.stem = e'.1.stem → e.1 = e'.1

theorem map_snd_writtenEntries (loaded : List (Path × Machine)) :
    (writtenEntries loaded).map Prod.snd = firstOfEachName [] (loaded.map Prod.snd) := by
  rw [firstOfEachName_eq, ← map_firstOf]
  rfl

variable {loaded : List (Path × Machine)} {table : Table Path Machine}

theorem bundleDirectory_inj {m m' : Machine} : bundleDirectory m = bundleDirectory m' ↔ m.name = m'.name := by
  unfold bundleDirectory
  exact ⟨fun h => (String.append_left_inj _).mp h, fun h => by rw [h]⟩

/-- Where each bundle is loaded once, all entries are written exactly if the stems of the bundles differ. -/
theorem forall_mem_writtenEntries_iff (h : ∀ e ∈ loaded, table.get? e.1 = some e.2 ∧ e.2.name = e.1.stem) :
    (∀ e ∈ loaded, e ∈ writtenEntries loaded) ↔ StemsDiffer loaded := by
  constructor
  · intro hall e he e' he' hstem
    have hnames : e.2.name = e'.2.name := by rw [(h e he).2, (h e' he').2, hstem]
    rw [List.inj_on_of_nodup_map (nodup_firstOf _ [] loaded) (hall e he) (hall e' he') hnames]
  · intro hdiffer e he
    have hfirst : ∃ e' ∈ writtenEntries loaded, e'.2.name = e.2.name := exists_firstOf he List.not_mem_nil
    obtain ⟨e', hw, hname⟩ := hfirst
    have he' := (mem_firstOf hw).1
    have hstem : e'.1.stem = e.1.stem := by rw [← (h e' he').2, ← (h e he).2, hname]
    have hpath := hdiffer e' he' e he hstem
    have hmachine : e'.2 = e.2 := by
      have hm := (h e' he').1
      rw [hpath, (h e he).1] at hm
      exact (Option.some.inj hm).symm
    rwa [← Prod.ext hpath hmachine]

theorem directories_differ_iff (h : ∀ e ∈ loaded, table.get? e.1 = some e.2 ∧ e.2.name = e.1.stem) :
    (∀ e ∈ loaded, ∀ e' ∈ loaded, e.1 ≠ e'.1 → bundleDirectory e.2 ≠ bundleDirectory e'.2) ↔ StemsDiffer loaded := by
  refine forall₂_congr fun e he => forall₂_congr fun e' he' => ?_
  rw [bundleDirectory_inj.ne, (h e he).2, (h e' he').2]
  exact not_imp_not

/-! ## Conversions -/

variable {o : Export.Options} {directory destination : Path} {scene scene' : Scene} {report : Export.Report}

theorem write_ok {machines : List Machine} {binding : Option Binding}
    (h : outcome (write o machines destination binding) scene = (.ok report, scene')) :
    outcome (Export.writeFiles destination (files machines (bindingOf machines binding) o.isSuspensible)) scene =
      (.ok report.files, scene') := by
  have hwrite : outcome (do
      let written ← Export.writeFiles destination (files machines (bindingOf machines binding) o.isSuspensible)
      return ⟨destination, bindingOf machines binding, written⟩) scene = (.ok report, scene') := by
    unfold write at h
    dsimp only at h
    split at h
    · obtain ⟨_, scene₁, hq, h₁⟩ := outcome_bind_eq_ok h
      obtain ⟨_, rfl⟩ := outcome_query_eq_ok hq
      exact h₁
    · exact h
  obtain ⟨written, scene₁, hw, h₁⟩ := outcome_bind_eq_ok hwrite
  rw [outcome_pure, Prod.mk.injEq, Except.ok.injEq] at h₁
  obtain ⟨rfl, rfl⟩ := h₁
  exact hw

theorem convert_ok {format : Option String}
    (h : outcome (convert o directory destination format) scene = (.ok report, scene')) :
    ∃ binding names trail loaded trail', loadNames scene.tree directory = .ok names ∧
      outcome (loadMachines directory names none scene.tree) trail = (.ok loaded, trail') ∧
      outcome (write o (loaded.map Prod.snd) destination binding) ⟨scene.tree, trail'⟩ = (.ok report, scene') := by
  have hrest : ∃ binding trail, outcome (do
      let names ← Action.query fun t => loadNames t directory
      let machines ← Action.read (loadMachines directory names none)
      write o (machines.map Prod.snd) destination binding) ⟨scene.tree, trail⟩ = (.ok report, scene') := by
    unfold convert at h
    dsimp only at h
    cases format with
    | some f =>
      obtain ⟨binding, scene₁, hb, h₁⟩ := outcome_bind_eq_ok h
      obtain ⟨_, hq, _⟩ := outcome_map_eq_ok hb
      obtain ⟨_, rfl⟩ := outcome_query_eq_ok hq
      exact ⟨binding, scene₁.trail, h₁⟩
    | none =>
      obtain ⟨binding, scene₁, hb, h₁⟩ := outcome_bind_eq_ok h
      obtain ⟨trail, _, rfl⟩ := outcome_read_eq_ok hb
      exact ⟨binding, trail, h₁⟩
  obtain ⟨binding, trail, h⟩ := hrest
  obtain ⟨names, scene₁, hn, h⟩ := outcome_bind_eq_ok h
  obtain ⟨hnames, rfl⟩ := outcome_query_eq_ok hn
  obtain ⟨loaded, scene₂, hl, h⟩ := outcome_bind_eq_ok h
  obtain ⟨trail', hloaded, rfl⟩ := outcome_read_eq_ok hl
  exact ⟨binding, names, trail, loaded, trail', hnames, hloaded, h⟩

/-- A conversion that succeeds has written the files of the machines that came first with their names. It has kept
every loaded machine, in a directory of its own, exactly if the stems of the loaded bundles differ. -/
theorem convert_keeps_all_iff (o : Export.Options) (directory destination : Path) (format : Option String)
    (scene scene' : Scene) (report : Export.Report)
    (h : outcome (convert o directory destination format) scene = (.ok report, scene')) :
    ∃ names trail loaded trail' b n, loadNames scene.tree directory = .ok names ∧
      outcome (loadMachines directory names none scene.tree) trail = (.ok loaded, trail') ∧
      outcome (Export.batchOf destination (files (loaded.map Prod.snd) b o.isSuspensible)).commit scene.tree =
        (.ok n, scene'.tree) ∧
      firstOfEachName [] (loaded.map Prod.snd) = (writtenEntries loaded).map Prod.snd ∧
      ((∀ e ∈ loaded, e ∈ writtenEntries loaded) ↔ StemsDiffer loaded) ∧
      ((∀ e ∈ loaded, ∀ e' ∈ loaded, e.1 ≠ e'.1 → bundleDirectory e.2 ≠ bundleDirectory e'.2) ↔
        StemsDiffer loaded) := by
  obtain ⟨binding, names, trail, loaded, trail', hnames, hloaded, hwrite⟩ := convert_ok h
  obtain ⟨n, hcommit, _, _⟩ := Export.writeFiles_ok (write_ok hwrite)
  obtain ⟨table, _, hentries⟩ := loadFrom_ok hloaded fun p m hp => by cases hp
  exact ⟨names, trail, loaded, trail', _, n, hnames, hloaded, hcommit, (map_snd_writtenEntries loaded).symm,
    forall_mem_writtenEntries_iff hentries, directories_differ_iff hentries⟩

/-- An arrangement of two bundles with the same stem, of which only the second one has a state. -/
def twins : Tree where
  home := ["work"]
  nodes :=
    [(["work"], .directory), (["work", "a"], .directory),
      (["work", "a", "Machines"], .file (Text.encode "A\nA.machine\n")),
      (["work", "a", "A"], .directory), (["work", "a", "A", "States"], .file .empty),
      (["work", "a", "A.machine"], .directory), (["work", "a", "A.machine", "States"], .file (Text.encode "S\n"))]
  scratch := []

theorem twins_are_converted :
    ∃ report scene', outcome (convert ⟨none, true⟩ (.ofText "a") (.ofText "b") none) ⟨twins, ⟨.start, []⟩⟩ =
      (.ok report, scene') :=
  exists_of_isOk (by decide +kernel)

theorem twins_kept_iff :
    ∃ report scene' names trail loaded trail',
      outcome (convert ⟨none, true⟩ (.ofText "a") (.ofText "b") none) ⟨twins, ⟨.start, []⟩⟩ = (.ok report, scene') ∧
      loadNames twins (.ofText "a") = .ok names ∧
      outcome (loadMachines (.ofText "a") names none twins) trail = (.ok loaded, trail') ∧
      ((∀ e ∈ loaded, e ∈ writtenEntries loaded) ↔ StemsDiffer loaded) := by
  obtain ⟨report, scene', h⟩ := twins_are_converted
  obtain ⟨names, trail, loaded, trail', _, _, hnames, hloaded, _, _, hkept, _⟩ :=
    convert_keeps_all_iff ⟨none, true⟩ (.ofText "a") (.ofText "b") none ⟨twins, ⟨.start, []⟩⟩ scene' report h
  exact ⟨report, scene', names, trail, loaded, trail', h, hnames, hloaded, hkept⟩

/-- Both bundles are loaded, and written to one directory. -/
theorem twins_share_a_directory :
    ∃ report scene' loaded trail,
      outcome (convert ⟨none, true⟩ (.ofText "a") (.ofText "b") none) ⟨twins, ⟨.start, []⟩⟩ = (.ok report, scene') ∧
      loadNames twins (.ofText "a") = .ok ["A", "A.machine"] ∧
      outcome (loadMachines (.ofText "a") ["A", "A.machine"] none twins) ⟨.start, []⟩ = (.ok loaded, trail) ∧
      ∃ e ∈ loaded, ∃ e' ∈ loaded, e.1 ≠ e'.1 ∧ e.2.graph.stateNames ≠ e'.2.graph.stateNames ∧
        bundleDirectory e.2 = bundleDirectory e'.2 := by
  obtain ⟨report, scene', h⟩ := twins_are_converted
  have hnames : loadNames twins (.ofText "a") = .ok ["A", "A.machine"] := by rfl
  have hloaded : (match (outcome (loadMachines (.ofText "a") ["A", "A.machine"] none twins) ⟨.start, []⟩).1 with
      | .ok loaded => decide (∃ e ∈ loaded, ∃ e' ∈ loaded, e.1 ≠ e'.1 ∧
          e.2.graph.stateNames ≠ e'.2.graph.stateNames ∧ bundleDirectory e.2 = bundleDirectory e'.2)
      | .error _ => false) = true := by
    decide
  rcases hl : outcome (loadMachines (.ofText "a") ["A", "A.machine"] none twins) ⟨.start, []⟩ with ⟨f | loaded, trail⟩
  · rw [hl] at hloaded
    cases hloaded
  · rw [hl] at hloaded
    exact ⟨report, scene', loaded, trail, h, hnames, rfl, of_decide_eq_true hloaded⟩

end MachineBundle.Arrangement
