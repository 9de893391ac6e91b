import MachineBundle.Proofs.Bundle.Replaced

/-!
# Listed names

The names that are read from a list of states can be listed again as they are. So an exported bundle lists the states of
a loaded machine at the positions at which they were read, whatever their names are.
-/

namespace MachineBundle

namespace Text

/-- What is blank is trimmed away. -/
theorem trimBlanks_of_blank {cs : List Char} (h : ∀ c ∈ cs, isBlank c = true) : trimBlanks cs = [] := by
  have hall : cs.dropWhile isBlank = [] := List.dropWhile_eq_nil_iff.mpr h
  rw [trimBlanks, hall]
  rfl

namespace IsListed

variable {n : String}

theorem not_blank (h : IsListed n) : isBlankText n = false := by
  rw [isBlankText, Bool.eq_false_iff, ne_eq, List.all_eq_true]
  intro hall
  have hnil : n.toList = [] := h.trimmed.symm.trans (trimBlanks_of_blank hall)
  exact h.nonempty (String.toList_eq_nil_iff.mp hnil)

theorem trimmed_eq (h : IsListed n) : Text.trimmed n = n := by
  rw [Text.trimmed, h.trimmed, String.ofList_toList]

end IsListed

end Text

namespace Bundle

variable {t : Tree} {bundle : Path}

/-- The names of a loaded machine are those that its bundle lists. -/
theorem stateNames_of_load {binding : Option Binding} {m : Machine} {trail trail' : Trail}
    (h : outcome (Machine.load bundle binding t) trail = (.ok m, trail')) :
    stateNames t bundle = .ok m.graph.stateNames := by
  obtain ⟨states, rows, hgraph, -, -⟩ := Machine.load_eq_ok h
  have hlisted : ∀ s ∈ m.graph.listedStates, s.name ≠ "" := by
    rw [hgraph.listedStates_eq]
    exact fun s hs => (hgraph.isListed s hs).nonempty
  rw [hgraph.wellFormed.stateNames_eq hlisted, hgraph.listedStates_eq]
  exact hgraph.names

/-- Names that are read from a list of states are not blank, without blanks around them and on one line. Where a machine
is loaded and then exported, by whatever binding and to whatever place, its names are read as they were before, and so
are those of every machine that is loaded from there. -/
theorem state_names_survive (t : Tree) (bundle : Path) :
    (∀ names, stateNames t bundle = .ok names → ∀ n ∈ names, Text.isBlankText n = false ∧ Text.trimmed n = n ∧
      ∀ c ∈ n.toList, Text.isLineBoundary c = false) ∧
    ∀ binding trail m trail', outcome (Machine.load bundle binding t) trail = (.ok m, trail') →
      stateNames t bundle = .ok m.graph.stateNames ∧
      ∀ o destination b scene report scene', outcome (Export.machine o m destination b) scene = (.ok report, scene') →
        stateNames scene'.tree destination = .ok m.graph.stateNames ∧
        ∀ binding' trail m' trail', outcome (Machine.load destination binding' scene'.tree) trail = (.ok m', trail') →
          m'.graph.stateNames = m.graph.stateNames := by
  constructor
  · intro names h n hn
    have hlisted := isListed_of_stateNames h n hn
    exact ⟨hlisted.not_blank, hlisted.trimmed_eq, hlisted.unbroken⟩
  · intro binding trail m trail' hload
    have hnames := stateNames_of_load hload
    refine ⟨hnames, fun o destination b scene report scene' hexport => ?_⟩
    have hwritten := Export.stateNames_written hexport (isListed_of_stateNames hnames)
    refine ⟨hwritten, fun binding' trail₁ m' trail₂ hagain => ?_⟩
    exact Except.ok.inj ((stateNames_of_load hagain).symm.trans hwritten)

/-- A bundle that lists a name twice, with blanks around it and line ends of two kinds. -/
def oddNames : Tree where
  home := ["work"]
  nodes :=
    [(["work"], .directory), (["work", "A"], .directory), (["work", "A", "Language"], .file "c".toUTF8),
      (["work", "A", "States"], .file " é\u2028\r\n\u00a0é".toUTF8)]
  scratch := []

/-- Whether the machine in this bundle is loaded and exported. -/
def copiesOddNames : Bool :=
  match outcome (Machine.load (.ofText "A") none oddNames) Scene.start.trail with
  | (.ok m, _) =>
    (outcome (Export.machine ⟨none, true⟩ m (.ofText "B") .objectiveCpp) ⟨oddNames, Scene.start.trail⟩).1.isOk
  | (.error _, _) => false

theorem odd_names_survive :
    ∃ m trail' report scene', outcome (Machine.load (.ofText "A") none oddNames) Scene.start.trail = (.ok m, trail') ∧
      outcome (Export.machine ⟨none, true⟩ m (.ofText "B") .objectiveCpp) ⟨oddNames, Scene.start.trail⟩ =
        (.ok report, scene') ∧
      stateNames oddNames (.ofText "A") = .ok ["é", "é"] ∧
      stateNames scene'.tree (.ofText "B") = .ok ["é", "é"] := by
  have hcopies : copiesOddNames = true := by decide +kernel
  have hnames : stateNames oddNames (.ofText "A") = .ok ["é", "é"] := by decide
  unfold copiesOddNames at hcopies
  rcases hload : outcome (Machine.load (.ofText "A") none oddNames) Scene.start.trail with ⟨f | m, trail'⟩
  · rw [hload] at hcopies
    cases hcopies
  · rw [hload] at hcopies
    obtain ⟨report, scene', hexport⟩ := exists_of_isOk hcopies
    obtain ⟨hread, hall⟩ := (state_names_survive oddNames (.ofText "A")).2 none _ m trail' hload
    obtain ⟨hwritten, -⟩ := hall _ _ _ _ report scene' hexport
    exact ⟨m, trail', report, scene', rfl, hexport, hnames, hwritten.trans (hread.symm.trans hnames)⟩

end Bundle

end MachineBundle
