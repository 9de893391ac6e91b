import MachineBundle.Proofs.Bundle.Loadable

/-!
# Bundles that are not legible

A bundle that is not loaded either has no list of states, or too long a path, or something stands in its files that
cannot be used. The last of these has faults of its own, and the same ones from wherever loading starts.
-/

namespace MachineBundle.Bundle

open Reading

variable {b : Binding} {t : Tree} {bundle : Path} {trail : Trail}

/-- A bundle with a list of states of which all that is read can be read. -/
def IsLoadable (t : Tree) (bundle : Path) (b : Binding) : Prop :=
  ∃ names, stateNames t bundle = .ok names ∧ Loadable t bundle b names

/-- A bundle with a list of states and a place for the record of its language, in which something cannot be used: a state
has a NUL character in its name, or a number that is recorded has too many digits. -/
structure IsIllegible (t : Tree) (bundle : Path) (b : Binding) : Prop where
  language : (bundle.join languageFile).text.utf8ByteSize < Tree.pathLimit
  listed : ∃ names, stateNames t bundle = .ok names ∧ ¬Legible t bundle b names

/-- There is room for the record of the language where one has been looked for. -/
theorem room_of_binding? (hb : Tree.hasNull bundle = false) {recorded : Option Binding} {trail' : Trail}
    (h : outcome (binding? bundle t) trail = (.ok recorded, trail')) :
    (bundle.join languageFile).text.utf8ByteSize < Tree.pathLimit := by
  by_contra hlong
  have hnull : Tree.hasNull (bundle.join languageFile) = false := by
    rw [Path.hasNull_join bundle fileName_languageFile.isName, hb]
    decide
  unfold binding? languageRecord? at h
  obtain ⟨_, _, h, -⟩ := outcome_reading_bind_eq_ok h
  obtain ⟨there, _, h, -⟩ := outcome_reading_bind_eq_ok h
  rw [outcome_reading_query, Tree.isFile, Tree.look_too_long hnull (Nat.not_lt.mp hlong)] at h
  cases h

theorem binding?_eq_ok {names : List String} (hnames : stateNames t bundle = .ok names) {recorded : Option Binding}
    {trail' : Trail} (h : outcome (binding? bundle t) trail = (.ok recorded, trail')) :
    recorded = (text? t bundle languageFile).bind Binding.ofLanguage? := by
  obtain ⟨hb, d, hd⟩ := directory?_of_stateNames hnames
  obtain ⟨_, hread⟩ := outcome_binding? hd hb (room_of_binding? hb h) trail
  rw [hread, Prod.mk.injEq, Except.ok.injEq] at h
  exact h.1.symm

/-! ## Reading through a binding -/

end MachineBundle.Bundle
