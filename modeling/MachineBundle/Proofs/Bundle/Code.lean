import MachineBundle.Proofs.Bundle.Restored

/-!
# Code and layout that come back

Besides its graph a machine has code, some sections of which its bundle keeps, and perhaps a window layout. They come
back as they were, except that line ends are unified in the code.
-/

namespace MachineBundle

namespace Binding

/-- The sections of a machine that a bundle keeps. -/
def machineSections : List Section :=
  [.includePath, .includes, .variables, .functions]

/-- The sections of a state that a bundle keeps. -/
def stateSections : List Section :=
  [.includes, .variables, .functions, .onEntry, .onExit, .internal, .onSuspend, .onResume]

theorem map_fst_sectionFiles (b : Binding) (machine : String) :
    (b.sectionFiles machine).map Prod.fst = machineSections := rfl

theorem map_fst_stateSectionFiles (state : String) : (stateSectionFiles state).map Prod.fst = stateSections := rfl

end Binding

/-- No code has a carriage return in it. -/
structure Machine.CodeUnbroken (m : Machine) : Prop where
  machine : ∀ s, '\r' ∉ (m.boilerplate.get s).toList
  states : ∀ i ∈ m.graph.states, ∀ s, '\r' ∉ ((m.boilerplateOf i).get s).toList

/-- A machine that has come back with its name, its code as far as a bundle keeps it, and its window layout. -/
structure RestoredWhole (m : Machine) (b : Binding) (isSuspensible : Bool) (m' : Machine) : Prop
    extends Restored m b isSuspensible m' where
  name : m'.name = m.name
  code : ∀ s ∈ Binding.machineSections, m'.boilerplate.get s = m.boilerplate.get s
  stateCode : ∀ (k : Nat) (i i' : Ident), m.graph.states[k]? = some i → m'.graph.states[k]? = some i' →
    ∀ s ∈ Binding.stateSections, (m'.boilerplateOf i').get s = (m.boilerplateOf i).get s
  windowLayout : m'.windowLayout = m.windowLayout

namespace Bundle

theorem unified_of_not_mem {text : String} (h : '\r' ∉ text.toList) : unified text = text := by
  rw [unified, Text.unifyBreaks_of_not_mem h, String.ofList_toList]

theorem get_set (p : Boilerplate) (s s' : Section) (code : String) :
    (p.set s code).get s' = if s = s' then code else p.get s' := by
  unfold Boilerplate.get Boilerplate.set
  rw [Table.get?_set]
  split <;> rfl

/-- The code that is read has every section that has a file. -/
theorem get_kept (code : Boilerplate) (files : List (Section × String)) (p : Boilerplate) (s : Section) :
    (kept code files p).get s = if s ∈ files.map Prod.fst then unified (code.get s) else p.get s := by
  induction files generalizing p with
  | nil => rfl
  | cons f r ih =>
    have hstep : kept code (f :: r) p = kept code r (p.set f.1 (unified (code.get f.1))) := rfl
    rw [hstep, ih, get_set, List.map_cons]
    by_cases hr : s ∈ r.map Prod.fst
    · rw [if_pos hr, if_pos (List.mem_cons_of_mem _ hr)]
    · by_cases hf : f.1 = s
      · simp [hf]
      · simp [hr, hf, Ne.symm hf]

theorem get_kept_of_mem {code : Boilerplate} {files : List (Section × String)} {s : Section}
    (hs : s ∈ files.map Prod.fst) (hr : '\r' ∉ (code.get s).toList) (p : Boilerplate) :
    (kept code files p).get s = code.get s := by
  rw [get_kept, if_pos hs, unified_of_not_mem hr]

variable {m : Machine} {d : Nat} {plan : Source.MachinePlan}

theorem map_fst_loadedCode : (loadedCode m d plan).map Prod.fst = (loadedStates d plan).map State.id := by
  have hlength := length_loadedStates d plan
  unfold loadedCode
  generalize loadedStates d plan = ss at hlength ⊢
  generalize plan.states = ps at hlength
  induction ss generalizing ps with
  | nil => rfl
  | cons s ss ih =>
    cases ps with
    | nil => cases hlength
    | cons p ps =>
      rw [List.zipWith_cons_cons, List.map_cons, List.map_cons, ih ps (by simpa using hlength)]

variable {bundle : Path} {b : Binding} {name : String} {isSuspensible : Bool} {layout : Option ByteArray}

/-- The code that a loaded machine has at a state. -/
theorem boilerplateOf_loadedMachine {k : Nat} {i' : Ident} {p : Source.StatePlan}
    (hs : (loadedMachine bundle m plan layout d).graph.states[k]? = some i') (hp : plan.states[k]? = some p) :
    (loadedMachine bundle m plan layout d).boilerplateOf i' =
      kept (m.boilerplateOf p.id) (Binding.stateSectionFiles p.name) .blank := by
  rw [states_loadedMachine, List.getElem?_map] at hs
  obtain ⟨s, hk, rfl⟩ := Option.map_eq_some_iff.mp hs
  have hentry : (loadedCode m d plan)[k]? =
      some (s.id, kept (m.boilerplateOf p.id) (Binding.stateSectionFiles p.name) .blank) := by
    rw [loadedCode, List.getElem?_zipWith, hk, hp]
  have hnodup : ((loadedCode m d plan).map Prod.fst).Nodup := by
    rw [map_fst_loadedCode]
    exact nodup_loadedStates d plan
  have hget : (loadedMachine bundle m plan layout d).stateBoilerplate.get? s.id =
      some (kept (m.boilerplateOf p.id) (Binding.stateSectionFiles p.name) .blank) :=
    Table.get?_ofEntries hnodup (List.mem_of_getElem? hentry)
  rw [Machine.boilerplateOf, hget, Option.getD_some]

/-- A machine that is loaded with its own window layout has been restored as a whole. -/
theorem restoredWhole_loadedMachine (hwf : m.graph.WellFormed) (hne : ∀ s ∈ m.graph.listedStates, s.name ≠ "")
    (hcode : m.CodeUnbroken) (hstem : bundle.stem = m.name) :
    RestoredWhole m b isSuspensible (loadedMachine bundle m (.of m b name isSuspensible) m.windowLayout d) where
  toRestored := restored_loadedMachine hwf hne
  name := hstem
  code := fun s hs => get_kept_of_mem (by rwa [Binding.map_fst_sectionFiles]) (hcode.machine s) .blank
  stateCode := by
    intro k i i' hi hi' s hs
    have hmem := List.mem_of_getElem? hi
    rw [← hwf.map_listedStates, List.getElem?_map] at hi
    obtain ⟨r, hr, rfl⟩ := Option.map_eq_some_iff.mp hi
    have hp : (Source.MachinePlan.of m b name isSuspensible).states[k]? = some (Source.statePlan m.graph r) := by
      rw [Source.MachinePlan.of, List.getElem?_map, hr]
      rfl
    rw [boilerplateOf_loadedMachine hi' hp]
    exact get_kept_of_mem (by rwa [Binding.map_fst_stateSectionFiles]) (hcode.states _ hmem s) .blank
  windowLayout := rfl

end Bundle

end MachineBundle
