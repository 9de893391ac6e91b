import MachineBundle.Bundle.Export
import MachineBundle.Proofs.Graph.WellFormed
import MachineBundle.Proofs.Source.C
import MachineBundle.Proofs.Source.ObjectiveCpp
import MachineBundle.Proofs.Source.Statements.C
import MachineBundle.Proofs.Source.Statements.ObjectiveCpp

/-!
# Sources that agree

The sources of a machine are written one by one, from the same plan. What one of them takes from another one is there: the
states are in the order in which they are listed, each comes from what its own header declares, and transitions are
treated as the header of their state says.
-/

namespace MachineBundle.Export

open Source

/-! ## What texts say -/

/-- A name that is looked up in namespaces, one inside the other. -/
def qualified (scopes : List String) (name : String) : String :=
  "::".intercalate (scopes ++ [name])

/-- The states that the implementation of a machine puts into slots. In C they are given by functions, in Objective-C++ they
are objects of classes. -/
def slots (b : Binding) (implementation : String) : List (Nat × String) :=
  match b with
  | .c => readText C.slot? implementation
  | .objectiveCpp =>
    (readText ObjectiveCpp.slot? implementation).map fun (k, name) =>
      (k, qualified (readText ObjectiveCpp.used? implementation) name)

/-- The functions or classes of states that a state header declares. -/
def declared (b : Binding) (header : String) : List String :=
  match b with
  | .c => readText C.declared? header
  | .objectiveCpp => (readText ObjectiveCpp.class? header).map (qualified (readText ObjectiveCpp.scope? header))

/-- The function or the class of a state. -/
def stateSource (m : MachinePlan) (s : StatePlan) : String :=
  match m.binding with
  | .c => "fsm_" ++ m.lowerName ++ "_" ++ s.lowerName ++ "_state"
  | .objectiveCpp => "FSM::CLM::FSM" ++ m.name ++ "::State::" ++ s.name

/-- The implementation of a state treats its transitions as the state header says. In C it tests all of them in order, and
returns the state that is recorded as the target, or none if there is no target. In Objective-C++ it creates all of them in
order, and gives the constructor a target only if there is no default. -/
def TransitionsAgree (m : MachinePlan) (s : StatePlan) (header implementation : String) : Prop :=
  match m.binding with
  | .c => ∃ n, readText (C.count? m s) header = [n] ∧
      readText (C.treatment? s.name) implementation = (List.range n).flatMap fun i =>
        [.tests i, .returns ((readText (C.target? m s) header).lookup i)]
  | .objectiveCpp => ∃ n, readText ObjectiveCpp.count? header = [n] ∧
      (readText ObjectiveCpp.constructor? header).map Prod.fst = List.range n ∧
      readText ObjectiveCpp.creation? implementation = (readText ObjectiveCpp.constructor? header).map fun (i, target) =>
        (i, i, if target.isSome then "" else "-1")

/-- The sources of a plan agree with one another and with a list of states. -/
structure SourcesAgree (m : MachinePlan) (listed : List String) : Prop where
  listed : m.states.map StatePlan.name = listed
  slots : slots m.binding (unlines (machineImplementation m)) = m.states.mapIdx fun k s => (k, stateSource m s)
  declared : ∀ s ∈ m.states, declared m.binding (unlines (stateHeader m s)) = [stateSource m s]
  defined : m.binding = .c → ∀ s ∈ m.states,
    readText C.defined? (unlines (stateImplementation m s)) = [stateSource m s]
  transitions : ∀ s ∈ m.states, TransitionsAgree m s (unlines (stateHeader m s)) (unlines (stateImplementation m s))

/-! ## The sources of a plan -/

/-- A text whose lines are unbroken says what its lines say. -/
theorem readText_of_free {α : Type} {reader : LineReader α} {ls : List String} (h : ∀ l ∈ ls, Free ['\n', '\r'] l)
    {heads : List String} (hneeds : Needs heads reader) (hheads : Headless heads "") :
    readText reader (unlines ls) = readLines reader ls :=
  readText_unlines (fun l hl => h l hl '\n' (by simp)) (hneeds "" hheads)

/-- The target of the first transition with an index is the first one that is recorded with it. -/
theorem lookup_targets (k : Nat) (ts : List TransitionPlan) :
    (ts.filterMap fun t => t.target.map fun n => (t.index, n)).lookup k = targetAt k ts := by
  unfold targetAt
  induction ts with
  | nil => rfl
  | cons t r ih =>
    rw [List.findSome?_cons, ← ih]
    cases ht : t.target with
    | none =>
      rw [List.filterMap_cons_none (by rw [ht]; rfl), ite_self]
    | some n =>
      rw [List.filterMap_cons_some (by rw [ht]; rfl), List.lookup_cons]
      by_cases hk : t.index = k
      · simp [hk]
      · have hk' : (k == t.index) = false := by simpa using fun he => hk he.symm
        rw [hk', if_neg hk]

theorem qualified_className (m : MachinePlan) (s : StatePlan) :
    qualified ["FSM", "CLM"] (ObjectiveCpp.className m s) = "FSM::CLM::FSM" ++ m.name ++ "::State::" ++ s.name := by
  rw [← String.toList_inj]
  simp [qualified, ObjectiveCpp.className]

theorem qualified_name (m : MachinePlan) (s : StatePlan) :
    qualified ["FSM", "CLM", "FSM" ++ m.name, "State"] s.name = "FSM::CLM::FSM" ++ m.name ++ "::State::" ++ s.name := by
  rw [← String.toList_inj]
  simp [qualified]

section

variable {m : MachinePlan} {s : StatePlan}

theorem slots_agree (h : PlainPlan m) :
    slots m.binding (unlines (machineImplementation m)) = m.states.mapIdx fun k s => (k, stateSource m s) := by
  unfold machineImplementation stateSource
  cases m.binding with
  | c =>
    have hslots := readText_of_free (C.free_machineImplementation h) C.needs_slot (headless_ofList [] (by decide))
    exact hslots.trans C.readLines_slots
  | objectiveCpp =>
    have hslots := readText_of_free (ObjectiveCpp.free_machineImplementation h) ObjectiveCpp.needs_slot
      (headless_ofList [] (by decide))
    have hused := readText_of_free (ObjectiveCpp.free_machineImplementation h) ObjectiveCpp.needs_used
      (headless_ofList [] (by decide))
    simp only [slots, hslots, hused, ObjectiveCpp.readLines_slots, ObjectiveCpp.readLines_used]
    refine List.ext_getElem (by simp) fun k _ _ => ?_
    simp [qualified_className]

theorem declared_agrees (hm : Text.PlainText m.name) (hs : Text.PlainText s.name) :
    declared m.binding (unlines (stateHeader m s)) = [stateSource m s] := by
  unfold stateHeader stateSource
  cases m.binding with
  | c =>
    have hdeclared := readText_of_free (C.free_stateHeader hm hs) C.needs_declared (headless_ofList [] (by decide))
    exact hdeclared.trans C.readLines_declared
  | objectiveCpp =>
    have hclass := readText_of_free (ObjectiveCpp.free_stateHeader hm hs) ObjectiveCpp.needs_class
      (headless_ofList [] (by decide))
    have hscope := readText_of_free (ObjectiveCpp.free_stateHeader hm hs) ObjectiveCpp.needs_scope
      (headless_ofList [] (by decide))
    simp only [declared, hclass, hscope, ObjectiveCpp.readLines_class, ObjectiveCpp.readLines_scopes, List.map_cons,
      List.map_nil, qualified_name]

theorem defined_agrees (hb : m.binding = .c) (hm : Text.PlainText m.name) (hs : Text.PlainText s.name) :
    readText C.defined? (unlines (stateImplementation m s)) = [stateSource m s] := by
  have hdefined := readText_of_free (C.free_stateImplementation hm hs) C.needs_defined (headless_ofList [] (by decide))
  rw [stateImplementation, stateSource, hb]
  exact hdefined.trans C.readLines_defined

theorem transitions_agree (hm : Text.PlainText m.name) (hs : Text.PlainText s.name)
    (hindices : s.transitions.map TransitionPlan.index = List.range s.transitions.length) :
    TransitionsAgree m s (unlines (stateHeader m s)) (unlines (stateImplementation m s)) := by
  unfold TransitionsAgree stateHeader stateImplementation
  cases m.binding with
  | c =>
    have hcount := readText_of_free (C.free_stateHeader hm hs) (C.needs_count (m := m) (s := s))
      (headless_ofList [] (by decide))
    have htargets := readText_of_free (C.free_stateHeader hm hs) (C.needs_target (m := m) (s := s))
      (headless_ofList [] (by decide))
    have htreatments := readText_of_free (C.free_stateImplementation hm hs) (C.needs_treatment s.name)
      (headless_ofList [] (by decide))
    refine ⟨s.transitions.length, hcount.trans C.readLines_count, ?_⟩
    have hdistinct : (s.transitions.map TransitionPlan.index).Nodup := by
      rw [hindices]
      exact List.nodup_range
    simp only [htreatments, htargets, C.readLines_treatments, C.readLines_targets, lookup_targets]
    rw [← hindices, List.flatMap_map]
    refine List.flatMap_congr fun t ht => ?_
    rw [targetAt_of_mem hdistinct ht]
  | objectiveCpp =>
    have hcount := readText_of_free (ObjectiveCpp.free_stateHeader hm hs) ObjectiveCpp.needs_count
      (headless_ofList [] (by decide))
    have hconstructors := readText_of_free (ObjectiveCpp.free_stateHeader hm hs) ObjectiveCpp.needs_constructor
      (headless_ofList [] (by decide))
    have hcreations := readText_of_free (ObjectiveCpp.free_stateImplementation hm hs) ObjectiveCpp.needs_creation
      (headless_ofList [] (by decide))
    refine ⟨s.transitions.length, hcount.trans ObjectiveCpp.readLines_count, ?_, ?_⟩
    · simp only [hconstructors, ObjectiveCpp.readLines_constructors, List.map_map]
      exact hindices
    · simp only [hconstructors, hcreations, ObjectiveCpp.readLines_constructors, ObjectiveCpp.readLines_creations,
        List.map_map]
      rfl

end

/-! ## The sources of a machine -/

/-- What is written for a machine agrees, if the machine and its states have names that can be a part of identifiers: each
slot gets the state that is listed in its place, and transitions are treated as state headers say. -/
theorem sources_agree {m : Machine} (h : m.graph.StatesKnown) {name : String} (hname : Text.PlainText name)
    (hstates : ∀ s ∈ m.graph.listedStates, s.name ≠ "" ∧ Text.PlainText s.name) (b : Binding) (isSuspensible : Bool) :
    SourcesAgree (.of m b name isSuspensible) (Bundle.namesIn (unlines m.graph.stateNames)) := by
  have hnames : m.graph.stateNames = m.graph.listedStates.map State.name :=
    h.stateNames_eq fun s hs => (hstates s hs).1
  have hlisted : ∀ n ∈ m.graph.stateNames, Text.IsListed n := by
    intro n hn
    rw [hnames] at hn
    obtain ⟨s, hs, rfl⟩ := List.mem_map.mp hn
    exact .ofPlain (hstates s hs).2 (hstates s hs).1
  have hplain : ∀ s ∈ (MachinePlan.of m b name isSuspensible).states, Text.PlainText s.name := by
    intro s hs
    obtain ⟨r, hr, rfl⟩ := List.mem_map.mp hs
    exact (hstates r hr).2
  refine ⟨?_, ?_, fun s hs => ?_, fun hb s hs => ?_, fun s hs => ?_⟩
  · rw [Text.namesIn_unlines hlisted, hnames]
    exact List.map_map
  · exact slots_agree ⟨hname, hplain⟩
  · exact declared_agrees hname (hplain s hs)
  · exact defined_agrees hb hname (hplain s hs)
  · refine transitions_agree hname (hplain s hs) ?_
    obtain ⟨s, -, rfl⟩ := List.mem_map.mp hs
    exact map_index_statePlan m.graph s

/-- A machine with a transition that leads back, and one that leads nowhere. -/
def looped : Machine where
  name := "M"
  binding := .c
  graph := .ofRecords [⟨.generated 1, "A"⟩, ⟨.generated 2, "B"⟩]
    [⟨.generated 3, .generated 2, "true", some (.generated 1)⟩, ⟨.generated 4, .generated 2, "false", none⟩]
    (some (.generated 1))
  boilerplate := .blank
  stateBoilerplate := []
  stateLayout := []
  windowLayout := none

theorem sources_of_looped_agree :
    SourcesAgree (.of looped .c "M" true) (Bundle.namesIn (unlines looped.graph.stateNames)) :=
  sources_agree (Graph.wellFormed_ofRecords (by decide) (by decide) (by decide)).statesKnown (by decide) (by decide) .c true

end MachineBundle.Export
