import MachineBundle.Proofs.Source.Heads

/-!
# What sources in C say

The implementation of a machine takes its states from functions that the headers of the states declare and their
implementations define. A state header records targets as constants, and the implementation tests the transitions one by
one.
-/

namespace MachineBundle.Source

open Scan

namespace C

variable {m : MachinePlan} {s : StatePlan}

/-! ## Slots in C -/

/-- An assignment to a slot, with the function that gives the state. -/
def slot? : LineReader (Nat × String) :=
  numbered "    machine->states[" (between? "] = " "();")

/-- The name of the function that gives a state. -/
def accessor (m : MachinePlan) (s : StatePlan) : String :=
  functionStem m s ++ "_state"

theorem needs_slot : Needs ["    machine->states["] slot? :=
  needs_numbered _ _

theorem slot?_assignment (i : Nat) (object : String) :
    slot? (assignment ("states[" ++ toString i ++ "]") (object ++ "()")).toList = some (i, object) := by
  have hl : (assignment ("states[" ++ toString i ++ "]") (object ++ "()")).toList = "    machine->states[".toList ++
      ((toString i).toList ++ ("] = " ++ object ++ "();").toList) := by
    simp [assignment]
  rw [hl]
  refine numbered_append _ i ?_ (between?_append _ object _)
  simp
  decide

/-- An assignment to another member. -/
theorem slot?_member {member : String} (hmember : member ∈ ["current_state", "previous_state", "suspend_state", "resume_state"])
    (value : String) : slot? (assignment member value).toList = none := by
  have hl : ∀ cs, assignment (String.ofList cs) value =
      String.ofList ("    machine->".toList ++ cs) ++ (" = " ++ value ++ ";") := by
    intro cs
    rw [← String.toList_inj]
    simp [assignment]
  refine needs_slot _ ?_
  simp only [List.mem_cons, List.not_mem_nil, or_false] at hmember
  rcases hmember with rfl | rfl | rfl | rfl
  all_goals
    rw [hl]
    exact ((departs_ofList _ (by decide)).append _).headless

theorem readLines_slots :
    readLines slot? (machineImplementation m) = m.states.mapIdx fun k s => (k, accessor m s) := by
  have htop : readLines slot? (implementationTop m) = [] :=
    needs_slot.readLines fun l hl => (headless_implementationTop l hl).longer (by decide)
  have hslots : readLines slot? (m.states.mapIdx fun i s =>
      assignment ("states[" ++ toString i ++ "]") ("fsm_" ++ m.lowerName ++ "_" ++ s.lowerName ++ "_state()")) =
        m.states.mapIdx fun k s => (k, accessor m s) := by
    refine readLines_mapIdx fun i hi => ?_
    have hobject : "fsm_" ++ m.lowerName ++ "_" ++ m.states[i].lowerName ++ "_state()" =
        accessor m m.states[i] ++ "()" := by
      rw [← String.toList_inj]
      simp [accessor, functionStem]
    rw [hobject]
    exact slot?_assignment i _
  have hothers : readLines slot? [assignment "current_state" "machine->states[0]", assignment "previous_state" "NULL"] = [] := by
    rw [readLines_cons_none (slot?_member (by decide) _), readLines_cons_none (slot?_member (by decide) _)]
    rfl
  have hsuspend : readLines slot? (suspendLines m.suspendIndex) = [] := by
    unfold suspendLines
    rw [readLines_cons_none (slot?_member (by decide) _), readLines_cons_none (slot?_member (by decide) _)]
    rfl
  have hend : readLines slot? ["\x7d"] = [] := by rfl
  unfold machineImplementation stateAssignments
  rw [readLines_append, readLines_append, readLines_append, readLines_append, htop, hslots, hothers, readLines_onlyIf,
    hsuspend, hend, ite_self, List.nil_append, List.append_nil, List.append_nil, List.append_nil]

/-! ## State headers in C -/

/-- The function of a state that a state header declares. -/
def declared? : LineReader String :=
  between? "struct LLFSMState *" "(void);"

theorem needs_declared : Needs ["struct LLFSMState *"] declared? :=
  needs_between _ _

theorem departs_constant {heads : List String} (h : Departs heads "#define FSM_") (more : String) :
    Departs heads (constantStem m s ++ more) := by
  unfold constantStem
  exact (((h.append _).append _).append _).append _

theorem departs_numberLine {heads : List String} (h : Departs heads "#define FSM_") (constant : String) (n : Nat) :
    Departs heads (numberLine m s constant n) := by
  unfold numberLine
  exact ((((departs_constant h _).append _).append _).append _)

/-- Constants of one state are told apart by what follows the stem. -/
theorem headless_constant {x y : String} (h : Departs [x] y) (rest : String) :
    Headless [constantStem m s ++ x] (constantStem m s ++ y ++ rest) := by
  intro long hlong
  rw [List.mem_singleton.mp hlong]
  cases ha : afterLiteral? (constantStem m s ++ x).toList (constantStem m s ++ y ++ rest).toList with
  | none => rfl
  | some more =>
    have hsplit := afterLiteral?_eq_some ha
    rw [String.toList_append, String.toList_append, String.toList_append, List.append_assoc, List.append_assoc,
      List.append_cancel_left_eq] at hsplit
    have hnone := h x List.mem_cons_self rest.toList
    rw [hsplit, afterLiteral?_append] at hnone
    cases hnone

theorem needs_constant {α : Type} {reader : LineReader α} {more : String} (h : Needs [constantStem m s ++ more] reader) :
    Needs ["#define FSM_"] reader := by
  have hstem : constantStem m s ++ more = "#define FSM_" ++ (m.constant ++ "_" ++ s.constant ++ more) := by
    rw [← String.toList_inj]
    simp [constantStem]
  intro l hl
  rw [hstem] at h
  exact h l (hl.append _)

theorem readLines_declared : readLines declared? (stateHeader m s) = [accessor m s] := by
  have hconstant : Departs ["struct LLFSMState *"] "#define FSM_" := departs_ofList _ (by decide)
  have hcount : readLines declared? [numberLine m s "NUMBER_OF_TRANSITIONS" s.transitions.length] = [] :=
    needs_declared.readLines (List.forall_mem_singleton.mpr (departs_numberLine hconstant _ _).headless)
  have htargets : readLines declared? (s.transitions.filterMap (targetLine? m s)) = [] := by
    refine needs_declared.readLines fun l hl => ?_
    obtain ⟨t, _, ht⟩ := List.mem_filterMap.mp hl
    obtain ⟨n, _, rfl⟩ := Option.map_eq_some_iff.mp ht
    exact (departs_numberLine hconstant _ _).headless
  have hdeclaration : declared? (declarationLine m s).toList = some (accessor m s) := by
    have hl : declarationLine m s = "struct LLFSMState *" ++ accessor m s ++ "(void);" := by
      unfold declarationLine accessor
      rw [← String.toList_inj]
      simp
    rw [hl]
    exact between?_append _ _ _
  rw [readLines_stateHeader (needs_declared.of_longer (by decide)), hcount, htargets, readLines_cons_some hdeclaration]
  rfl

/-- The number of transitions that a state header records. -/
def count? (m : MachinePlan) (s : StatePlan) : LineReader Nat :=
  numberBetween? (constantStem m s ++ "_NUMBER_OF_TRANSITIONS ") ""

/-- The target that a state header records for a transition. -/
def target? (m : MachinePlan) (s : StatePlan) : LineReader (Nat × Nat) :=
  numbered (constantStem m s ++ "_TRANSITION_") (numberBetween? "_TARGET " "")

theorem needs_count : Needs ["#define FSM_"] (count? m s) :=
  needs_constant (needs_numberBetween _ _)

theorem needs_target : Needs ["#define FSM_"] (target? m s) :=
  needs_constant (needs_numbered _ _)

theorem headless_declarationLine : Headless ["#define FSM_"] (declarationLine m s) := by
  unfold declarationLine
  simp only [String.append_assoc]
  with_reducible exact headless_append _ _ (by decide)

theorem readLines_count : readLines (count? m s) (stateHeader m s) = [s.transitions.length] := by
  have hcount : count? m s (numberLine m s "NUMBER_OF_TRANSITIONS" s.transitions.length).toList =
      some s.transitions.length := by
    have hl : numberLine m s "NUMBER_OF_TRANSITIONS" s.transitions.length =
        constantStem m s ++ "_NUMBER_OF_TRANSITIONS " ++ toString s.transitions.length ++ "" := by
      rw [← String.toList_inj]
      simp [numberLine]
    rw [hl]
    exact numberBetween?_append _ _ _ (by simp)
  have htargets : readLines (count? m s) (s.transitions.filterMap (targetLine? m s)) = [] := by
    refine (needs_numberBetween _ _).readLines fun l hl => ?_
    obtain ⟨t, _, ht⟩ := List.mem_filterMap.mp hl
    obtain ⟨n, _, rfl⟩ := Option.map_eq_some_iff.mp ht
    have hl : numberLine m s ("TRANSITION_" ++ toString t.index ++ "_TARGET") n =
        constantStem m s ++ "_TRANSITION_" ++ (toString t.index ++ "_TARGET " ++ toString n) := by
      rw [← String.toList_inj]
      simp [numberLine]
    rw [hl]
    exact headless_constant (departs_ofList _ (by decide)) _
  have hdeclaration : readLines (count? m s) [declarationLine m s] = [] :=
    needs_count.readLines (List.forall_mem_singleton.mpr headless_declarationLine)
  rw [readLines_stateHeader (needs_count.of_longer (by decide)), readLines_cons_some hcount, htargets, hdeclaration]
  rfl

theorem target?_numberLine (i k : Nat) :
    target? m s (numberLine m s ("TRANSITION_" ++ toString i ++ "_TARGET") k).toList = some (i, k) := by
  have hl : (numberLine m s ("TRANSITION_" ++ toString i ++ "_TARGET") k).toList =
      (constantStem m s ++ "_TRANSITION_").toList ++ ((toString i).toList ++ ("_TARGET " ++ toString k ++ "").toList) := by
    simp [numberLine]
  rw [hl]
  refine numbered_append _ i ?_ (numberBetween?_append _ _ _ (by simp))
  simp
  decide

theorem readLines_targets : readLines (target? m s) (stateHeader m s) =
    s.transitions.filterMap fun t => t.target.map fun k => (t.index, k) := by
  have hcount : readLines (target? m s) [numberLine m s "NUMBER_OF_TRANSITIONS" s.transitions.length] = [] := by
    have hl : numberLine m s "NUMBER_OF_TRANSITIONS" s.transitions.length =
        constantStem m s ++ "_NUMBER_OF_TRANSITIONS " ++ toString s.transitions.length := by
      rw [← String.toList_inj]
      simp [numberLine]
    rw [hl]
    exact (needs_numbered _ _).readLines
      (List.forall_mem_singleton.mpr (headless_constant (departs_ofList _ (by decide)) _))
  have htargets : readLines (target? m s) (s.transitions.filterMap (targetLine? m s)) =
      s.transitions.filterMap fun t => t.target.map fun k => (t.index, k) := by
    refine readLines_filterMap fun t _ => ?_
    unfold targetLine?
    cases t.target with
    | none => rfl
    | some k =>
      rw [Option.map_some, Option.bind_some, Option.map_some]
      exact target?_numberLine t.index k
  have hdeclaration : readLines (target? m s) [declarationLine m s] = [] :=
    needs_target.readLines (List.forall_mem_singleton.mpr headless_declarationLine)
  rw [readLines_stateHeader (needs_target.of_longer (by decide)), hcount, htargets, hdeclaration, List.nil_append,
    List.append_nil]

/-! ## Implementations of states in C -/

/-- What the implementation of a state does about its transitions: it tests one, or it returns a state. -/
inductive Treatment
  | tests (index : Nat)
  | returns (state : Option Nat)
  deriving DecidableEq, Repr

def treatment? (state : String) : LineReader Treatment := fun l =>
  ((numberBetween? ("#       include \"State_" ++ state ++ "_Transition_") ".expr\"" l).map .tests).or
    (((numberBetween? "    ) return machine->states[" "];" l).map fun k => .returns (some k)).or
      ((afterLiteral? "    ) return NULL;".toList l).map fun _ => .returns none))

theorem needs_treatment (state : String) : Needs ["#       include ", "    ) return "] (treatment? state) := by
  intro l hl
  have htests : Headless ["#       include \"State_" ++ state ++ "_Transition_"] l := by
    have hinclude : Headless ["#       include \"State_"] l := hl.longer (by decide)
    exact (hinclude.append _).append _
  have hreturns : Headless ["    ) return machine->states["] l := hl.longer (by decide)
  have hnull : Headless ["    ) return NULL;"] l := hl.longer (by decide)
  rw [treatment?, numberBetween?_eq_none htests, numberBetween?_eq_none hreturns, hnull _ List.mem_cons_self]
  rfl

theorem treatments_guardLines (s : StatePlan) (t : TransitionPlan) :
    readLines (treatment? s.name) (guardLines s t) = [.tests t.index, .returns t.target] := by
  have hif : treatment? s.name "    if (".toList = none := needs_treatment _ _ (headless_ofList _ (by decide))
  have htests : treatment? s.name ("#       include \"State_" ++ s.name ++ "_Transition_" ++ toString t.index ++
      ".expr\"").toList = some (.tests t.index) := by
    rw [treatment?, numberBetween?_append _ _ _ (by simp; decide)]
    rfl
  have hdeparts : ∀ l, Headless ["#       include \"State_"] l → numberBetween? ("#       include \"State_" ++ s.name ++
      "_Transition_") ".expr\"" l.toList = none := fun l hl => numberBetween?_eq_none ((hl.append _).append _) _
  unfold guardLines
  rw [readLines_cons_none hif, readLines_cons_some htests]
  cases t.target with
  | none =>
    have hreturns : treatment? s.name "    ) return NULL; // target unresolved".toList = some (.returns none) := by
      rw [treatment?, hdeparts _ (headless_ofList _ (by decide))]
      rfl
    exact congrArg _ (readLines_cons_some hreturns [])
  | some k =>
    have hreturns : treatment? s.name ("    ) return machine->states[" ++ toString k ++ "];").toList =
        some (.returns (some k)) := by
      have hhead : Departs ["#       include \"State_"] "    ) return machine->states[" := departs_ofList _ (by decide)
      rw [treatment?, hdeparts _ ((hhead.append _).append _).headless, numberBetween?_append _ _ _ (by simp; decide)]
      rfl
    exact congrArg _ (readLines_cons_some hreturns [])

theorem readLines_treatments : readLines (treatment? s.name) (stateImplementation m s) =
    s.transitions.flatMap fun t => [.tests t.index, .returns t.target] := by
  have hneeds : Needs ["#       include ", "    ) return "] (treatment? s.name) := needs_treatment s.name
  have hguards : readLines (treatment? s.name) (s.transitions.flatMap (guardLines s)) =
      s.transitions.flatMap fun t => [.tests t.index, .returns t.target] :=
    readLines_flatMap fun t _ => treatments_guardLines s t
  have hdefinition : Headless ["#       include ", "    ) return "] (definitionLine m s) := by
    unfold definitionLine
    simp only [String.append_assoc]
    with_reducible exact headless_append _ _ (by decide)
  rw [readLines_stateImplementation (hneeds.of_longer (by decide)), hguards,
    hneeds.readLines (List.forall_mem_singleton.mpr hdefinition), List.append_nil]

/-- The function of a state that the implementation of the state defines. -/
def defined? : LineReader String :=
  between? "struct LLFSMState *" "(void)"

theorem needs_defined : Needs ["struct LLFSMState *"] defined? :=
  needs_between _ _

theorem headless_guardLines (s : StatePlan) (t : TransitionPlan) :
    ∀ l ∈ guardLines s t, Headless ["struct LLFSMState *"] l := by
  unfold guardLines
  cases t.target
  all_goals
    simp only [List.forall_mem_cons, List.not_mem_nil, false_implies, implies_true, and_true, String.append_assoc]
    and_intros
    all_goals with_reducible first
      | exact headless_ofList _ (by decide)
      | exact headless_append _ _ (by decide)

theorem readLines_defined : readLines defined? (stateImplementation m s) = [accessor m s] := by
  have hguards : ∀ l ∈ s.transitions.flatMap (guardLines s), Headless ["struct LLFSMState *"] l := by
    intro l hl
    obtain ⟨t, _, hl⟩ := List.mem_flatMap.mp hl
    exact headless_guardLines s t l hl
  have hdefinition : defined? (definitionLine m s).toList = some (accessor m s) := by
    have hl : definitionLine m s = "struct LLFSMState *" ++ accessor m s ++ "(void)" := by
      unfold definitionLine accessor
      rw [← String.toList_inj]
      simp
    rw [hl]
    exact between?_append _ _ _
  rw [readLines_stateImplementation (needs_defined.of_longer (by decide)), needs_defined.readLines hguards,
    readLines_cons_some hdefinition]
  rfl

end C

end MachineBundle.Source
