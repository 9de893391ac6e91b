import MachineBundle.Bundle.Export
import MachineBundle.Proofs.Source.Heads

/-!
# Subscripts in sources

Sources declare arrays with a length and use them under subscripts. The machine header declares the array of states; in
Objective-C++ a state header declares an array of transitions besides. Lines are told apart by how they begin, so that it
does not matter what names there are: the subscripts that are read are the positions in the plan, whatever its names.
-/

namespace MachineBundle.Source

open Scan

/-! ## Reading arrays -/

/-- What comes before a subscript of the array of states. -/
def stateHeads : Binding → List String
  | .c =>
    ["    machine->states[", "    machine->current_state = machine->states[",
      "    machine->suspend_state = machine->states[", "    ) return machine->states["]
  | .objectiveCpp => ["    _states[", "    delete _states[", "    setInitialState(_states[", "    setSuspendState(_states["]

/-- What comes before a subscript of the array of transitions, which there is in Objective-C++ only. -/
def transitionHeads : Binding → List String
  | .c => []
  | .objectiveCpp => ["    _transitions[", "    delete _transitions["]

/-- The number between a head and a closing bracket. -/
def subscriptAfter? (head : String) : LineReader Nat := fun l => do
  let (k, rest) ← number? (← afterLiteral? head.toList l)
  if rest.head? = some ']' then some k else none

/-- The subscript that a statement has after one of some heads. The head of a definition is no statement, although it can
begin with any name; it ends in a parenthesis. -/
def subscript? (heads : List String) : LineReader Nat := fun l =>
  if l.getLast? = some ')' then none else heads.findSome? (subscriptAfter? · l)

/-- A subscript of the array of states. -/
abbrev stateSubscript? (b : Binding) : LineReader Nat :=
  subscript? (stateHeads b)

/-- A subscript of the array of transitions. -/
abbrev transitionSubscript? (b : Binding) : LineReader Nat :=
  subscript? (transitionHeads b)

/-- The lengths that a machine header declares for the array of states. In C the length is a constant. -/
def stateLengths (header : List String) : Binding → List Nat
  | .c =>
    (readLines (between? "    struct LLFSMState *states[" "];") header).flatMap fun constant =>
      readLines (numberBetween? ("#define " ++ constant ++ " ") "") header
  | .objectiveCpp => readLines (numberBetween? "            CLState *_states[" "];") header

/-- The lengths that a state header declares for the array of transitions. -/
def transitionLengths (header : List String) : Binding → List Nat
  | .c => []
  | .objectiveCpp => readLines (numberBetween? "                CLTransition *_transitions[" "];") header

/-- All subscripts are below the length that is declared. -/
def InBounds (lengths subscripts : List Nat) : Prop :=
  ∀ k ∈ subscripts, lengths ≠ [] ∧ ∀ n ∈ lengths, k < n

/-! ## Subscripts of lines -/

/-- No head begins like another one. -/
def HeadsDiffer (heads : List String) : Prop :=
  ∀ h ∈ heads, ∀ h' ∈ heads, h = h' ∨ differ h.toList h'.toList = true

instance (heads : List String) : Decidable (HeadsDiffer heads) :=
  inferInstanceAs (Decidable (∀ h ∈ heads, ∀ h' ∈ heads, h = h' ∨ differ h.toList h'.toList = true))

theorem differ_stateHeads (b : Binding) : HeadsDiffer (stateHeads b) := by
  cases b <;> decide

theorem differ_transitionHeads (b : Binding) : HeadsDiffer (transitionHeads b) := by
  cases b <;> decide

variable {heads : List String} {l : String}

theorem skips_subscript (heads : List String) : Skips heads (subscript? heads) := by
  intro l h
  unfold subscript?
  split
  · rfl
  · rename_i hlast
    refine List.findSome?_eq_none_iff.mpr fun head hhead => ?_
    rw [subscriptAfter?, h.resolve_left hlast head hhead]
    rfl

theorem subscript?_eq_none (h : Headless heads l) : subscript? heads l.toList = none :=
  skips_subscript heads l h.passed

theorem subscriptAfter?_append (head : String) (i : Nat) (rest : List Char) :
    subscriptAfter? head (head.toList ++ ((toString i).toList ++ ']' :: rest)) = some i := by
  have hbracket : ∀ d ∈ (']' :: rest).head?, isDigit d = false := by
    intro d hd
    cases hd
    decide
  rw [subscriptAfter?, afterLiteral?_append]
  simp only [Option.bind_eq_bind, Option.bind_some, number?_append i hbracket]
  rfl

theorem subscriptAfter?_of_differ {head : String} {cs : List Char} (h : differ head.toList cs = true) (rest : List Char) :
    subscriptAfter? head (cs ++ rest) = none := by
  rw [subscriptAfter?, afterLiteral?_of_differ h]
  rfl

/-- The subscript of a statement is the number in brackets after its head. -/
theorem subscript?_append (hdiffer : HeadsDiffer heads) {head : String} (hhead : head ∈ heads) (i : Nat) {rest : String}
    {c : Char} (hlast : rest.toList.getLast? = some c) (hc : c ≠ ')') :
    subscript? heads (head ++ toString i ++ "]" ++ rest).toList = some i := by
  have hl : (head ++ toString i ++ "]" ++ rest).toList = head.toList ++ ((toString i).toList ++ ']' :: rest.toList) := by
    simp
  have hend : (head ++ toString i ++ "]" ++ rest).toList.getLast? ≠ some ')' := by
    rw [String.toList_append, List.getLast?_append, hlast]
    simpa using hc
  rw [subscript?, if_neg hend, hl]
  cases hfound : heads.findSome? _ with
  | none =>
    have hnone := List.findSome?_eq_none_iff.mp hfound head hhead
    rw [subscriptAfter?_append] at hnone
    cases hnone
  | some k =>
    obtain ⟨head', hhead', hk⟩ := List.exists_of_findSome?_eq_some hfound
    rcases hdiffer head' hhead' head hhead with rfl | hother
    · rw [← hk, subscriptAfter?_append]
    · rw [subscriptAfter?_of_differ hother] at hk
      cases hk

/-! ## Sources in C -/

namespace C

variable {m : MachinePlan} {s : StatePlan}

theorem subscript?_slot (i : Nat) (object : String) :
    stateSubscript? .c (assignment ("states[" ++ toString i ++ "]") object).toList = some i := by
  have hl : assignment ("states[" ++ toString i ++ "]") object =
      "    machine->states[" ++ toString i ++ "]" ++ (" = " ++ object ++ ";") := by
    rw [← String.toList_inj]
    simp [assignment]
  rw [hl]
  exact subscript?_append (differ_stateHeads .c) (by decide) i (getLast?_append_ofList _ rfl) (by decide)

theorem subscript?_member {member : String} (hmember : "    machine->" ++ member ++ " = machine->states[" ∈ stateHeads .c)
    (i : Nat) : stateSubscript? .c (assignment member ("machine->states[" ++ toString i ++ "]")).toList = some i := by
  have hl : assignment member ("machine->states[" ++ toString i ++ "]") =
      "    machine->" ++ member ++ " = machine->states[" ++ toString i ++ "]" ++ ";" := by
    rw [← String.toList_inj]
    simp [assignment]
  rw [hl]
  exact subscript?_append (differ_stateHeads .c) hmember i rfl (by decide)

/-- A member that is set to no state. -/
theorem subscript?_null {member : String} (hmember : member ∈ ["previous_state", "suspend_state", "resume_state"]) :
    stateSubscript? .c (assignment member "NULL").toList = none := by
  have hl : ∀ cs, assignment (String.ofList cs) "NULL" =
      String.ofList ("    machine->".toList ++ cs ++ " = NULL;".toList) := by
    intro cs
    rw [← String.toList_inj]
    simp [assignment]
  simp only [List.mem_cons, List.not_mem_nil, or_false] at hmember
  rcases hmember with rfl | rfl | rfl
  all_goals
    rw [hl]
    exact subscript?_eq_none (headless_ofList _ (by decide))

/-- The states are assigned to the slots in order, and the first slot is the initial state. -/
theorem subscripts_stateAssignments :
    readLines (stateSubscript? .c) (stateAssignments m) = List.range m.states.length ++ [0] := by
  have hslots : readLines (stateSubscript? .c) (m.states.mapIdx fun i s =>
      assignment ("states[" ++ toString i ++ "]") ("fsm_" ++ m.lowerName ++ "_" ++ s.lowerName ++ "_state()")) =
        List.range m.states.length :=
    readLines_mapIdx_index fun i s => subscript?_slot i _
  have hfirst : "machine->states[0]" = "machine->states[" ++ toString 0 ++ "]" := rfl
  unfold stateAssignments
  rw [readLines_append, hslots, hfirst, readLines_cons_some (subscript?_member (by decide) 0),
    readLines_cons_none (subscript?_null (by decide))]
  rfl

theorem subscripts_suspendLines (index : Option Nat) :
    readLines (stateSubscript? .c) (suspendLines index) = index.toList := by
  have hresume : readLines (stateSubscript? .c) [assignment "resume_state" "NULL"] = [] :=
    readLines_cons_none (subscript?_null (by decide)) []
  unfold suspendLines
  cases index with
  | some i => rw [readLines_cons_some (subscript?_member (by decide) i), hresume, Option.toList_some]
  | none => rw [readLines_cons_none (subscript?_null (by decide)), hresume, Option.toList_none]

theorem subscripts_machineImplementation :
    readLines (stateSubscript? .c) (machineImplementation m) =
      List.range m.states.length ++ [0] ++ if m.isSuspensible then m.suspendIndex.toList else [] := by
  have hneeds : Needs ["    machine->", "    ) return "] (stateSubscript? .c) :=
    (skips_subscript _).needs.of_longer (by decide)
  have hend : readLines (stateSubscript? .c) ["\x7d"] = [] := by rfl
  unfold machineImplementation
  rw [readLines_append, readLines_append, readLines_append, hneeds.readLines headless_implementationTop,
    subscripts_stateAssignments, readLines_onlyIf, subscripts_suspendLines, hend, List.nil_append, List.append_nil]

theorem subscripts_guardLines (s : StatePlan) (t : TransitionPlan) :
    readLines (stateSubscript? .c) (guardLines s t) = t.target.toList := by
  have hif : stateSubscript? .c "    if (".toList = none := subscript?_eq_none (headless_ofList _ (by decide))
  have hinclude : stateSubscript? .c
      ("#       include \"State_" ++ s.name ++ "_Transition_" ++ toString t.index ++ ".expr\"").toList = none := by
    refine subscript?_eq_none ?_
    simp only [String.append_assoc]
    with_reducible exact headless_append _ _ (by decide)
  unfold guardLines
  rw [readLines_cons_none hif, readLines_cons_none hinclude]
  cases t.target with
  | none => exact readLines_cons_none (subscript?_eq_none (headless_ofList _ (by decide))) []
  | some i =>
    have hl : "    ) return machine->states[" ++ toString i ++ "];" =
        "    ) return machine->states[" ++ toString i ++ "]" ++ ";" := by
      rw [← String.toList_inj]
      simp
    have hi : stateSubscript? .c ("    ) return machine->states[" ++ toString i ++ "]" ++ ";").toList = some i :=
      subscript?_append (differ_stateHeads .c) (by decide) i rfl (by decide)
    rw [← hl] at hi
    exact readLines_cons_some hi []

/-- The implementation of a state uses the targets of its transitions. -/
theorem subscripts_stateImplementation :
    readLines (stateSubscript? .c) (stateImplementation m s) = s.transitions.filterMap TransitionPlan.target := by
  have hneeds : Needs stateImplementationHeads (stateSubscript? .c) := (skips_subscript _).needs.of_longer (by decide)
  have hguards : readLines (stateSubscript? .c) (s.transitions.flatMap (guardLines s)) =
      s.transitions.flatMap fun t => t.target.toList :=
    readLines_flatMap fun t _ => subscripts_guardLines s t
  have hdefinition : readLines (stateSubscript? .c) [definitionLine m s] = [] :=
    (skips_subscript _).readLines (List.forall_mem_singleton.mpr (passed_of_parenthesis _ _ rfl))
  rw [readLines_stateImplementation hneeds, hguards, hdefinition, List.append_nil, List.filterMap_eq_flatMap_toList]

/-- The name of the constant for the number of states. -/
def statesConstant (m : MachinePlan) : String :=
  "MACHINE_" ++ m.constant ++ "_NUMBER_OF_STATES"

theorem stateArray_eq (m : MachinePlan) : "    struct LLFSMState *states[MACHINE_" ++ m.constant ++ "_NUMBER_OF_STATES];" =
    "    struct LLFSMState *states[" ++ statesConstant m ++ "];" := by
  rw [← String.toList_inj]
  simp [statesConstant]

theorem stateCount_eq (m : MachinePlan) :
    "#define MACHINE_" ++ m.constant ++ "_NUMBER_OF_STATES " ++ toString m.states.length =
      "#define " ++ statesConstant m ++ " " ++ toString m.states.length ++ "" := by
  rw [← String.toList_inj]
  simp [statesConstant]

theorem between?_machineHeader {l constant : String} (hl : l ∈ machineHeader m)
    (h : between? "    struct LLFSMState *states[" "];" l.toList = some constant) : constant = statesConstant m := by
  rcases headless_machineHeader l hl with rfl | rfl | hnone
  · have hcount : Departs ["    struct LLFSMState *states["] "#define MACHINE_" := departs_ofList _ (by decide)
    rw [between?_eq_none (((hcount.append _).append _).append _).headless] at h
    cases h
  · rw [stateArray_eq, between?_append] at h
    exact (Option.some.inj h).symm
  · rw [between?_eq_none (hnone.longer (by decide))] at h
    cases h

theorem numberBetween?_machineHeader {l : String} {k : Nat} (hl : l ∈ machineHeader m)
    (h : numberBetween? ("#define " ++ statesConstant m ++ " ") "" l.toList = some k) : k = m.states.length := by
  have hhead : "#define " ++ statesConstant m ++ " " = "#define MACHINE_" ++ (m.constant ++ "_NUMBER_OF_STATES ") := by
    rw [← String.toList_inj]
    simp [statesConstant]
  rcases headless_machineHeader l hl with rfl | rfl | hnone
  · rw [stateCount_eq, numberBetween?_append _ _ _ (by simp)] at h
    exact (Option.some.inj h).symm
  · have harray : Departs ["#define MACHINE_"] "    struct LLFSMState *states[MACHINE_" := departs_ofList _ (by decide)
    rw [hhead, numberBetween?_eq_none (((harray.append _).append _).headless.append _)] at h
    cases h
  · have hmachine : Headless ["#define MACHINE_"] l := hnone.longer (by decide)
    rw [hhead, numberBetween?_eq_none (hmachine.append _)] at h
    cases h

/-- The length of the array of states is the number of states. -/
theorem mem_stateLengths {k : Nat} : k ∈ stateLengths (machineHeader m) .c ↔ k = m.states.length := by
  have hcount : "#define MACHINE_" ++ m.constant ++ "_NUMBER_OF_STATES " ++ toString m.states.length ∈ machineHeader m := by
    simp [machineHeader]
  have harray : "    struct LLFSMState *states[MACHINE_" ++ m.constant ++ "_NUMBER_OF_STATES];" ∈ machineHeader m := by
    simp [machineHeader]
  unfold stateLengths
  rw [List.mem_flatMap]
  constructor
  · rintro ⟨constant, hconstant, hk⟩
    obtain ⟨l, hl, hread⟩ := mem_readLines.mp hconstant
    obtain ⟨l', hl', hread'⟩ := mem_readLines.mp hk
    obtain rfl := between?_machineHeader hl hread
    exact numberBetween?_machineHeader hl' hread'
  · rintro rfl
    refine ⟨statesConstant m, mem_readLines.mpr ⟨_, harray, ?_⟩, mem_readLines.mpr ⟨_, hcount, ?_⟩⟩
    · rw [stateArray_eq, between?_append]
    · rw [stateCount_eq, numberBetween?_append _ _ _ (by simp)]

end C

/-! ## Sources in Objective-C++ -/

namespace ObjectiveCpp

variable {m : MachinePlan} {s : StatePlan}

theorem subscript?_creation (i : Nat) (s : StatePlan) :
    stateSubscript? .objectiveCpp
      ("    _states[" ++ toString i ++ "] = new FSM" ++ m.name ++ "::State::" ++ s.name ++ ";").toList = some i := by
  have hl : "    _states[" ++ toString i ++ "] = new FSM" ++ m.name ++ "::State::" ++ s.name ++ ";" =
      "    _states[" ++ toString i ++ "]" ++ (" = new FSM" ++ m.name ++ "::State::" ++ s.name ++ ";") := by
    rw [← String.toList_inj]
    simp
  rw [hl]
  exact subscript?_append (differ_stateHeads _) (by decide) i (getLast?_append_ofList _ rfl) (by decide)

theorem subscript?_deletion (array : String) {heads : List String} (hdiffer : HeadsDiffer heads)
    (hhead : "    delete " ++ array ++ "[" ∈ heads) (i : Nat) :
    subscript? heads ("    delete " ++ array ++ "[" ++ toString i ++ "];").toList = some i := by
  have hl : "    delete " ++ array ++ "[" ++ toString i ++ "];" =
      "    delete " ++ array ++ "[" ++ toString i ++ "]" ++ ";" := by
    rw [← String.toList_inj]
    simp
  rw [hl]
  exact subscript?_append hdiffer hhead i rfl (by decide)

theorem subscript?_newTransition (t : TransitionPlan) :
    transitionSubscript? .objectiveCpp (newTransitionLine t).toList = some t.index := by
  have hl : newTransitionLine t = "    _transitions[" ++ toString t.index ++ "]" ++
      (" = new Transition_" ++ toString t.index ++ (if t.target.isSome then "();" else "(-1);")) := by
    unfold newTransitionLine
    rw [← String.toList_inj]
    simp
  rw [hl]
  cases t.target with
  | some _ => exact subscript?_append (differ_transitionHeads _) (by decide) _ (getLast?_append_ofList _ rfl) (by decide)
  | none => exact subscript?_append (differ_transitionHeads _) (by decide) _ (getLast?_append_ofList _ rfl) (by decide)

theorem subscripts_suspendLine (index : Option Nat) :
    readLines (stateSubscript? .objectiveCpp) [suspendLine index] = index.toList := by
  unfold suspendLine
  cases index with
  | none => exact readLines_cons_none (subscript?_eq_none (headless_ofList _ (by decide))) []
  | some i =>
    have hl : "    setSuspendState(_states[" ++ toString i ++ "]);            // set suspend state" =
        "    setSuspendState(_states[" ++ toString i ++ "]" ++ ");            // set suspend state" := by
      rw [← String.toList_inj]
      simp
    have hi : stateSubscript? .objectiveCpp
        ("    setSuspendState(_states[" ++ toString i ++ "]" ++ ");            // set suspend state").toList = some i :=
      subscript?_append (differ_stateHeads .objectiveCpp) (by decide) i rfl (by decide)
    rw [← hl] at hi
    exact readLines_cons_some hi []

/-- The states are created in order, the first one is the initial state, and all are deleted in order. -/
theorem subscripts_machineImplementation :
    readLines (stateSubscript? .objectiveCpp) (machineImplementation m) =
      List.range m.states.length ++ (if m.isSuspensible then m.suspendIndex.toList else []) ++
        ([0] ++ List.range m.states.length) := by
  have hskips : Skips machineImplementationHeads (stateSubscript? .objectiveCpp) :=
    (skips_subscript _).of_longer (by decide)
  have husing : readLines (stateSubscript? .objectiveCpp) ["using namespace FSM;", "using namespace CLM;"] = [] := by
    rfl
  have hcreations : readLines (stateSubscript? .objectiveCpp) (stateCreations m) = List.range m.states.length :=
    readLines_mapIdx_index subscript?_creation
  have hinitial : readLines (stateSubscript? .objectiveCpp) [initialLine] = [0] := by
    rfl
  have hdeletions : readLines (stateSubscript? .objectiveCpp) (stateDeletions m) = List.range m.states.length :=
    readLines_mapIdx_index fun i _ => subscript?_deletion "_states" (differ_stateHeads _) (by decide) i
  unfold machineImplementation
  rw [readLines_append, readLines_append, readLines_append, readLines_implementationTop hskips, husing, hcreations,
    readLines_onlyIf, subscripts_suspendLine, readLines_implementationEnd hskips, hinitial, hdeletions, List.nil_append]

/-- The transitions are created in order and deleted in order. -/
theorem subscripts_stateImplementation :
    readLines (transitionSubscript? .objectiveCpp) (stateImplementation m s) =
      s.transitions.map TransitionPlan.index ++ s.transitions.map TransitionPlan.index := by
  have hcreations : readLines (transitionSubscript? .objectiveCpp) (s.transitions.map newTransitionLine) =
      s.transitions.map TransitionPlan.index :=
    readLines_map fun t _ => subscript?_newTransition t
  have hdeletions : readLines (transitionSubscript? .objectiveCpp) (transitionDeletions s) =
      s.transitions.map TransitionPlan.index :=
    readLines_map fun t _ => subscript?_deletion "_transitions" (differ_transitionHeads _) (by decide) t.index
  rw [readLines_stateImplementation ((skips_subscript _).of_longer (by decide)), hcreations, hdeletions]

/-- The implementation of a state does not use the array of states. -/
theorem stateSubscripts_stateImplementation :
    readLines (stateSubscript? .objectiveCpp) (stateImplementation m s) = [] := by
  have hcreation : ∀ t, Headless (stateHeads .objectiveCpp) (newTransitionLine t) := by
    intro t
    unfold newTransitionLine
    simp only [String.append_assoc]
    with_reducible exact headless_append _ _ (by decide)
  have hdeletion : ∀ t : TransitionPlan,
      Headless (stateHeads .objectiveCpp) ("    delete _transitions[" ++ toString t.index ++ "];") := by
    intro t
    simp only [String.append_assoc]
    with_reducible exact headless_append _ _ (by decide)
  have hneeds : Needs (stateHeads .objectiveCpp) (stateSubscript? .objectiveCpp) := (skips_subscript _).needs
  rw [readLines_stateImplementation ((skips_subscript _).of_longer (by decide)),
    hneeds.readLines (List.forall_mem_map.mpr fun t _ => hcreation t), transitionDeletions,
    hneeds.readLines (List.forall_mem_map.mpr fun t _ => hdeletion t), List.nil_append]

/-- The length of the array of states is the number of states, but at least one. -/
theorem mem_stateLengths {k : Nat} : k ∈ stateLengths (machineHeader m) .objectiveCpp ↔ k = max m.states.length 1 := by
  have hread := numberBetween?_append "            CLState *_states[" "];" (max m.states.length 1) (by decide)
  unfold stateLengths
  rw [mem_readLines]
  constructor
  · rintro ⟨l, hl, h⟩
    rcases headless_machineHeader l hl with rfl | ⟨start, rfl⟩ | hnone
    · rw [hread] at h
      exact (Option.some.inj h).symm
    · have hbracket := suffix_of_numberBetween? h
      rw [String.toList_append] at hbracket
      have hends : "];".toList <:+ "\");".toList :=
        List.suffix_of_suffix_length_le hbracket (List.suffix_append _ _) (by decide)
      exact absurd hends (by decide)
    · rw [numberBetween?_eq_none hnone] at h
      cases h
  · rintro rfl
    exact ⟨_, by simp [machineHeader], hread⟩

/-- The length of the array of transitions is the number of transitions, but at least one. -/
theorem mem_transitionLengths {k : Nat} :
    k ∈ transitionLengths (stateHeader m s) .objectiveCpp ↔ k = max s.transitions.length 1 := by
  have hread := numberBetween?_append "                CLTransition *_transitions[" "];" (max s.transitions.length 1)
    (by decide)
  unfold transitionLengths
  rw [mem_readLines]
  constructor
  · rintro ⟨l, hl, h⟩
    rcases headless_stateHeader l hl with rfl | hnone
    · rw [hread] at h
      exact (Option.some.inj h).symm
    · rw [numberBetween?_eq_none hnone] at h
      cases h
  · rintro rfl
    exact ⟨_, by simp [stateHeader, stateMethods], hread⟩

end ObjectiveCpp

end MachineBundle.Source
