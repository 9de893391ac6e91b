import MachineBundle.Proofs.Source.Reading
import MachineBundle.Source.C
import MachineBundle.Source.ObjectiveCpp

/-!
# How lines begin

The lines of sources that declare or use states and transitions begin in a few ways, and all other lines begin
otherwise. A line that begins with a name is the head of a definition.
-/

namespace MachineBundle.Source

namespace C

variable {m : MachinePlan} {s : StatePlan} {α : Type} {reader : LineReader α}

/-- What lines of the implementation of a state begin with that tell of states and transitions. -/
def stateImplementationHeads : List String :=
  ["    machine->", "    ) return ", "#       include ", "struct LLFSMState *"]

/-- What lines of a state header begin with that tell of states and transitions. -/
def stateHeaderHeads : List String :=
  ["#define FSM_", "struct LLFSMState *"]

theorem headless_implementationTop : ∀ l ∈ implementationTop m, Headless ["    machine->", "    ) return "] l := by
  unfold implementationTop banner
  simp only [List.forall_mem_append, List.forall_mem_cons, List.forall_mem_map, List.not_mem_nil, false_implies,
    implies_true, and_true, String.append_assoc]
  refine ⟨⟨⟨?_, ?_⟩, fun s _ => ?_⟩, ?_⟩
  and_intros
  all_goals with_reducible first
    | exact headless_ofList _ (by decide)
    | exact headless_append _ _ (by decide)

/-- The lines of a machine header that tell how many states there are. -/
theorem headless_machineHeader : ∀ l ∈ machineHeader m,
    l = "#define MACHINE_" ++ m.constant ++ "_NUMBER_OF_STATES " ++ toString m.states.length ∨
      l = "    struct LLFSMState *states[MACHINE_" ++ m.constant ++ "_NUMBER_OF_STATES];" ∨
        Headless ["#define MACHINE_", "    struct LLFSMState *states["] l := by
  unfold machineHeader banner
  simp only [List.forall_mem_append, List.forall_mem_cons, forall_mem_onlyIf, List.not_mem_nil, false_implies,
    implies_true, and_true, true_and, imp_and, true_or, or_true, String.append_assoc]
  and_intros
  all_goals try refine fun (_ : m.isSuspensible = true) => ?_
  all_goals with_reducible
    refine Or.inr (Or.inr ?_)
    first
      | exact headless_ofList _ (by decide)
      | exact headless_append _ _ (by decide)

theorem headless_stateHeaderTop : ∀ l ∈ stateHeaderTop m s, Headless stateHeaderHeads l := by
  unfold stateHeaderTop banner
  simp only [List.forall_mem_append, List.forall_mem_cons, List.not_mem_nil, false_implies, implies_true, and_true,
    String.append_assoc]
  and_intros
  all_goals with_reducible first
    | exact headless_ofList _ (by decide)
    | exact headless_append _ _ (by decide)

theorem headless_stateStructure : ∀ l ∈ stateStructure m s, Headless stateHeaderHeads l := by
  unfold stateStructure
  simp only [List.forall_mem_append, List.forall_mem_cons, forall_mem_onlyIf, List.not_mem_nil, false_implies,
    implies_true, and_true, imp_and, String.append_assoc]
  and_intros
  all_goals try refine fun (_ : m.isSuspensible = true) => ?_
  all_goals with_reducible first
    | exact headless_ofList _ (by decide)
    | exact headless_append _ _ (by decide)

/-- The line of a state header that declares the function that gives the state. -/
def declarationLine (m : MachinePlan) (s : StatePlan) : String :=
  "struct LLFSMState *" ++ functionStem m s ++ "_state(void);"

theorem readLines_stateHeaderEnd (h : Needs stateHeaderHeads reader) :
    readLines reader (stateHeaderEnd m s) = readLines reader [declarationLine m s] := by
  have hline : "struct LLFSMState *fsm_" ++ m.lowerName ++ "_" ++ s.lowerName ++ "_state(void);" = declarationLine m s := by
    unfold declarationLine functionStem
    rw [← String.toList_inj]
    simp
  have hsplit : ∃ top rest, stateHeaderEnd m s = top ++ ([declarationLine m s] ++ rest) ∧
      (∀ l ∈ top, Headless stateHeaderHeads l) ∧ ∀ l ∈ rest, Headless stateHeaderHeads l := by
    unfold stateHeaderEnd
    rw [hline]
    refine ⟨[_], _, rfl, ?_, ?_⟩
    all_goals
      simp only [List.forall_mem_cons, List.not_mem_nil, false_implies, implies_true, and_true, String.append_assoc]
      and_intros
      all_goals with_reducible first
        | exact headless_ofList _ (by decide)
        | exact headless_append _ _ (by decide)
  obtain ⟨top, rest, hl, htop, hrest⟩ := hsplit
  rw [hl, h.readLines_middle htop hrest]

/-- A state header tells of the number of its transitions, of their targets and of the state. -/
theorem readLines_stateHeader (h : Needs stateHeaderHeads reader) : readLines reader (stateHeader m s) =
    readLines reader [numberLine m s "NUMBER_OF_TRANSITIONS" s.transitions.length] ++
      (readLines reader (s.transitions.filterMap (targetLine? m s)) ++ readLines reader [declarationLine m s]) := by
  unfold stateHeader
  rw [readLines_append, readLines_append, readLines_append, readLines_append, h.readLines headless_stateHeaderTop,
    h.readLines headless_stateStructure, readLines_stateHeaderEnd h, List.nil_append, List.append_nil, List.append_assoc]

theorem headless_actionLines (m : MachinePlan) (s : StatePlan) (function action : String) :
    ∀ l ∈ actionLines m s function action, Headless stateImplementationHeads l := by
  unfold actionLines functionStem
  simp only [List.forall_mem_cons, List.not_mem_nil, false_implies, implies_true, and_true, String.append_assoc]
  and_intros
  all_goals with_reducible first
    | exact headless_ofList _ (by decide)
    | exact headless_append _ _ (by decide)

/-- The line of the implementation of a state that defines the function that gives the state. -/
def definitionLine (m : MachinePlan) (s : StatePlan) : String :=
  "struct LLFSMState *" ++ functionStem m s ++ "_state(void)"

/-- The implementation of a state tells of transitions where they are tested, and of the state. -/
theorem readLines_stateImplementation (h : Needs stateImplementationHeads reader) :
    readLines reader (stateImplementation m s) =
      readLines reader (s.transitions.flatMap (guardLines s)) ++ readLines reader [definitionLine m s] := by
  have hsplit : ∃ top middle rest, stateImplementation m s = top ++ s.transitions.flatMap (guardLines s) ++
        (middle ++ ([definitionLine m s] ++ rest)) ∧
      (∀ l ∈ top, Headless stateImplementationHeads l) ∧ (∀ l ∈ middle, Headless stateImplementationHeads l) ∧
        ∀ l ∈ rest, Headless stateImplementationHeads l := by
    have hactions := headless_actionLines m s
    unfold stateImplementation definitionLine banner functionStem
    rw [List.append_assoc, List.append_assoc]
    refine ⟨_, ["    return NULL; // None of the transitions fired.", "\x7d", "", "#pragma clang diagnostic pop", ""], _,
      rfl, ?_, ?_, ?_⟩
    all_goals
      simp only [List.append_eq, List.forall_mem_append, List.forall_mem_cons, forall_mem_onlyIf, List.not_mem_nil,
        false_implies, implies_true, and_true, imp_and, String.append_assoc]
      and_intros
      all_goals try refine fun (_ : m.isSuspensible = true) => ?_
      all_goals with_reducible first
        | exact hactions _ _
        | exact headless_ofList _ (by decide)
        | exact headless_append _ _ (by decide)
  obtain ⟨top, middle, rest, hl, htop, hmiddle, hrest⟩ := hsplit
  rw [hl, readLines_append, readLines_append, readLines_append, readLines_append, h.readLines htop, h.readLines hmiddle,
    h.readLines hrest, List.nil_append, List.nil_append, List.append_nil]

end C

namespace ObjectiveCpp

variable {m : MachinePlan} {s : StatePlan} {α : Type} {reader : LineReader α}

/-- What lines of the implementation of a machine begin with that tell of states. -/
def machineImplementationHeads : List String :=
  ["using namespace ", "    _states[", "    delete _states[", "    setInitialState(_states[", "    setSuspendState(_states["]

/-- What lines of the implementation of a state begin with that tell of states and transitions. -/
def stateImplementationHeads : List String :=
  ["    _transitions[", "    delete _transitions[", "    _states[", "    delete _states[", "    setInitialState(_states[",
    "    setSuspendState(_states["]

/-- Before the states are created, the implementation of a machine tells which namespaces it uses. -/
theorem readLines_implementationTop (h : Skips machineImplementationHeads reader) :
    readLines reader (implementationTop m) = readLines reader ["using namespace FSM;", "using namespace CLM;"] := by
  have hsplit : ∃ top rest, implementationTop m = top ++ (["using namespace FSM;", "using namespace CLM;"] ++ rest) ∧
      (∀ l ∈ top, Passed machineImplementationHeads l) ∧ ∀ l ∈ rest, Passed machineImplementationHeads l := by
    unfold implementationTop banner
    refine ⟨_ ++ [""], _, (List.append_assoc _ [""] _).symm, ?_, ?_⟩
    all_goals
      simp only [List.forall_mem_append, List.forall_mem_cons, List.forall_mem_map, List.not_mem_nil, false_implies,
        implies_true, and_true]
      and_intros
      all_goals try refine fun (s : StatePlan) (_ : s ∈ m.states) => ?_
      all_goals with_reducible first
        | exact passed_of_parenthesis _ _ (by decide)
        | refine Headless.passed ?_
          repeat rw [String.append_assoc]
          first
            | exact headless_ofList _ (by decide)
            | exact headless_append _ _ (by decide)
  obtain ⟨top, rest, hl, htop, hrest⟩ := hsplit
  rw [hl, readLines_append, readLines_append, h.readLines htop, h.readLines hrest, List.nil_append, List.append_nil]

/-- The line of a machine header that tells how many states there is room for. -/
theorem headless_machineHeader : ∀ l ∈ machineHeader m,
    l = "            CLState *_states[" ++ toString (max m.states.length 1) ++ "];" ∨
      (∃ start, l = start ++ "\");") ∨ Headless ["            CLState *_states["] l := by
  unfold machineHeader banner
  simp only [List.forall_mem_append, List.forall_mem_cons, List.not_mem_nil, false_implies, implies_true, and_true,
    true_and, true_or]
  and_intros
  all_goals with_reducible first
    | exact Or.inr (Or.inl ⟨_, rfl⟩)
    | refine Or.inr (Or.inr ?_)
      repeat rw [String.append_assoc]
      first
        | exact headless_ofList _ (by decide)
        | exact headless_append _ _ (by decide)

/-- The statement for the initial state. -/
def initialLine : String :=
  "    setInitialState(_states[0]);            // set initial state"

/-- The statements that delete the states of a machine. -/
def stateDeletions (m : MachinePlan) : List String :=
  m.states.mapIdx fun i _ => "    delete _states[" ++ toString i ++ "];"

/-- After the states are created, the implementation of a machine tells which one is the initial state, and deletes all. -/
theorem readLines_implementationEnd (h : Skips machineImplementationHeads reader) :
    readLines reader (implementationEnd m) = readLines reader [initialLine] ++ readLines reader (stateDeletions m) := by
  have hsplit : ∃ middle rest, implementationEnd m = [initialLine] ++ middle ++ stateDeletions m ++ rest ∧
      (∀ l ∈ middle, Passed machineImplementationHeads l) ∧ ∀ l ∈ rest, Passed machineImplementationHeads l := by
    unfold implementationEnd
    refine ⟨_, _, rfl, ?_, ?_⟩
    all_goals
      simp only [List.forall_mem_cons, List.not_mem_nil, false_implies, implies_true, and_true]
      and_intros
      all_goals with_reducible first
        | exact passed_of_parenthesis _ _ (by decide)
        | exact Headless.passed (headless_ofList _ (by decide))
  obtain ⟨middle, rest, hl, hmiddle, hrest⟩ := hsplit
  rw [hl, readLines_append, readLines_append, readLines_append, h.readLines hmiddle, h.readLines hrest, List.append_nil,
    List.append_nil]

theorem headless_actionLines (s : StatePlan) (action : String) :
    ∀ l ∈ actionLines s action, Headless stateImplementationHeads l := by
  unfold actionLines
  simp only [List.forall_mem_cons, List.not_mem_nil, false_implies, implies_true, and_true, String.append_assoc]
  and_intros
  all_goals with_reducible first
    | exact headless_ofList _ (by decide)
    | exact headless_append _ _ (by decide)

theorem headless_guardLines (s : StatePlan) (t : TransitionPlan) :
    ∀ l ∈ guardLines s t, Headless stateImplementationHeads l := by
  unfold guardLines
  simp only [List.forall_mem_cons, List.not_mem_nil, false_implies, implies_true, and_true, String.append_assoc]
  and_intros
  all_goals with_reducible first
    | exact headless_ofList _ (by decide)
    | exact headless_append _ _ (by decide)

/-- The statements that delete the transitions of a state. -/
def transitionDeletions (s : StatePlan) : List String :=
  s.transitions.map fun t => "    delete _transitions[" ++ toString t.index ++ "];"

/-- The implementation of a state tells of transitions where they are created and where they are deleted. -/
theorem readLines_stateImplementation (h : Skips stateImplementationHeads reader) :
    readLines reader (stateImplementation m s) =
      readLines reader (s.transitions.map newTransitionLine) ++ readLines reader (transitionDeletions s) := by
  have hsplit : ∃ top middle rest, stateImplementation m s = top ++ s.transitions.map newTransitionLine ++ middle ++
        transitionDeletions s ++ rest ∧
      (∀ l ∈ top, Passed stateImplementationHeads l) ∧ (∀ l ∈ middle, Passed stateImplementationHeads l) ∧
        ∀ l ∈ rest, Passed stateImplementationHeads l := by
    have hconstructor : Passed stateImplementationHeads (constructorLine s m.isSuspensible) := by
      unfold constructorLine
      exact passed_of_parenthesis _ [')'] rfl
    have hactions := fun action l hl => (headless_actionLines s action l hl).passed
    have hguards := fun t l hl => (headless_guardLines s t l hl).passed
    unfold stateImplementation banner
    rw [List.append_assoc, List.append_assoc, List.append_assoc (_ ++ s.transitions.map newTransitionLine)]
    refine ⟨_, _, _, rfl, ?_, ?_, ?_⟩
    all_goals
      simp only [List.forall_mem_append, List.forall_mem_cons, List.forall_mem_flatMap, forall_mem_onlyIf,
        List.not_mem_nil, false_implies, implies_true, and_true, imp_and]
      and_intros
      all_goals try refine fun (_ : m.isSuspensible = true) => ?_
      all_goals with_reducible first
        | exact hconstructor
        | exact fun action _ => hactions action
        | exact fun t _ => hguards t
        | exact passed_of_parenthesis _ _ (by decide)
        | refine Headless.passed ?_
          repeat rw [String.append_assoc]
          first
            | exact headless_ofList _ (by decide)
            | exact headless_append _ _ (by decide)
  obtain ⟨top, middle, rest, hl, htop, hmiddle, hrest⟩ := hsplit
  rw [hl, readLines_append, readLines_append, readLines_append, readLines_append, h.readLines htop, h.readLines hmiddle,
    h.readLines hrest, List.nil_append, List.append_nil, List.append_nil]

/-- What lines of a state header begin with that tell where the class of a state is. -/
def scopeHeads : List String :=
  ["namespace ", "    namespace ", "      namespace ", "        namespace ", "            class "]

/-- What lines of a state header begin with that tell of transitions. -/
def memberHeads : List String :=
  ["                    Transition_", "                    virtual int numberOfTransitions() const "]

/-- What no line of a class within that of a state begins with. -/
def outerHeads : List String :=
  ["#ifndef ", "                CLTransition *_transitions["]

theorem headless_actionClass (action : String) :
    ∀ l ∈ actionClass action, Headless (outerHeads ++ (scopeHeads ++ memberHeads)) l := by
  unfold actionClass
  simp only [List.forall_mem_cons, List.not_mem_nil, false_implies, implies_true, and_true, String.append_assoc]
  and_intros
  all_goals with_reducible first
    | exact headless_ofList _ (by decide)
    | exact headless_append _ _ (by decide)

theorem headless_transitionClass (t : TransitionPlan) : ∀ l ∈ transitionClass t, Headless outerHeads l := by
  unfold transitionClass transitionConstructor
  simp only [List.forall_mem_cons, List.not_mem_nil, false_implies, implies_true, and_true, String.append_assoc]
  and_intros
  all_goals with_reducible first
    | exact headless_ofList _ (by decide)
    | exact headless_append _ _ (by decide)

/-- The line of a state header that tells how many transitions there is room for. -/
theorem headless_stateHeader : ∀ l ∈ stateHeader m s,
    l = "                CLTransition *_transitions[" ++ toString (max s.transitions.length 1) ++ "];" ∨
      Headless ["                CLTransition *_transitions["] l := by
  have hactions : ∀ action, ∀ l ∈ actionClass action, Headless ["                CLTransition *_transitions["] l :=
    fun action l hl => (headless_actionClass action l hl).mono (by simp [outerHeads])
  have htransitions : ∀ t, ∀ l ∈ transitionClass t, Headless ["                CLTransition *_transitions["] l :=
    fun t l hl => (headless_transitionClass t l hl).mono (by simp [outerHeads])
  unfold stateHeader stateHeaderTop stateMethods countLine stateHeaderEnd banner
  simp only [List.forall_mem_append, List.forall_mem_cons, List.forall_mem_flatMap, forall_mem_onlyIf, List.not_mem_nil,
    false_implies, implies_true, and_true, true_and, imp_and, true_or, String.append_assoc]
  and_intros
  all_goals try refine fun (_ : m.isSuspensible = true) => ?_
  all_goals with_reducible first
    | exact fun l hl => Or.inr (hactions _ l hl)
    | exact fun t _ l hl => Or.inr (htransitions t l hl)
    | refine Or.inr ?_
      first
        | exact headless_ofList _ (by decide)
        | exact headless_append _ _ (by decide)

/-- The lines of a state header that lead to the class of the state. -/
def scopeLines (m : MachinePlan) (s : StatePlan) : List String :=
  ["namespace FSM",
    "\x7b",
    "    namespace CLM",
    "    \x7b",
    "      namespace FSM" ++ m.name,
    "      \x7b",
    "        namespace State",
    "        \x7b",
    "            class " ++ s.name ++ ": public CLState",
    "            \x7b"]

/-- The first part of a state header tells where the class of the state is. -/
theorem readLines_stateHeaderTop (h : Needs (scopeHeads ++ memberHeads) reader) :
    readLines reader (stateHeaderTop m s) = readLines reader (scopeLines m s) := by
  have hsplit : ∃ top rest, stateHeaderTop m s = top ++ (scopeLines m s ++ rest) ∧
      (∀ l ∈ top, Headless (scopeHeads ++ memberHeads) l) ∧ ∀ l ∈ rest, Headless (scopeHeads ++ memberHeads) l := by
    have hactions : ∀ action, ∀ l ∈ actionClass action, Headless (scopeHeads ++ memberHeads) l :=
      fun action l hl => (headless_actionClass action l hl).mono (List.subset_append_right _ _)
    unfold stateHeaderTop banner
    rw [List.append_assoc, List.append_assoc, List.append_assoc, List.append_assoc, List.append_assoc, List.append_assoc]
    -- the comment of five lines, and seven more
    refine ⟨[_, _, _, _, _, _, _, _, _, _, _, _], _, rfl, ?_, ?_⟩
    all_goals
      simp only [List.forall_mem_append, List.forall_mem_cons, forall_mem_onlyIf, List.not_mem_nil, false_implies,
        implies_true, and_true, imp_and, String.append_assoc]
      and_intros
      all_goals try refine fun (_ : m.isSuspensible = true) => ?_
      all_goals with_reducible first
        | exact hactions _
        | exact headless_ofList _ (by decide)
        | exact headless_append _ _ (by decide)
  obtain ⟨top, rest, hl, htop, hrest⟩ := hsplit
  rw [hl, h.readLines_middle htop hrest]

theorem readLines_transitionClass (h : Needs (scopeHeads ++ memberHeads) reader) (t : TransitionPlan) :
    readLines reader (transitionClass t) = readLines reader [transitionConstructor t] := by
  have hsplit : ∃ top rest, transitionClass t = top ++ ([transitionConstructor t] ++ rest) ∧
      (∀ l ∈ top, Headless (scopeHeads ++ memberHeads) l) ∧ ∀ l ∈ rest, Headless (scopeHeads ++ memberHeads) l := by
    unfold transitionClass
    refine ⟨[_, _, _, _], _, rfl, ?_, ?_⟩
    all_goals
      simp only [List.forall_mem_cons, List.not_mem_nil, false_implies, implies_true, and_true, String.append_assoc]
      and_intros
      all_goals with_reducible first
        | exact headless_ofList _ (by decide)
        | exact headless_append _ _ (by decide)
  obtain ⟨top, rest, hl, htop, hrest⟩ := hsplit
  rw [hl, h.readLines_middle htop hrest]

/-- The declaration of a state's constructor, which begins with a name. -/
def constructorDeclaration (s : StatePlan) : String :=
  "                    " ++ s.name ++ "(const char *name = \"" ++ s.name ++ "\");"

theorem headless_stateMethods : ∀ l ∈ stateMethods s,
    l = constructorDeclaration s ∨ Headless (scopeHeads ++ memberHeads) l := by
  unfold stateMethods constructorDeclaration
  simp only [List.forall_mem_cons, List.not_mem_nil, false_implies, implies_true, and_true, true_or, true_and,
    String.append_assoc]
  and_intros
  all_goals with_reducible
    refine Or.inr ?_
    first
      | exact headless_ofList _ (by decide)
      | exact headless_append _ _ (by decide)

theorem readLines_stateMethods (h : Needs (scopeHeads ++ memberHeads) reader)
    (hname : reader (constructorDeclaration s).toList = none) : readLines reader (stateMethods s) = [] := by
  refine readLines_eq_nil fun l hl => ?_
  rcases headless_stateMethods l hl with rfl | hnone
  · exact hname
  · exact h l hnone

theorem headless_stateHeaderEnd : ∀ l ∈ stateHeaderEnd s, Headless (scopeHeads ++ memberHeads) l := by
  unfold stateHeaderEnd
  simp only [List.forall_mem_cons, List.not_mem_nil, false_implies, implies_true, and_true, String.append_assoc]
  and_intros
  all_goals with_reducible first
    | exact headless_ofList _ (by decide)
    | exact headless_append _ _ (by decide)

/-- A state header tells where the class of the state is, which transitions it has and how many. -/
theorem readLines_stateHeader (h : Needs (scopeHeads ++ memberHeads) reader)
    (hname : reader (constructorDeclaration s).toList = none) :
    readLines reader (stateHeader m s) = readLines reader (scopeLines m s) ++
      (readLines reader (s.transitions.map transitionConstructor) ++ readLines reader [countLine s]) := by
  have htransitions : readLines reader (s.transitions.flatMap transitionClass) =
      readLines reader (s.transitions.map transitionConstructor) := by
    rw [List.map_eq_flatMap, readLines_flatMap fun t _ => readLines_transitionClass h t]
    exact (readLines_flatMap fun t _ => rfl).symm
  unfold stateHeader
  rw [readLines_append, readLines_append, readLines_append, readLines_append, readLines_stateHeaderTop h, htransitions,
    readLines_stateMethods h hname, h.readLines headless_stateHeaderEnd, List.append_nil, List.append_nil, List.append_assoc]

end ObjectiveCpp

end MachineBundle.Source
