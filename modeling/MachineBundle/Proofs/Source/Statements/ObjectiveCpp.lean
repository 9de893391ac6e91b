import MachineBundle.Proofs.Source.Heads

/-!
# What sources in Objective-C++ say

The implementation of a machine creates objects of classes that the headers of the states declare. A state header declares
a class for each transition, whose constructor has the target as its default; the implementation creates the transitions
without a target if there is such a default.
-/

namespace MachineBundle.Source

open Scan

namespace ObjectiveCpp

variable {m : MachinePlan} {s : StatePlan}

/-! ## Slots -/

/-- An assignment to a slot, with the class of the state that is created. -/
def slot? : LineReader (Nat × String) :=
  numbered "    _states[" (between? "] = new " ";")

/-- A namespace whose names can be used. -/
def used? : LineReader String :=
  between? "using namespace " ";"

/-- The class of a state, seen from the namespaces that the implementation of a machine uses. -/
def className (m : MachinePlan) (s : StatePlan) : String :=
  "FSM" ++ m.name ++ "::State::" ++ s.name

theorem slot?_creation (i : Nat) (s : StatePlan) :
    slot? ("    _states[" ++ toString i ++ "] = new FSM" ++ m.name ++ "::State::" ++ s.name ++ ";").toList =
      some (i, className m s) := by
  have hl : ("    _states[" ++ toString i ++ "] = new FSM" ++ m.name ++ "::State::" ++ s.name ++ ";").toList =
      "    _states[".toList ++ ((toString i).toList ++ ("] = new " ++ className m s ++ ";").toList) := by
    simp [className]
  rw [hl]
  refine numbered_append _ i ?_ (between?_append _ _ _)
  simp
  decide

theorem needs_slot : Needs ["    _states["] slot? :=
  needs_numbered _ _

theorem ends_slot : Ends ';' slot? :=
  ends_numbered _ (ends_between _ rfl)

theorem skips_slot : Skips machineImplementationHeads slot? :=
  (needs_slot.of_longer (by decide)).skips ends_slot (by decide)

theorem slot?_suspendLine (index : Option Nat) : slot? (suspendLine index).toList = none := by
  refine needs_slot _ ?_
  cases index with
  | none => exact headless_ofList _ (by decide)
  | some i =>
    unfold suspendLine
    simp only [String.append_assoc]
    with_reducible exact headless_append _ _ (by decide)

theorem headless_stateDeletions {heads : List String} (h : Departs heads "    delete _states[") :
    ∀ l ∈ stateDeletions m, Headless heads l := by
  intro l hl
  obtain ⟨i, _, rfl⟩ := List.mem_mapIdx.mp hl
  exact ((h.append _).append _).headless

theorem readLines_slots : readLines slot? (machineImplementation m) = m.states.mapIdx fun k s => (k, className m s) := by
  have husing : readLines slot? ["using namespace FSM;", "using namespace CLM;"] = [] := by rfl
  have hcreations : readLines slot? (stateCreations m) = m.states.mapIdx fun k s => (k, className m s) :=
    readLines_mapIdx fun i _ => slot?_creation i _
  have hsuspend : readLines slot? [suspendLine m.suspendIndex] = [] :=
    readLines_cons_none (slot?_suspendLine m.suspendIndex) []
  have hinitial : readLines slot? [initialLine] = [] := by rfl
  have hdeletions : readLines slot? (stateDeletions m) = [] :=
    needs_slot.readLines (headless_stateDeletions (departs_ofList _ (by decide)))
  unfold machineImplementation
  rw [readLines_append, readLines_append, readLines_append, readLines_implementationTop skips_slot, husing, hcreations,
    readLines_onlyIf, hsuspend, ite_self, readLines_implementationEnd skips_slot, hinitial, hdeletions, List.nil_append,
    List.append_nil, List.append_nil, List.append_nil]

theorem needs_used : Needs ["using namespace "] used? :=
  needs_between _ _

theorem skips_used : Skips machineImplementationHeads used? :=
  (needs_used.of_longer (by decide)).skips (ends_between _ rfl) (by decide)

theorem readLines_used : readLines used? (machineImplementation m) = ["FSM", "CLM"] := by
  have husing : readLines used? ["using namespace FSM;", "using namespace CLM;"] = ["FSM", "CLM"] := by rfl
  have hcreations : ∀ l ∈ stateCreations m, Headless ["using namespace "] l := by
    intro l hl
    obtain ⟨i, _, rfl⟩ := List.mem_mapIdx.mp hl
    simp only [String.append_assoc]
    with_reducible exact headless_append _ _ (by decide)
  have hsuspend : Headless ["using namespace "] (suspendLine m.suspendIndex) := by
    cases m.suspendIndex with
    | none => exact headless_ofList _ (by decide)
    | some i =>
      unfold suspendLine
      simp only [String.append_assoc]
      with_reducible exact headless_append _ _ (by decide)
  have hinitial : readLines used? [initialLine] = [] := by rfl
  have hdeletions : readLines used? (stateDeletions m) = [] :=
    needs_used.readLines (headless_stateDeletions (departs_ofList _ (by decide)))
  unfold machineImplementation
  rw [readLines_append, readLines_append, readLines_append, readLines_implementationTop skips_used, husing,
    needs_used.readLines hcreations, readLines_onlyIf, needs_used.readLines (List.forall_mem_singleton.mpr hsuspend), ite_self,
    readLines_implementationEnd skips_used, hinitial, hdeletions, List.append_nil, List.append_nil]
  rfl

/-! ## State headers -/

/-- A namespace that leads to the class of a state. -/
def scope? : LineReader String := fun l =>
  ["namespace ", "    namespace ", "      namespace ", "        namespace "].findSome? fun head => between? head "" l

/-- The class of a state. -/
def class? : LineReader String :=
  between? "            class " ": public CLState"

/-- The number of transitions that a state header records. -/
def count? : LineReader Nat :=
  numberBetween? "                    virtual int numberOfTransitions() const \x7b return " "; \x7d"

/-- The parameter of a constructor, which may have a default. -/
def parameter? : LineReader (Option Nat) := fun l =>
  ((numberBetween? "(int toState = " "): CLTransition(toState) \x7b\x7d" l).map some).or
    ((between? "(int toState)" ": CLTransition(toState) \x7b\x7d" l).map fun _ => none)

/-- The constructor of a transition. -/
def constructor? : LineReader (Nat × Option Nat) :=
  numbered "                    Transition_" parameter?

theorem needs_scope : Needs scopeHeads scope? := by
  intro l h
  refine List.findSome?_eq_none_iff.mpr fun head hhead => ?_
  refine between?_eq_none (fun long hlong => ?_) ""
  rw [List.mem_singleton.mp hlong]
  exact h head (List.mem_append_left ["            class "] hhead)

theorem needs_class : Needs ["            class "] class? :=
  needs_between _ _

theorem needs_count : Needs ["                    virtual int numberOfTransitions() const \x7b return "] count? :=
  needs_numberBetween _ _

theorem needs_constructor : Needs ["                    Transition_"] constructor? :=
  needs_numbered _ _

/-- The class of a state is said to be in namespaces, but nothing that follows is. -/
theorem readLines_scoped {α : Type} {reader : LineReader α} (h : Needs scopeHeads reader) :
    readLines reader (stateHeader m s) = readLines reader (scopeLines m s) := by
  have hname : Headless scopeHeads (constructorDeclaration s) := by
    unfold constructorDeclaration
    simp only [String.append_assoc]
    with_reducible exact headless_append _ _ (by decide)
  have htransitions : ∀ l ∈ s.transitions.map transitionConstructor, Headless scopeHeads l := by
    refine List.forall_mem_map.mpr fun t _ => ?_
    unfold transitionConstructor
    simp only [String.append_assoc]
    with_reducible exact headless_append _ _ (by decide)
  have hcount : Headless scopeHeads (countLine s) := by
    unfold countLine
    simp only [String.append_assoc]
    with_reducible exact headless_append _ _ (by decide)
  rw [readLines_stateHeader (h.of_longer (by decide)) (h _ hname), h.readLines htransitions,
    h.readLines (List.forall_mem_singleton.mpr hcount), List.append_nil, List.append_nil]

theorem scope?_machine (name : String) : scope? ("      namespace FSM" ++ name).toList = some ("FSM" ++ name) := by
  have hdeparts : ∀ head ∈ ["namespace ", "    namespace "], between? head "" ("      namespace FSM" ++ name).toList = none := by
    intro head hhead
    have hd : Departs ["namespace ", "    namespace "] "      namespace FSM" := departs_ofList _ (by decide)
    refine between?_eq_none (fun long hlong => ?_) ""
    rw [List.mem_singleton.mp hlong]
    exact (hd.append _).headless head hhead
  have hl : "      namespace FSM" ++ name = "      namespace " ++ ("FSM" ++ name) ++ "" := by
    rw [← String.toList_inj]
    simp
  unfold scope?
  rw [List.findSome?_cons, hdeparts _ (by decide), List.findSome?_cons, hdeparts _ (by decide), List.findSome?_cons, hl,
    between?_append]

theorem readLines_scopes : readLines scope? (stateHeader m s) = ["FSM", "CLM", "FSM" ++ m.name, "State"] := by
  have hclass : scope? ("            class " ++ s.name ++ ": public CLState").toList = none := by
    refine List.findSome?_eq_none_iff.mpr fun head hhead => ?_
    have hd : Departs ["namespace ", "    namespace ", "      namespace ", "        namespace "] "            class " :=
      departs_ofList _ (by decide)
    refine between?_eq_none (fun long hlong => ?_) ""
    rw [List.mem_singleton.mp hlong]
    exact ((hd.append _).append _).headless head hhead
  have htop : readLines scope? ["namespace FSM", "\x7b", "    namespace CLM", "    \x7b"] = ["FSM", "CLM"] := by
    rfl
  have hstate : readLines scope? ["      \x7b", "        namespace State", "        \x7b"] = ["State"] := by rfl
  have hend : readLines scope? ["            \x7b"] = [] := by rfl
  have hsplit : scopeLines m s = ["namespace FSM", "\x7b", "    namespace CLM", "    \x7b"] ++
      ("      namespace FSM" ++ m.name) :: (["      \x7b", "        namespace State", "        \x7b"] ++
        ("            class " ++ s.name ++ ": public CLState") :: ["            \x7b"]) := rfl
  rw [readLines_scoped needs_scope, hsplit, readLines_append, htop, readLines_cons_some (scope?_machine m.name),
    readLines_append, hstate, readLines_cons_none hclass, hend]
  rfl

theorem readLines_class : readLines class? (stateHeader m s) = [s.name] := by
  have hmachine : Departs ["            class "] "      namespace FSM" := departs_ofList _ (by decide)
  have htop : readLines class? ["namespace FSM", "\x7b", "    namespace CLM", "    \x7b"] = [] := by rfl
  have hstate : readLines class? ["      \x7b", "        namespace State", "        \x7b"] = [] := by rfl
  have hend : readLines class? ["            \x7b"] = [] := by rfl
  have hclass : class? ("            class " ++ s.name ++ ": public CLState").toList = some s.name :=
    between?_append _ _ _
  have hsplit : scopeLines m s = ["namespace FSM", "\x7b", "    namespace CLM", "    \x7b"] ++
      ("      namespace FSM" ++ m.name) :: (["      \x7b", "        namespace State", "        \x7b"] ++
        ("            class " ++ s.name ++ ": public CLState") :: ["            \x7b"]) := rfl
  rw [readLines_scoped (needs_class.of_longer (by decide)), hsplit, readLines_append, htop,
    readLines_cons_none (needs_class _ (hmachine.append _).headless), readLines_append, hstate, readLines_cons_some hclass, hend]
  rfl

/-- No member of the class is said where the class is. -/
theorem readLines_members {α : Type} {reader : LineReader α} (h : Needs memberHeads reader) (hends : Ends '\x7d' reader) :
    readLines reader (stateHeader m s) =
      readLines reader (s.transitions.map transitionConstructor) ++ readLines reader [countLine s] := by
  have hscopes : ∀ l ∈ scopeLines m s, Headless memberHeads l := by
    unfold scopeLines
    simp only [List.forall_mem_cons, List.not_mem_nil, false_implies, implies_true, and_true, String.append_assoc]
    and_intros
    all_goals with_reducible first
      | exact headless_ofList _ (by decide)
      | exact headless_append _ _ (by decide)
  have hname : (constructorDeclaration s).toList.getLast? = some ';' := getLast?_append_ofList _ rfl
  rw [readLines_stateHeader (h.of_longer (by decide)) (hends.eq_none hname (by decide)), h.readLines hscopes,
    List.nil_append]

theorem readLines_count : readLines count? (stateHeader m s) = [s.transitions.length] := by
  have htransitions : ∀ l ∈ s.transitions.map transitionConstructor,
      Headless ["                    virtual int numberOfTransitions() const \x7b return "] l := by
    refine List.forall_mem_map.mpr fun t _ => ?_
    unfold transitionConstructor
    simp only [String.append_assoc]
    with_reducible exact headless_append _ _ (by decide)
  have hcount : count? (countLine s).toList = some s.transitions.length := numberBetween?_append _ _ _ (by simp; decide)
  rw [readLines_members (needs_count.of_longer (by decide)) (ends_numberBetween _ rfl), needs_count.readLines htransitions,
    readLines_cons_some hcount]
  rfl

theorem ends_parameter : Ends '\x7d' parameter? := by
  intro l x h
  rcases Option.or_eq_some_iff.mp h with hdefault | ⟨-, hplain⟩
  · obtain ⟨k, hk, -⟩ := Option.map_eq_some_iff.mp hdefault
    exact ends_numberBetween _ rfl l k hk
  · obtain ⟨y, hy, -⟩ := Option.map_eq_some_iff.mp hplain
    exact ends_between _ rfl l y hy

theorem parameter?_target (target : Option Nat) :
    parameter? ("(" ++ targetParameter target ++ "): CLTransition(toState) \x7b\x7d").toList = some target := by
  cases target with
  | none => rfl
  | some k =>
    have hdefault : "(" ++ targetParameter (some k) ++ "): CLTransition(toState) \x7b\x7d" =
        "(int toState = " ++ toString k ++ "): CLTransition(toState) \x7b\x7d" := by
      unfold targetParameter
      rw [← String.toList_inj]
      simp
    rw [hdefault, parameter?, numberBetween?_append _ _ _ (by simp; decide)]
    rfl

theorem constructor?_transition (t : TransitionPlan) :
    constructor? (transitionConstructor t).toList = some (t.index, t.target) := by
  have hl : (transitionConstructor t).toList = "                    Transition_".toList ++ ((toString t.index).toList ++
      ("(" ++ targetParameter t.target ++ "): CLTransition(toState) \x7b\x7d").toList) := by
    unfold transitionConstructor
    simp
  have hrest : ∀ c ∈ ("(" ++ targetParameter t.target ++ "): CLTransition(toState) \x7b\x7d").toList.head?,
      isDigit c = false := by
    rw [String.toList_append, String.toList_append]
    simp
    decide
  rw [hl, constructor?]
  exact numbered_append _ t.index hrest (parameter?_target t.target)

theorem readLines_constructors :
    readLines constructor? (stateHeader m s) = s.transitions.map fun t => (t.index, t.target) := by
  have hcount : Headless ["                    Transition_"] (countLine s) := by
    unfold countLine
    simp only [String.append_assoc]
    with_reducible exact headless_append _ _ (by decide)
  rw [readLines_members (needs_constructor.of_longer (by decide)) (ends_numbered _ ends_parameter),
    needs_constructor.readLines (List.forall_mem_singleton.mpr hcount), List.append_nil]
  exact readLines_map fun t _ => constructor?_transition t

/-! ## Implementations of states -/

/-- The creation of a transition: the slot, the class and what the constructor is given. -/
def creation? : LineReader (Nat × Nat × String) :=
  numbered "    _transitions[" (numbered "] = new Transition_" (between? "(" ");"))

theorem needs_creation : Needs ["    _transitions["] creation? :=
  needs_numbered _ _

theorem creation?_transition (t : TransitionPlan) : creation? (newTransitionLine t).toList =
    some (t.index, t.index, if t.target.isSome then "" else "-1") := by
  have harguments : (if t.target.isSome then "();" else "(-1);") =
      "(" ++ (if t.target.isSome then "" else "-1") ++ ");" := by
    split <;> rfl
  have hl : (newTransitionLine t).toList = "    _transitions[".toList ++ ((toString t.index).toList ++
      ("] = new Transition_".toList ++ ((toString t.index).toList ++
        ("(" ++ (if t.target.isSome then "" else "-1") ++ ");").toList))) := by
    unfold newTransitionLine
    rw [harguments]
    simp
  rw [hl]
  refine numbered_append _ _ (by simp; decide) (numbered_append _ _ ?_ (between?_append _ _ _))
  simp
  decide

theorem readLines_creations : readLines creation? (stateImplementation m s) =
    s.transitions.map fun t => (t.index, t.index, if t.target.isSome then "" else "-1") := by
  have hends : Ends ';' creation? := ends_numbered _ (ends_numbered _ (ends_between _ rfl))
  have hdeletions : ∀ l ∈ transitionDeletions s, Headless ["    _transitions["] l := by
    refine List.forall_mem_map.mpr fun t _ => ?_
    simp only [String.append_assoc]
    with_reducible exact headless_append _ _ (by decide)
  rw [readLines_stateImplementation ((needs_creation.of_longer (by decide)).skips hends (by decide)),
    needs_creation.readLines hdeletions, List.append_nil]
  exact readLines_map fun t _ => creation?_transition t

end ObjectiveCpp

end MachineBundle.Source
