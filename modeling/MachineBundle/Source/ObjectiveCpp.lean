import MachineBundle.Source.Plan

/-!
# Sources in Objective-C++

A state header declares a class for each transition, whose constructor has the target as its default, and a
method with the number of transitions. The constructor of a machine sets its suspend state.
-/

namespace MachineBundle.Source.ObjectiveCpp

def machineHeader (m : MachinePlan) : List String :=
  banner m.headerFile ++
  ["#ifndef clfsm_machine_" ++ m.name ++ "_",
    "#define clfsm_machine_" ++ m.name ++ "_",
    "",
    "#include \"CLMachine.h\"",
    "",
    "namespace FSM",
    "\x7b",
    "    class CLState;",
    "",
    "    namespace CLM",
    "    \x7b",
    "        class " ++ m.name ++ ": public CLMachine",
    "        \x7b",
    "            CLState *_states[" ++ toString (max m.states.length 1) ++ "];",
    "        public:",
    "            " ++ m.name ++ "(int mid = 0, const char *name = \"" ++ m.name ++ "\");",
    "            virtual ~" ++ m.name ++ "();",
    "            virtual CLState * const * states() const \x7b return _states; \x7d",
    "            virtual int numberOfStates() const \x7b return " ++ toString m.states.length ++ "; \x7d",
    "#           include \"" ++ m.name ++ "_Variables.h\"",
    "#           include \"" ++ m.name ++ "_Methods.h\"",
    "        \x7d;",
    "    \x7d",
    "\x7d",
    "",
    "extern \"C\"",
    "\x7b",
    "    FSM::CLM::" ++ m.name ++ " *CLM_Create_" ++ m.name ++ "(int mid, const char *name);",
    "\x7d",
    "",
    "#endif // defined(clfsm_machine_" ++ m.name ++ "_)"]

def suspendLine (index : Option Nat) : String :=
  match index with
  | some i => "    setSuspendState(_states[" ++ toString i ++ "]);            // set suspend state"
  | none => "    setSuspendState(NULL);"

/-- What comes before the statements of a machine's constructor. -/
def implementationTop (m : MachinePlan) : List String :=
  banner m.implementationFile ++
  ["#include \"" ++ m.headerFile ++ "\""] ++
  m.states.map (fun s => "#include \"State_" ++ s.name ++ ".h\"") ++
  ["",
    "using namespace FSM;",
    "using namespace CLM;",
    "",
    "extern \"C\"",
    "\x7b",
    "    " ++ m.name ++ " *CLM_Create_" ++ m.name ++ "(int mid, const char *name)",
    "    \x7b",
    "        return new " ++ m.name ++ "(mid, name);",
    "    \x7d",
    "\x7d",
    "",
    m.name ++ "::" ++ m.name ++ "(int mid, const char *name): CLMachine(mid, name)",
    "\x7b"]

/-- The statements that create the states of a machine. -/
def stateCreations (m : MachinePlan) : List String :=
  m.states.mapIdx fun i s =>
    "    _states[" ++ toString i ++ "] = new FSM" ++ m.name ++ "::State::" ++ s.name ++ ";"

/-- What comes after the suspend state in the constructor, and the destructor. -/
def implementationEnd (m : MachinePlan) : List String :=
  ["    setInitialState(_states[0]);            // set initial state",
    "\x7d",
    "",
    m.name ++ "::~" ++ m.name ++ "()",
    "\x7b"] ++
  m.states.mapIdx (fun i _ => "    delete _states[" ++ toString i ++ "];") ++
  ["\x7d"]

def machineImplementation (m : MachinePlan) : List String :=
  implementationTop m ++ stateCreations m ++ onlyIf m.isSuspensible [suspendLine m.suspendIndex] ++ implementationEnd m

/-- The declaration of one of the actions of a state. -/
def actionClass (action : String) : List String :=
  ["                class " ++ action ++ ": public CLAction",
    "                \x7b",
    "                    virtual void perform(CLMachine *, CLState *) const;",
    "                \x7d;"]

/-- The parameter of a transition's constructor. -/
def targetParameter (target : Option Nat) : String :=
  match target with
  | some i => "int toState = " ++ toString i
  | none => "int toState"

/-- The constructor of a transition. -/
def transitionConstructor (t : TransitionPlan) : String :=
  "                    Transition_" ++ toString t.index ++ "(" ++ targetParameter t.target ++
    "): CLTransition(toState) \x7b\x7d"

/-- The declaration of a transition. -/
def transitionClass (t : TransitionPlan) : List String :=
  ["",
    "                class Transition_" ++ toString t.index ++ ": public CLTransition",
    "                \x7b",
    "                public:",
    transitionConstructor t,
    "",
    "                    virtual bool check(CLMachine *, CLState *) const;",
    "                \x7d;"]

/-- What comes before the transitions in the class of a state. -/
def stateHeaderTop (m : MachinePlan) (s : StatePlan) : List String :=
  banner ("State_" ++ s.name ++ ".h") ++
  ["#ifndef clfsm_" ++ m.name ++ "_State_" ++ s.name ++ "_h",
    "#define clfsm_" ++ m.name ++ "_State_" ++ s.name ++ "_h",
    "",
    "#include \"CLState.h\"",
    "#include \"CLAction.h\"",
    "#include \"CLTransition.h\"",
    "",
    "namespace FSM",
    "\x7b",
    "    namespace CLM",
    "    \x7b",
    "      namespace FSM" ++ m.name,
    "      \x7b",
    "        namespace State",
    "        \x7b",
    "            class " ++ s.name ++ ": public CLState",
    "            \x7b"] ++
  actionClass "OnEntry" ++ [""] ++ actionClass "OnExit" ++ [""] ++ actionClass "Internal" ++
  onlyIf m.isSuspensible ([""] ++ actionClass "OnSuspend" ++ [""] ++ actionClass "OnResume")

/-- The constructor and the other methods of a state, up to the number of its transitions. -/
def stateMethods (s : StatePlan) : List String :=
  ["",
    "                CLTransition *_transitions[" ++ toString (max s.transitions.length 1) ++ "];",
    "",
    "                public:",
    "                    " ++ s.name ++ "(const char *name = \"" ++ s.name ++ "\");",
    "                    virtual ~" ++ s.name ++ "();",
    "",
    "                    virtual CLTransition * const *transitions() const \x7b return _transitions; \x7d"]

def countLine (s : StatePlan) : String :=
  "                    virtual int numberOfTransitions() const \x7b return " ++ toString s.transitions.length ++ "; \x7d"

/-- What comes after the number of transitions. -/
def stateHeaderEnd (s : StatePlan) : List String :=
  ["",
    "#                   include \"State_" ++ s.name ++ "_Variables.h\"",
    "#                   include \"State_" ++ s.name ++ "_Methods.h\"",
    "            \x7d;",
    "        \x7d",
    "      \x7d",
    "    \x7d",
    "\x7d",
    "",
    "#endif"]

def stateHeader (m : MachinePlan) (s : StatePlan) : List String :=
  stateHeaderTop m s ++ s.transitions.flatMap transitionClass ++ stateMethods s ++ [countLine s] ++ stateHeaderEnd s

/-- The names of the actions in sources. -/
def actions (isSuspensible : Bool) : List String :=
  ["OnEntry", "OnExit", "Internal"] ++ onlyIf isSuspensible ["OnSuspend", "OnResume"]

def constructorLine (s : StatePlan) (isSuspensible : Bool) : String :=
  let action (pointer name : String) : String := ", " ++ pointer ++ "new " ++ s.name ++ "::" ++ name
  s.name ++ "::" ++ s.name ++ "(const char *name): CLState(name" ++
    action "*" "OnEntry" ++ action "*" "OnExit" ++ action "*" "Internal" ++
    (if isSuspensible then ", NULLPTR" ++ action "" "OnSuspend" ++ action "" "OnResume" else "") ++ ")"

def newTransitionLine (t : TransitionPlan) : String :=
  "    _transitions[" ++ toString t.index ++ "] = new Transition_" ++ toString t.index ++
    (if t.target.isSome then "();" else "(-1);")

def actionLines (s : StatePlan) (action : String) : List String :=
  ["void " ++ s.name ++ "::" ++ action ++ "::perform(CLMachine *_machine, CLState *_state) const",
    "\x7b",
    "#   include \"State_" ++ s.name ++ "_" ++ action ++ ".mm\"",
    "\x7d",
    ""]

def guardLines (s : StatePlan) (t : TransitionPlan) : List String :=
  ["bool " ++ s.name ++ "::Transition_" ++ toString t.index ++
      "::check(CLMachine *_machine, CLState *_state) const",
    "\x7b",
    "    return",
    "    (",
    "#       include \"State_" ++ s.name ++ "_Transition_" ++ toString t.index ++ ".expr\"",
    "    );",
    "\x7d",
    ""]

def stateImplementation (m : MachinePlan) (s : StatePlan) : List String :=
  banner ("State_" ++ s.name ++ ".mm") ++
  ["#include \"" ++ m.name ++ "_Includes.h\"",
    "#include \"" ++ m.headerFile ++ "\"",
    "#include \"State_" ++ s.name ++ ".h\"",
    "",
    "#include \"State_" ++ s.name ++ "_Includes.h\"",
    "",
    "using namespace FSM;",
    "using namespace CLM;",
    "using namespace FSM" ++ m.name ++ ";",
    "using namespace State;",
    "",
    constructorLine s m.isSuspensible,
    "\x7b"] ++
  s.transitions.map newTransitionLine ++
  ["\x7d",
    "",
    s.name ++ "::~" ++ s.name ++ "()",
    "\x7b",
    "    delete &onEntryAction();",
    "    delete &onExitAction();",
    "    delete &internalAction();"] ++
  onlyIf m.isSuspensible
    ["    delete onSuspendAction();",
      "    delete onResumeAction();"] ++
  s.transitions.map (fun t => "    delete _transitions[" ++ toString t.index ++ "];") ++
  ["\x7d",
    ""] ++
  (actions m.isSuspensible).flatMap (actionLines s) ++
  s.transitions.flatMap (guardLines s)

end MachineBundle.Source.ObjectiveCpp
