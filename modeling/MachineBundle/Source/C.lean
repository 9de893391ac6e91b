import MachineBundle.Source.Plan

/-!
# Sources in C

A state header records its transitions as constants, the implementation of a machine its suspend state as an
assignment.
-/

namespace MachineBundle.Source.C

def machineHeader (m : MachinePlan) : List String :=
  banner m.headerFile ++
  ["#ifndef LLFSM_MACHINE_" ++ m.constant ++ "_H",
    "#define LLFSM_MACHINE_" ++ m.constant ++ "_H",
    "",
    "#include <stdbool.h>",
    "#include \"Machine_" ++ m.name ++ "_Includes.h\"",
    "",
    "#define MACHINE_" ++ m.constant ++ "_NUMBER_OF_STATES " ++ toString m.states.length,
    "",
    "struct LLFSMState;",
    "",
    "struct Machine_" ++ m.name,
    "\x7b",
    "    struct LLFSMState *states[MACHINE_" ++ m.constant ++ "_NUMBER_OF_STATES];",
    "    struct LLFSMState *current_state;",
    "    struct LLFSMState *previous_state;"] ++
  onlyIf m.isSuspensible
    ["    struct LLFSMState *suspend_state;",
      "    struct LLFSMState *resume_state;"] ++
  ["",
    "#   include \"Machine_" ++ m.name ++ "_Variables.h\"",
    "\x7d;",
    "",
    "/// Initialise the given machine.",
    "///",
    "/// - Parameter machine: The machine to initialise.",
    "void fsm_" ++ m.lowerName ++ "_init(struct Machine_" ++ m.name ++ " * const machine);",
    "",
    "#   include \"Machine_" ++ m.name ++ "_Methods.h\"",
    "",
    "#endif /* LLFSM_MACHINE_" ++ m.constant ++ "_H */"]

/-- An assignment to a member of the machine. -/
def assignment (member value : String) : String :=
  "    machine->" ++ member ++ " = " ++ value ++ ";"

def suspendLines (index : Option Nat) : List String :=
  [assignment "suspend_state"
      (match index with
      | some i => "machine->states[" ++ toString i ++ "]"
      | none => "NULL"),
    assignment "resume_state" "NULL"]

/-- What comes before the assignments to the members of a machine. -/
def implementationTop (m : MachinePlan) : List String :=
  banner m.implementationFile ++
  ["#include \"" ++ m.headerFile ++ "\""] ++
  m.states.map (fun s => "#include \"State_" ++ s.name ++ ".h\"") ++
  ["",
    "void fsm_" ++ m.lowerName ++ "_init(struct Machine_" ++ m.name ++ " * const machine)",
    "\x7b"]

/-- The assignments to the states of a machine. -/
def stateAssignments (m : MachinePlan) : List String :=
  m.states.mapIdx (fun i s =>
    assignment ("states[" ++ toString i ++ "]") ("fsm_" ++ m.lowerName ++ "_" ++ s.lowerName ++ "_state()")) ++
  [assignment "current_state" "machine->states[0]",
    assignment "previous_state" "NULL"]

def machineImplementation (m : MachinePlan) : List String :=
  implementationTop m ++ stateAssignments m ++ onlyIf m.isSuspensible (suspendLines m.suspendIndex) ++ ["\x7d"]

/-- What the constants of a state begin with. -/
def constantStem (m : MachinePlan) (s : StatePlan) : String :=
  "#define FSM_" ++ m.constant ++ "_" ++ s.constant

/-- A constant for a number. -/
def numberLine (m : MachinePlan) (s : StatePlan) (constant : String) (n : Nat) : String :=
  constantStem m s ++ "_" ++ constant ++ " " ++ toString n

def targetLine? (m : MachinePlan) (s : StatePlan) (t : TransitionPlan) : Option String :=
  t.target.map (numberLine m s ("TRANSITION_" ++ toString t.index ++ "_TARGET"))

/-- What comes before the constants of a state. -/
def stateHeaderTop (m : MachinePlan) (s : StatePlan) : List String :=
  banner ("State_" ++ s.name ++ ".h") ++
  ["#ifndef LLFSM_" ++ m.constant ++ "_" ++ s.constant ++ "_H",
    "#define LLFSM_" ++ m.constant ++ "_" ++ s.constant ++ "_H",
    "",
    "#include <stdbool.h>",
    "#include \"Machine_" ++ m.name ++ "_Includes.h\"",
    "#include \"State_" ++ s.name ++ "_Includes.h\"",
    ""]

/-- The structure of a state. -/
def stateStructure (m : MachinePlan) (s : StatePlan) : List String :=
  let parameters := "(struct Machine_" ++ m.name ++ " *, struct LLFSMState *);"
  ["",
    "struct Machine_" ++ m.name ++ ";",
    "struct LLFSMState;",
    "",
    "struct FSM" ++ m.name ++ "_State_" ++ s.name,
    "\x7b",
    "    struct LLFSMState *(*check_transitions)(const struct Machine_" ++ m.name ++ " *, const struct LLFSMState *);",
    "    void (*on_entry)" ++ parameters,
    "    void (*on_exit) " ++ parameters,
    "    void (*internal)" ++ parameters] ++
  onlyIf m.isSuspensible
    ["    void (*on_suspend)" ++ parameters,
      "    void (*on_resume) " ++ parameters] ++
  ["",
    "#   include \"State_" ++ s.name ++ "_Variables.h\"",
    "\x7d;",
    ""]

/-- What comes after the structure of a state. -/
def stateHeaderEnd (m : MachinePlan) (s : StatePlan) : List String :=
  ["/// Return the singleton instance of " ++ s.name ++ ".",
    "struct LLFSMState *fsm_" ++ m.lowerName ++ "_" ++ s.lowerName ++ "_state(void);",
    "",
    "#   include \"State_" ++ s.name ++ "_Methods.h\"",
    "",
    "#endif /* LLFSM_" ++ m.constant ++ "_" ++ s.constant ++ "_H */"]

def stateHeader (m : MachinePlan) (s : StatePlan) : List String :=
  stateHeaderTop m s ++
  [numberLine m s "NUMBER_OF_TRANSITIONS" s.transitions.length] ++
  s.transitions.filterMap (targetLine? m s) ++
  stateStructure m s ++
  stateHeaderEnd m s

/-- What the names of a state's functions begin with. -/
def functionStem (m : MachinePlan) (s : StatePlan) : String :=
  "fsm_" ++ m.lowerName ++ "_" ++ s.lowerName

/-- A function that runs one of the actions of a state. -/
def actionLines (m : MachinePlan) (s : StatePlan) (function action : String) : List String :=
  ["static void " ++ functionStem m s ++ "_" ++ function ++ "(struct Machine_" ++ m.name ++
      " *machine, struct LLFSMState *state)",
    "\x7b",
    "#   include \"State_" ++ s.name ++ "_" ++ action ++ ".mm\"",
    "\x7d"]

/-- The test of one transition. -/
def guardLines (s : StatePlan) (t : TransitionPlan) : List String :=
  ["    if (",
    "#       include \"State_" ++ s.name ++ "_Transition_" ++ toString t.index ++ ".expr\"",
    match t.target with
    | some target => "    ) return machine->states[" ++ toString target ++ "];"
    | none => "    ) return NULL; // target unresolved"]

def stateImplementation (m : MachinePlan) (s : StatePlan) : List String :=
  let stem := functionStem m s
  banner ("State_" ++ s.name ++ ".c") ++
  ["#include \"" ++ m.headerFile ++ "\"",
    "#include \"State_" ++ s.name ++ ".h\"",
    "",
    "#pragma clang diagnostic push",
    "#pragma clang diagnostic ignored \"-Wunused-parameter\"",
    ""] ++
  actionLines m s "on_entry" "OnEntry" ++ [""] ++
  actionLines m s "on_exit" "OnExit" ++ [""] ++
  actionLines m s "internal" "Internal" ++
  onlyIf m.isSuspensible
    ([""] ++ actionLines m s "on_suspend" "OnSuspend" ++ [""] ++ actionLines m s "on_resume" "OnResume") ++
  ["",
    "/// Check the transitions of " ++ s.name ++ " in order.",
    "///",
    "/// - Returns: The state the machine transitions to (`NULL` if no transition fired).",
    "static struct LLFSMState *" ++ stem ++ "_check_transitions(const struct Machine_" ++ m.name ++
      " *machine, const struct LLFSMState *state)",
    "\x7b"] ++
  s.transitions.flatMap (guardLines s) ++
  ["    return NULL; // None of the transitions fired.",
    "\x7d",
    "",
    "#pragma clang diagnostic pop",
    "",
    "struct LLFSMState *" ++ stem ++ "_state(void)",
    "\x7b",
    "    static struct FSM" ++ m.name ++ "_State_" ++ s.name ++ " instance = \x7b",
    "        .check_transitions = " ++ stem ++ "_check_transitions,",
    "        .on_entry = " ++ stem ++ "_on_entry,",
    "        .on_exit = " ++ stem ++ "_on_exit,",
    "        .internal = " ++ stem ++ "_internal,"] ++
  onlyIf m.isSuspensible
    ["        .on_suspend = " ++ stem ++ "_on_suspend,",
      "        .on_resume = " ++ stem ++ "_on_resume,"] ++
  ["    \x7d;",
    "    return (struct LLFSMState *)&instance;",
    "\x7d"]

end MachineBundle.Source.C
