import MachineBundle.Scan.Pattern
import MachineBundle.Section

/-!
# Language bindings

A binding fixes how a bundle of one family of languages names its files and in which words its sources record
transitions, their targets and the suspend state.
-/

namespace MachineBundle

/-- The families of languages that bundles are written in. -/
inductive Binding where
  | c
  /-- Objective-C++, which also stands for C++ and Objective-C. -/
  | objectiveCpp
  deriving DecidableEq, Repr

namespace Binding

/-- The name that a bundle records for its language. -/
def name : Binding → String
  | c => "c"
  | objectiveCpp => "objc++"

/-- The folder of the source templates. -/
def folder : Binding → String
  | c => "c"
  | objectiveCpp => "objcpp"

def ofName? (name : String) : Option Binding :=
  [c, objectiveCpp].find? (·.name = name)

/-! ## Files -/

/-- What the file names of a machine's own sections begin with. -/
def stem (machine : String) : Binding → String
  | c => "Machine_" ++ machine
  | objectiveCpp => machine

def headerFile (b : Binding) (machine : String) : String :=
  b.stem machine ++ ".h"

/-- The suffix of files that implement something. -/
def implementationSuffix : Binding → String
  | c => ".c"
  | objectiveCpp => ".mm"

/-- The file that implements the machine and records its suspend state. -/
def implementationFile (b : Binding) (machine : String) : String :=
  b.stem machine ++ b.implementationSuffix

/-- The sections of a machine that a bundle keeps, with their files. -/
def sectionFiles (b : Binding) (machine : String) : List (Section × String) :=
  [(.includePath, "IncludePath"),
    (.includes, b.stem machine ++ "_Includes.h"),
    (.variables, b.stem machine ++ "_Variables.h"),
    (.functions, b.stem machine ++ "_Methods.h")]

def stateStem (state : String) : String :=
  "State_" ++ state

def stateHeaderFile (state : String) : String :=
  stateStem state ++ ".h"

def stateImplementationFile (b : Binding) (state : String) : String :=
  stateStem state ++ b.implementationSuffix

/-- The file with the guard of a transition. -/
def guardFile (state : String) (index : Int) : String :=
  stateStem state ++ "_Transition_" ++ toString index ++ ".expr"

/-- The sections of a state that a bundle keeps, with their files. Actions have one suffix in all languages. -/
def stateSectionFiles (state : String) : List (Section × String) :=
  [(.includes, stateStem state ++ "_Includes.h"),
    (.variables, stateStem state ++ "_Variables.h"),
    (.functions, stateStem state ++ "_Methods.h"),
    (.onEntry, stateStem state ++ "_OnEntry.mm"),
    (.onExit, stateStem state ++ "_OnExit.mm"),
    (.internal, stateStem state ++ "_Internal.mm"),
    (.onSuspend, stateStem state ++ "_OnSuspend.mm"),
    (.onResume, stateStem state ++ "_OnResume.mm")]

/-! ## Records in sources -/

/-- Where a state header records the number of transitions. -/
def countPattern : Binding → Scan.Pattern
  | c => [.literal "NUMBER_OF_TRANSITIONS".toList, .someBlanks, .digits]
  | objectiveCpp =>
    [.literal "numberOfTransitions".toList, .restOfLine, .literal "return".toList, .blanks, .digits]

/-- Where a state header records the target of a transition. -/
def targetPattern (index : Int) : Binding → Scan.Pattern
  | c => [.literal ("TRANSITION_" ++ toString index ++ "_TARGET").toList, .someBlanks, .digits]
  | objectiveCpp =>
    [.literal ("Transition_" ++ toString index).toList, .wordEnd, .restOfLine, .literal "int".toList, .restOfLine,
      .literal "toState".toList, .blanks, .literal ['='], .blanks, .digits]

/-- Where the implementation of a machine records the suspend state. -/
def suspendPattern : Binding → Scan.Pattern
  | c =>
    [.literal "suspend_state".toList, .blanks, .literal ['='], .blanks, .literal "machine->states[".toList,
      .blanks, .digits, .blanks, .literal [']']]
  | objectiveCpp =>
    [.literal "setSuspendState(".toList, .blanks, .literal "_states[".toList, .blanks, .digits, .blanks,
      .literal [']']]

end Binding

end MachineBundle
