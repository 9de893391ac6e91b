import MachineBundle.Table
import MachineBundle.Text.Blank

/-!
# Sections of hand-written code

A machine and each of its states carry fragments of code, one per section.
-/

namespace MachineBundle

inductive Section where
  | includePath
  | includes
  | variables
  | functions
  | onEntry
  | onExit
  | internal
  | onSuspend
  | onResume
  deriving DecidableEq, Repr

namespace Section

def all : List Section :=
  [.includePath, .includes, .variables, .functions, .onEntry, .onExit, .internal, .onSuspend, .onResume]

def name : Section → String
  | .includePath => "includePath"
  | .includes => "includes"
  | .variables => "variables"
  | .functions => "functions"
  | .onEntry => "onEntry"
  | .onExit => "onExit"
  | .internal => "internal"
  | .onSuspend => "onSuspend"
  | .onResume => "onResume"

def ofName? (name : String) : Option Section :=
  all.find? (·.name = name)

end Section

/-- Code by section, in the order in which sections were first set. -/
structure Boilerplate where
  sections : Table Section String
  deriving DecidableEq, Repr

namespace Boilerplate

/-- Every section is there and empty. -/
def blank : Boilerplate :=
  ⟨Section.all.map fun s => (s, "")⟩

def ofEntries (entries : List (Section × String)) : Boilerplate :=
  ⟨Table.ofEntries entries⟩

/-- The code of a section; a section that is not there is empty. -/
def get (b : Boilerplate) (s : Section) : String :=
  (b.sections.get? s).getD ""

def set (s : Section) (code : String) (b : Boilerplate) : Boilerplate :=
  ⟨b.sections.set s code⟩

/-- No section holds more than blanks. -/
def isEmpty (b : Boilerplate) : Bool :=
  b.sections.all fun (_, code) => Text.isBlankText code

end Boilerplate

end MachineBundle
