import MachineBundle.Graph.Basic

/-!
# Outlines

A machine of which only the sequence of states is known, and possibly a suspend state.
-/

namespace MachineBundle

/-- A sequence of states; `suspension` is there for machines that can be suspended at all. -/
structure Outline where
  states : List Ident
  suspension : Option (Option Ident)
  deriving DecidableEq, Repr

namespace Outline

def initial? (o : Outline) : Option Ident :=
  o.states.head?

def setInitial (id : Ident) (o : Outline) : Outline :=
  { o with states := replaceInitial id o.states }

/-- No transition is known. -/
def transitionsFrom (_ : Outline) (_ : Ident) : List Ident :=
  []

def describeState (_ : Outline) (id : Ident) : String :=
  id.text

def describeSuspension (suspend : Option Ident) : String :=
  (suspend.map Ident.text).getD absentState

/-- A line for each state, and one for the suspend state if there can be one. -/
def description (o : Outline) : String :=
  "\n".intercalate (o.states.map o.describeState ++ (o.suspension.map describeSuspension).toList)

end Outline

end MachineBundle
