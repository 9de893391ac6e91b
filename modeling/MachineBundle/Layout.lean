import MachineBundle.Fault
import MachineBundle.Number.Floating

/-!
# Layout of states

States without a place of their own are laid out on a grid of eight columns.
-/

namespace MachineBundle

/-- The centre and the size of a shape. -/
structure Box where
  x : Float
  y : Float
  width : Float
  height : Float
  deriving DecidableEq, Repr

/-- The shapes of a state when it is closed and when it is open for editing. -/
structure StateLayout where
  closed : Box
  opened : Box
  isOpen : Bool
  deriving DecidableEq, Repr

namespace StateLayout

def columns : Int := 8

/-- The place of the state at `index`, row by row. -/
def grid (index : Int) (width height openWidth openHeight : Float) : StateLayout :=
  let x := width + openWidth * Number.ofInt (Int.fmod index columns)
  let y := height + openHeight * Number.ofInt (Int.fdiv index columns)
  ⟨⟨x, y, width, height⟩, ⟨x, y, openWidth, openHeight⟩, false⟩

/-- Refuses an index whose row is beyond the range of floats. -/
def checkIndex (index : Int) : Except Fault Unit :=
  if Number.floatLimit ≤ (Int.fdiv index columns).natAbs then
    .error (.beyondRange "int too large to convert to float")
  else .ok ()

/-- The place of the state at `index` with shapes of the usual size. -/
def usual (index : Int) : StateLayout :=
  grid index 100.0 50.0 200.0 100.0

def shape (l : StateLayout) : Box :=
  if l.isOpen then l.opened else l.closed

end StateLayout

end MachineBundle
