import MachineBundle.Proofs.Arrangement.Resolved
import MachineBundle.Proofs.Arrangement.Stopped
import MachineBundle.Proofs.Atomic.Single
import MachineBundle.Proofs.CommandLine.Converted

/-!
# Faults that are not reported

Conversions report what cannot be read or written, but not what is read and cannot be used. So they are stopped by the
first bundle that has something of this kind in it. Saving a manifest reports a write that fails, but not a directory
that cannot be made.
-/

namespace MachineBundle

open Action Bundle Reading

/-! ## Kinds of faults -/

namespace Fault

end Fault

namespace CommandLine

/-! ## Converting machines -/

namespace Conversion

variable {c : Conversion} {s : Settings} {t : Tree} {bundle : Path} {trail : Trail}

/-! ### Reading -/

/-- The first of some bundles that is not loaded has something in it that cannot be used. -/
def Blocked (s : Settings) (t : Tree) (found : List Path) : Prop :=
  Stops (fun bundle => ∃ b, givenBinding s t bundle = .ok b ∧ IsLoadable t bundle b)
    (fun bundle => ∃ b, givenBinding s t bundle = .ok b ∧ IsIllegible t bundle b) found

end Conversion

end CommandLine

/-! ## Converting arrangements -/

namespace Arrangement

variable {o : Export.Options} {directory destination : Path} {scene : Scene}

end Arrangement

/-! ## Writing manifests -/

namespace Arrangement

variable {directory : Path} {names : List String} {scene : Scene}

end Arrangement

end MachineBundle
