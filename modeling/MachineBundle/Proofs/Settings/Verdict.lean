import MachineBundle.Proofs.Bundle.Faults
import MachineBundle.Settings

/-!
# Settings that are valid or reported

Settings come out valid, or with a report that names the setting that is not. What stands in a file can prevent this
before anything is checked: bytes that are no text, a value that is no mapping or no path where one is needed, an integer
that is too long to be shown. And a folder can have a path that is too long to be looked at.
-/

namespace MachineBundle

namespace Tree

variable {t : Tree} {p : Path}

end Tree

namespace Settings

variable {ν : Type} {view : View ν} {mapping : ν} {key : String} {t : Tree} {s : Settings}

end Settings

end MachineBundle
