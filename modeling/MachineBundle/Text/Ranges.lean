/-!
# Ranges of code points
-/

namespace MachineBundle.Text

/-- Membership in one of the closed ranges. -/
def inRanges (ranges : List (Nat × Nat)) (c : Char) : Bool :=
  ranges.any fun (lo, hi) => lo ≤ c.toNat && c.toNat ≤ hi

end MachineBundle.Text
