import MachineBundle.Text.Hex

/-!
# Identifiers

States and transitions are told apart by identifiers of 128 bits. A supply hands out fresh ones.
-/

namespace MachineBundle

inductive Ident where
  | numbered (value : Nat)
  /-- What stands where no identifier is given. -/
  | absent
  deriving DecidableEq, Repr, Inhabited

namespace Ident

/-- Thirty-two hexadecimal digits in groups of 8, 4, 4, 4 and 12. -/
def text : Ident → String
  | numbered value =>
    let digits := Text.hexDigits 32 value
    let group (start length : Nat) : String := String.ofList ((digits.drop start).take length)
    "-".intercalate [group 0 8, group 8 4, group 12 4, group 16 4, group 20 12]
  | absent => "None"

/-- The identifier itself, if one is given. -/
def given? : Ident → Option Ident
  | absent => none
  | i => some i

/-- The `k`-th identifier that a supply hands out. -/
def generated (k : Nat) : Ident :=
  .numbered ((0xA0000000 + k) * 0x1000000000000000000000000 + k)

theorem generated_injective {j k : Nat} (h : generated j = generated k) : j = k := by
  simp only [generated, Ident.numbered.injEq] at h
  omega

end Ident

/-- A source of fresh identifiers, known by how many it has handed out. -/
structure Supply where
  drawn : Nat
  deriving DecidableEq, Repr

namespace Supply

def start : Supply := ⟨0⟩

/-- The next identifier, and the supply after it. -/
def draw (s : Supply) : Ident × Supply :=
  (.generated (s.drawn + 1), ⟨s.drawn + 1⟩)

end Supply

end MachineBundle
