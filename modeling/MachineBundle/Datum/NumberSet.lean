import MachineBundle.Datum.Basic

/-!
# The order of sets of numbers

A set shows its members in the order of a table of slots. The slot of a number follows from its remainder by a prime;
where that slot is taken the next ones are tried, and then others further on.
-/

namespace MachineBundle.Datum

/-! ## Hashes -/

/-- A prime one below a power of two, so that division by two is a rotation. -/
def hashModulus : Nat := Nat.pow 2 61 - 1

/-- The hash of `m · 2 ^ e`. -/
def dyadicHash (m : Nat) (e : Int) : Nat :=
  m * Nat.pow 2 (Int.emod e 61).toNat % hashModulus

/-- A hash with its sign. The value `-1` is not in use. -/
def signedHash (isNegative : Bool) (h : Nat) : Int :=
  if isNegative then (if h = 1 then -2 else -h) else h

def infinityHash : Nat := 314159

def floatHash? (x : Float) : Option Int :=
  let bits := x.toBits.toNat
  let exponent := bits / 0x10000000000000 % 0x800
  let fraction := bits % 0x10000000000000
  let isNegative : Bool := bits / 0x8000000000000000 = 1
  if exponent = 2047 then if fraction = 0 then some (signedHash isNegative infinityHash) else none
  else
    let m := if exponent = 0 then fraction else fraction + 0x10000000000000
    let e : Int := (if exponent = 0 then 1 else exponent) - 1075
    some (signedHash isNegative (dyadicHash m e))

/-- The hash of a number. Numbers of the same value have the same hash. -/
def numberHash? : Datum → Option Int
  | .bool b => some (if b then 1 else 0)
  | .int n => some (signedHash (n < 0) (dyadicHash n.natAbs 0))
  | .float x => floatHash? x
  | _ => none

/-! ## Slots -/

/-- The number of slots for a number of members: a power of two, more than twice as many once there are five. -/
def slotCount (members : Nat) : Nat :=
  if members < 5 then 8 else max 8 (Nat.pow 2 (Nat.log2 (2 * members) + 1))

/-- The first free slot among `tries` slots from `i` on. -/
def freeSlot? (slots : Array (Option Datum)) (i : Nat) : Nat → Option Nat
  | 0 => none
  | tries + 1 => if (slots[i]?.getD none).isNone then some i else freeSlot? slots (i + 1) tries

/-- The slot that is free for a hash: runs of ten slots are searched, or single slots near the end of the table. -/
def slotFor (slots : Array (Option Datum)) : (fuel i rest : Nat) → Nat
  | 0, i, _ => i
  | n + 1, i, rest =>
    match freeSlot? slots i (if i + 9 < slots.size then 10 else 1) with
    | some j => j
    | none =>
      let rest := rest / 32
      slotFor slots n ((5 * i + 1 + rest) % slots.size) rest

/-- Puts a number with its hash into a slot. -/
def fillSlot (slots : Array (Option Datum)) (member : Int × Datum) : Array (Option Datum) :=
  let h := (Int.emod member.1 (Nat.pow 2 64)).toNat
  slots.setIfInBounds (slotFor slots (slots.size + 16) (h % slots.size) h) (some member.2)

/-- The members of a set in the order in which they are shown: other members than numbers stay where they are. -/
def inSetOrder (members : List Datum) : List Datum :=
  match members.mapM numberHash? with
  | none => members
  | some hashes =>
    let slots := (hashes.zip members).foldl fillSlot (Array.replicate (slotCount members.length) none)
    slots.toList.filterMap id

end MachineBundle.Datum
