/-!
# Base 64

Reading is lenient: characters outside the alphabet are passed over.
-/

namespace MachineBundle.Yaml

/-- The six bits of a character of the alphabet. -/
def sixBits? (c : Char) : Option Nat :=
  if 'A' ≤ c && c ≤ 'Z' then some (c.toNat - 65)
  else if 'a' ≤ c && c ≤ 'z' then some (c.toNat - 71)
  else if '0' ≤ c && c ≤ '9' then some (c.toNat + 4)
  else if c = '+' then some 62
  else if c = '/' then some 63
  else none

/-- Reads characters with `held` bits left over from the group begun, `place` characters into it, and after `pads`
signs of padding. The padding of a group ends the text. -/
def base64From (place held pads : Nat) : List Char → Option (List UInt8)
  | [] => if place = 0 then some [] else none
  | '=' :: r =>
    if 2 ≤ place && 4 ≤ place + (pads + 1) then some []
    else base64From place held (if 2 ≤ place then pads + 1 else pads) r
  | c :: r =>
    match sixBits? c with
    | none => base64From place held pads r
    | some b =>
      match place with
      | 0 => base64From 1 b 0 r
      | 1 => (base64From 2 (b % 16) 0 r).map ((4 * held + b / 16).toUInt8 :: ·)
      | 2 => (base64From 3 (b % 4) 0 r).map ((16 * held + b / 4).toUInt8 :: ·)
      | _ => (base64From 0 0 0 r).map ((64 * held + b).toUInt8 :: ·)

/-- The bytes that text spells in base 64. -/
def base64? (s : String) : Option (List UInt8) :=
  base64From 0 0 0 s.toList

end MachineBundle.Yaml
