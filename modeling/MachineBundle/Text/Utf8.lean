import MachineBundle.Text.Hex

/-!
# Reading bytes as UTF-8

Reading is strict. Bytes that are no UTF-8 are refused with the place and the nature of the first fault.
-/

namespace MachineBundle.Text

inductive MalformedReason where
  | invalidStart
  | invalidContinuation
  | unexpectedEnd
  deriving DecidableEq, Repr, Inhabited

def MalformedReason.message : MalformedReason → String
  | .invalidStart => "invalid start byte"
  | .invalidContinuation => "invalid continuation byte"
  | .unexpectedEnd => "unexpected end of data"

/-- The first fault of a byte sequence: the bytes from `start` up to `stop`, the first of them `byte`. -/
structure Malformed where
  start : Nat
  stop : Nat
  byte : UInt8
  reason : MalformedReason
  deriving DecidableEq, Repr, Inhabited

/-- The ranges that the bytes after a start byte have to lie in; `none` if no character starts with it. -/
def continuations? (b : UInt8) : Option (List (UInt8 × UInt8)) :=
  if b < 0x80 then some []
  else if b < 0xC2 then none
  else if b < 0xE0 then some [(0x80, 0xBF)]
  else if b = 0xE0 then some [(0xA0, 0xBF), (0x80, 0xBF)]
  else if b = 0xED then some [(0x80, 0x9F), (0x80, 0xBF)]
  else if b < 0xF0 then some [(0x80, 0xBF), (0x80, 0xBF)]
  else if b = 0xF0 then some [(0x90, 0xBF), (0x80, 0xBF), (0x80, 0xBF)]
  else if b < 0xF4 then some [(0x80, 0xBF), (0x80, 0xBF), (0x80, 0xBF)]
  else if b = 0xF4 then some [(0x80, 0x8F), (0x80, 0xBF), (0x80, 0xBF)]
  else none

/-- The first fault at or after the offset `i`, inside the character that began at `start` with `byte` and still
needs continuations in the ranges `due`. The default stands for a sequence without a fault. -/
def firstFault (start : Nat) (byte : UInt8) (due : List (UInt8 × UInt8)) (i : Nat) : List UInt8 → Malformed
  | [] => ⟨start, i, byte, .unexpectedEnd⟩
  | b :: r =>
    match due with
    | (lo, hi) :: rest =>
      if lo ≤ b && b ≤ hi then firstFault start byte rest (i + 1) r
      else ⟨start, i, byte, .invalidContinuation⟩
    | [] =>
      match continuations? b with
      | some ranges => firstFault i b ranges (i + 1) r
      | none => ⟨i, i + 1, b, .invalidStart⟩

/-- The text that the bytes spell in UTF-8. -/
def decode (bytes : ByteArray) : Except Malformed String :=
  match String.fromUTF8? bytes with
  | some s => .ok s
  | none => .error (firstFault 0 0 [] 0 bytes.toList)

def encode (s : String) : ByteArray :=
  s.toUTF8

/-- One byte is named by its value, several by their place alone. -/
def Malformed.message (m : Malformed) : String :=
  let subject :=
    if m.stop = m.start + 1 then
      "byte 0x" ++ String.ofList (hexDigits 2 m.byte.toNat) ++ " in position " ++ toString m.start
    else "bytes in position " ++ toString m.start ++ "-" ++ toString (m.stop - 1)
  "'utf-8' codec can't decode " ++ subject ++ ": " ++ m.reason.message

theorem decode_encode (s : String) : decode (encode s) = .ok s := by
  simp [decode, encode, String.fromUTF8?, String.toUTF8, String.fromUTF8, s.isValidUTF8]

end MachineBundle.Text
