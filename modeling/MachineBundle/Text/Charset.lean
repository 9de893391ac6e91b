import MachineBundle.Text.Quoted

/-!
# Writing text in a character set

Besides UTF-8, which takes every text, text is written in the two sets of one byte a character.
-/

namespace MachineBundle.Text

inductive Charset where
  | utf8
  | ascii
  | latin1
  deriving DecidableEq, Repr

def Charset.name : Charset → String
  | .utf8 => "utf-8"
  | .ascii => "ascii"
  | .latin1 => "latin-1"

/-- The number of characters that a set of one byte a character holds. -/
def Charset.size? : Charset → Option Nat
  | .utf8 => none
  | .ascii => some 128
  | .latin1 => some 256

/-- A run of `count` characters from `start` on, the first of them `char`, that a set of `size` lacks. -/
structure Unencodable where
  charset : Charset
  size : Nat
  start : Nat
  count : Nat
  char : Char
  deriving DecidableEq, Repr

/-- The first run of characters that lie outside a set of `size`. -/
def firstOutside (charset : Charset) (size i : Nat) : List Char → Option Unencodable
  | [] => none
  | c :: r =>
    if c.toNat < size then firstOutside charset size (i + 1) r
    else some ⟨charset, size, i, 1 + (r.takeWhile fun d => size ≤ d.toNat).length, c⟩

def Charset.encode (charset : Charset) (s : String) : Except Unencodable ByteArray :=
  match charset.size? with
  | none => .ok s.toUTF8
  | some size =>
    match firstOutside charset size 0 s.toList with
    | some u => .error u
    | none => .ok ⟨(s.toList.map fun c => c.toNat.toUInt8).toArray⟩

def Unencodable.message (u : Unencodable) : String :=
  let subject :=
    if u.count = 1 then
      "character '" ++ String.ofList (numericEscape u.char.toNat) ++ "' in position " ++ toString u.start
    else "characters in position " ++ toString u.start ++ "-" ++ toString (u.start + u.count - 1)
  "'" ++ u.charset.name ++ "' codec can't encode " ++ subject ++
    ": ordinal not in range(" ++ toString u.size ++ ")"

end MachineBundle.Text
