import MachineBundle.Datum.Shown

/-!
# Data as JSON

JSON in ASCII, on one line or with one entry a line.
-/

namespace MachineBundle.Json

/-- A code point beyond sixteen bits is written as its two surrogates. -/
def escapedUnits (n : Nat) : List Char :=
  if n < 0x10000 then '\\' :: 'u' :: Text.hexDigits 4 n
  else
    '\\' :: 'u' :: (Text.hexDigits 4 (0xD800 + (n - 0x10000) / 0x400) ++
      '\\' :: 'u' :: Text.hexDigits 4 (0xDC00 + (n - 0x10000) % 0x400))

def escapedChar (c : Char) : List Char :=
  if c = '"' || c = '\\' then ['\\', c]
  else if c = '\n' then ['\\', 'n']
  else if c = '\r' then ['\\', 'r']
  else if c = '\t' then ['\\', 't']
  else if c = '\x0c' then ['\\', 'f']
  else if c = '\x08' then ['\\', 'b']
  else if 0x20 ≤ c.toNat && c.toNat ≤ 0x7E then [c]
  else escapedUnits c.toNat

def string (s : String) : String :=
  String.ofList ('"' :: (s.toList.flatMap escapedChar ++ ['"']))

def number (x : Float) : String :=
  if x.isNaN then "NaN"
  else if x.isInf then (if x < 0.0 then "-Infinity" else "Infinity")
  else Number.floatText x

/-- A value without parts. Values that JSON does not know are written as text. -/
def scalar : Datum → String
  | .null => "null"
  | .bool b => if b then "true" else "false"
  | .int n => toString n
  | .float x => number x
  | d => string d.plain

/-- Keys are text; other scalars are put between quotes. -/
def key : Datum → String
  | .text s => string s
  | d => string (scalar d)

mutual
/-- A value on one line. -/
def line : Datum → String
  | .list items => "[" ++ ", ".intercalate (lineItems items) ++ "]"
  | .pair a b => "[" ++ line a ++ ", " ++ line b ++ "]"
  | .map entries => "\x7b" ++ ", ".intercalate (lineEntries entries) ++ "\x7d"
  | d => scalar d
def lineItems : List Datum → List String
  | [] => []
  | d :: r => line d :: lineItems r
def lineEntries : List (Datum × Datum) → List String
  | [] => []
  | (k, v) :: r => (key k ++ ": " ++ line v) :: lineEntries r
end

/-- The parts of a value, each on a line of its own, between two brackets. -/
def block (depth : Nat) (opening closing : String) (parts : List String) : String :=
  let margin (n : Nat) : String := "\n" ++ String.ofList (List.replicate (2 * n) ' ')
  match parts with
  | [] => opening ++ closing
  | _ => opening ++ margin (depth + 1) ++ ("," ++ margin (depth + 1)).intercalate parts ++ margin depth ++ closing

mutual
/-- A value over several lines, indented by two spaces a level. -/
def indented (depth : Nat) : Datum → String
  | .list items => block depth "[" "]" (indentedItems (depth + 1) items)
  | .pair a b => block depth "[" "]" [indented (depth + 1) a, indented (depth + 1) b]
  | .map entries => block depth "\x7b" "\x7d" (indentedEntries (depth + 1) entries)
  | d => scalar d
def indentedItems (depth : Nat) : List Datum → List String
  | [] => []
  | d :: r => indented depth d :: indentedItems depth r
def indentedEntries (depth : Nat) : List (Datum × Datum) → List String
  | [] => []
  | (k, v) :: r => (key k ++ ": " ++ indented depth v) :: indentedEntries depth r
end

end MachineBundle.Json
