import MachineBundle.Scan.Pattern
import MachineBundle.Text.Utf8
import MachineBundle.Yaml.Scalar
import MachineBundle.Yaml.Token

/-!
# Names, tags and directives

The tokens that begin with a mark and consist of a few words on one line.
-/

namespace MachineBundle.Yaml

/-- Characters of tags besides digits and letters. -/
def isTagMark (c : Char) : Bool :=
  "-;/?:@&=+$,_.!~*'()[]%".toList.contains c

def isTagChar (c : Char) : Bool :=
  c.isAlphanum || isTagMark c

/-- The bytes of a run of percent escapes, and what follows it. -/
def percentBytes : List Char → Except Problem (List UInt8 × List Char)
  | '%' :: a :: b :: r =>
    match Text.hexValue? a, Text.hexValue? b with
    | some x, some y => do
      let (bytes, rest) ← percentBytes r
      return ((16 * x + y).toUInt8 :: bytes, rest)
    | _, _ => .error .malformed
  | '%' :: _ => .error .malformed
  | r => .ok ([], r)

/-- The text that a tag spells: runs of percent escapes stand for the characters that they encode. -/
def unescaped : Nat → List Char → Except Problem (List Char)
  | 0, _ => .ok []
  | _ + 1, [] => .ok []
  | n + 1, '%' :: r => do
    let (bytes, rest) ← percentBytes ('%' :: r)
    match Text.decode ⟨bytes.toArray⟩ with
    | .ok s => return s.toList ++ (← unescaped n rest)
    | .error _ => throw .malformed
  | n + 1, c :: r => do return c :: (← unescaped n r)

/-- Reads the characters of a tag, of which there has to be one. -/
def readTagText (cur : Cursor) : Except Problem (String × Cursor) := do
  let (raw, cur) := cur.passWhile isTagChar
  if raw.isEmpty then throw cur.refusal
  return (String.ofList (← unescaped raw.length raw), cur)

/-- Reads a handle: one mark, two marks, or a name between two. -/
def readHandle (cur : Cursor) : Except Problem (String × Cursor) :=
  if cur.head? ≠ some '!' then .error cur.refusal
  else if cur.peek 1 = some ' ' then .ok ("!", cur.forward 1)
  else
    let name := (cur.rest.drop 1).takeWhile isNameChar
    if cur.peek (name.length + 1) = some '!' then
      .ok ("!" ++ String.ofList name ++ "!", cur.forward (name.length + 2))
    else .error (cur.forward (name.length + 1)).refusal

/-- Reads a tag from its mark on. -/
def readTag (cur : Cursor) : Except Problem (Token × Cursor) := do
  let (token, cur) ← show Except Problem (Token × Cursor) from
    if cur.peek 1 = some '<' then do
      let (text, cur) ← readTagText (cur.forward 2)
      if cur.head? = some '>' then return (.tag none text, cur.forward 1) else throw cur.refusal
    else if endsWord (cur.peek 1) then return (.tag none "!", cur.forward 1)
    else do
      let word := (cur.rest.drop 1).takeWhile fun c => !isSpaceOrBreak c
      let (handle, cur) ← if word.contains '!' then readHandle cur else .ok ("!", cur.forward 1)
      let (suffix, cur) ← readTagText cur
      return (.tag (some handle) suffix, cur)
  if endsField cur.head? then return (token, cur) else throw .malformed

/-- Whether a character may follow the name of an anchor. -/
def endsName (c : Option Char) : Bool :=
  endsWord c || c.any fun c => "?:,]\x7d%@`".toList.contains c

/-- Reads the name of an anchor or an alias from its mark on. -/
def readName (cur : Cursor) : Except Problem (String × Cursor) :=
  let (name, cur) := (cur.forward 1).passWhile isNameChar
  if name.isEmpty || !endsName cur.head? then .error cur.refusal else .ok (String.ofList name, cur)

/-! ## Directives -/

def readNumber (cur : Cursor) : Except Problem (Nat × Cursor) :=
  let (digits, cur) := cur.passWhile Char.isDigit
  if digits.isEmpty then .error cur.refusal
  else if Scan.digitLimit < digits.length then .error (.tooLong digits.length)
  else .ok (Scan.numberOf digits, cur)

/-- Reads the version after the name of its directive. -/
def readVersion (cur : Cursor) : Except Problem (Directive × Cursor) := do
  let (major, cur) ← readNumber cur.skipSpaces
  if cur.head? ≠ some '.' then throw cur.refusal
  let (minor, cur) ← readNumber (cur.forward 1)
  if endsField cur.head? then return (.version major minor, cur) else throw .malformed

/-- Reads a handle and what it stands for. -/
def readTagDirective (cur : Cursor) : Except Problem (Directive × Cursor) := do
  let (handle, cur) ← readHandle cur.skipSpaces
  if cur.head? ≠ some ' ' then throw cur.refusal
  let (expansion, cur) ← readTagText cur.skipSpaces
  if endsField cur.head? then return (.tag handle expansion, cur) else throw .malformed

/-- Reads a directive from its mark on, with its line. Unknown ones are passed over. -/
def readDirective (cur : Cursor) : Except Problem (Token × Cursor) := do
  let (name, cur) := (cur.forward 1).passWhile isNameChar
  if name.isEmpty || !endsField cur.head? then throw cur.refusal
  let (d, cur) ←
    if name = "YAML".toList then readVersion cur
    else if name = "TAG".toList then readTagDirective cur
    else .ok (.unknown, cur.skipWhile fun c => !isBreak c)
  return (.directive d, ← cur.endLine)

end MachineBundle.Yaml
