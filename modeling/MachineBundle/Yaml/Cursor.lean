import MachineBundle.Yaml.Source

/-!
# Places in a document

A cursor stands in the text of a document and knows its line and its column there. The classes of characters that
end words and lines are stated here as well.
-/

namespace MachineBundle.Yaml

/-! ## Characters -/

def isBreak (c : Char) : Bool :=
  c = '\n' || c = '\x85' || c = '\u2028' || c = '\u2029'

def isSpaceOrBreak (c : Char) : Bool :=
  c = ' ' || isBreak c

/-- Spaces, tabs and breaks end a word, as does the end of the document. -/
def endsWord : Option Char → Bool
  | none => true
  | some c => c = '\t' || isSpaceOrBreak c

/-- Like `endsWord`, but a tab does not count. -/
def endsField : Option Char → Bool
  | none => true
  | some c => isSpaceOrBreak c

def endsLine : Option Char → Bool
  | none => true
  | some c => isBreak c

/-- The characters of names: digits and letters of ASCII, and two marks. -/
def isNameChar (c : Char) : Bool :=
  c.isAlphanum || c = '-' || c = '_'

/-! ## Cursors -/

structure Cursor where
  rest : List Char
  /-- How many characters there are in all, and how many have been passed. -/
  size : Nat
  index : Nat
  line : Nat
  column : Nat
  deriving Repr

namespace Cursor

def start (text : List Char) : Cursor := ⟨text, text.length, 0, 0, 0⟩

/-- How many characters are left. -/
def left (cur : Cursor) : Nat :=
  cur.size - cur.index

/-- Why something that has to stand here does not: something else does, or nothing at all. -/
def refusal (cur : Cursor) : Problem :=
  if cur.rest.isEmpty then .unfinished else .malformed

def peek (cur : Cursor) (n : Nat) : Option Char :=
  cur.rest[n]?

def head? (cur : Cursor) : Option Char :=
  cur.rest.head?

/-- Counts a character that is passed. A byte order mark takes no column. -/
def count (cur : Cursor) (c : Char) : Cursor :=
  if isBreak c then { cur with index := cur.index + 1, line := cur.line + 1, column := 0 }
  else if c = '\uFEFF' then { cur with index := cur.index + 1 }
  else { cur with index := cur.index + 1, column := cur.column + 1 }

def forward (n : Nat) (cur : Cursor) : Cursor :=
  (cur.rest.take n).foldl count { cur with rest := cur.rest.drop n }

/-- Passes characters of a class and returns them. -/
def passWhile (p : Char → Bool) (cur : Cursor) : List Char × Cursor :=
  let passed := cur.rest.takeWhile p
  (passed, cur.forward passed.length)

def skipWhile (p : Char → Bool) (cur : Cursor) : Cursor :=
  (cur.passWhile p).2

def skipSpaces (cur : Cursor) : Cursor :=
  cur.skipWhile (· = ' ')

/-- Passes a break, if there is one. The breaks of ASCII and Latin-1 all mean a line feed. -/
def passBreak (cur : Cursor) : Option Char × Cursor :=
  match cur.head? with
  | some c =>
    if c = '\n' || c = '\x85' then (some '\n', cur.forward 1)
    else if c = '\u2028' || c = '\u2029' then (some c, cur.forward 1)
    else (none, cur)
  | none => (none, cur)

/-- Passes a comment, if there is one. -/
def skipComment (cur : Cursor) : Cursor :=
  if cur.head? = some '#' then cur.skipWhile fun c => !isBreak c else cur

/-- Whether three dots or three dashes stand here as a word. -/
def atMarker (cur : Cursor) : Bool :=
  let word := cur.rest.take 3
  (word = ['-', '-', '-'] || word = ['.', '.', '.']) && endsWord (cur.peek 3)

/-- Passes blanks, perhaps a comment, and the end of the line; nothing else may stand there. -/
def endLine (cur : Cursor) : Except Problem Cursor :=
  let cur := cur.skipSpaces.skipComment
  if endsLine cur.head? then .ok cur.passBreak.2 else .error .malformed

end Cursor

end MachineBundle.Yaml
