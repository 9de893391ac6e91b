import MachineBundle.Text.Hex
import MachineBundle.Yaml.Cursor

/-!
# Scalars

The five spellings of scalars. Loops are bounded by the length of the text that is left: each round passes a
character.
-/

namespace MachineBundle.Yaml

/-- A scalar that has been read, and the cursor after it. -/
structure Read where
  text : List Char
  cursor : Cursor

/-! ## Breaks inside scalars -/

/-- What a break and the breaks after it come to: single line feeds are folded into a space. -/
def folded (first : Char) (more : List Char) : List Char :=
  if first ≠ '\n' then first :: more
  else if more.isEmpty then [' ']
  else more

/-! ## Plain scalars -/

def isFlowMark (c : Char) : Bool :=
  c = ',' || c = '[' || c = ']' || c = '\x7b' || c = '\x7d'

/-- Whether a colon with this character after it separates a key from its value. -/
def isSeparator (inFlow : Bool) (next : Option Char) : Bool :=
  endsWord next || (inFlow && next.any isFlowMark)

/-- The longest piece of a plain scalar without blanks. -/
def plainPiece (inFlow : Bool) : List Char → List Char
  | [] => []
  | c :: r =>
    if endsWord (some c) || (c = ':' && isSeparator inFlow r.head?) || (inFlow && (isFlowMark c || c = '?')) then []
    else c :: plainPiece inFlow r

/-- The breaks after the first one in a plain scalar; nothing if the document ends there. -/
def plainBreaks : Nat → Cursor → Option (List Char) × Cursor
  | 0, cur => (some [], cur)
  | n + 1, cur =>
    if cur.head? = some ' ' then plainBreaks n (cur.forward 1)
    else
      match cur.passBreak with
      | (none, cur) => (some [], cur)
      | (some b, cur) =>
        if cur.atMarker then (none, cur)
        else
          let (more, cur) := plainBreaks n cur
          (more.map (b :: ·), cur)

/-- The blanks after a piece of a plain scalar: what they come to, whether they hold a break, and the cursor after
them. Nothing comes of them where the scalar has to end. -/
def plainBlanks (cur : Cursor) : List Char × Bool × Cursor :=
  let (spaces, cur) := cur.passWhile (· = ' ')
  match cur.passBreak with
  | (none, cur) => (spaces, false, cur)
  | (some b, cur) =>
    if cur.atMarker then ([], true, cur)
    else
      let (more, cur) := plainBreaks cur.left cur
      ((more.map (folded b)).getD [], true, cur)

/-- Reads the pieces of a plain scalar. `blanks` stand before the next piece; `broken` tells whether they hold a
break. -/
def plainPieces (inFlow : Bool) (indent : Int) : Nat → (blanks : List Char) → (broken : Bool) → Cursor → Read × Bool
  | 0, _, broken, cur => (⟨[], cur⟩, broken)
  | n + 1, blanks, broken, cur =>
    let piece := if cur.head? = some '#' then [] else plainPiece inFlow cur.rest
    if piece.isEmpty then (⟨[], cur⟩, broken)
    else
      let (next, broken, cur) := plainBlanks (cur.forward piece.length)
      if next.isEmpty || cur.head? = some '#' || (!inFlow && (cur.column : Int) < indent) then
        (⟨blanks ++ piece, cur⟩, broken)
      else
        let (r, broken) := plainPieces inFlow indent n next broken cur
        (⟨blanks ++ piece ++ r.text, r.cursor⟩, broken)

/-- Reads a plain scalar, and tells whether it ends at the beginning of a line. -/
def readPlain (inFlow : Bool) (indent : Int) (cur : Cursor) : Read × Bool :=
  plainPieces inFlow indent (cur.left + 1) [] false cur

/-! ## Quoted scalars -/

/-- The breaks between two lines of a quoted scalar. -/
def quotedBreaks : Nat → Cursor → Except Problem (List Char × Cursor)
  | 0, cur => .ok ([], cur)
  | n + 1, cur =>
    if cur.atMarker then .error .malformed
    else
      match (cur.skipWhile fun c => c = ' ' || c = '\t').passBreak with
      | (none, cur) => .ok ([], cur)
      | (some b, cur) => do
        let (more, cur) ← quotedBreaks n cur
        return (b :: more, cur)

/-- The blanks inside a quoted scalar: as they are within a line, folded around breaks. -/
def quotedBlanks (cur : Cursor) : Except Problem (List Char × Cursor) := do
  let (spaces, cur) := cur.passWhile fun c => c = ' ' || c = '\t'
  if cur.head? = none then throw .unfinished
  match cur.passBreak with
  | (none, cur) => return (spaces, cur)
  | (some b, cur) =>
    let (more, cur) ← quotedBreaks (cur.left + 1) cur
    return (folded b more, cur)

/-- The characters that one letter after a backslash stands for. -/
def escape? : Char → Option Char
  | '0' => some '\x00'
  | 'a' => some '\x07'
  | 'b' => some '\x08'
  | 't' => some '\t'
  | '\t' => some '\t'
  | 'n' => some '\n'
  | 'v' => some '\x0b'
  | 'f' => some '\x0c'
  | 'r' => some '\r'
  | 'e' => some '\x1b'
  | ' ' => some ' '
  | '"' => some '"'
  | '\\' => some '\\'
  | '/' => some '/'
  | 'N' => some '\x85'
  | '_' => some '\xa0'
  | 'L' => some '\u2028'
  | 'P' => some '\u2029'
  | _ => none

/-- The number of digits of a numeric escape. -/
def escapeWidth? : Char → Option Nat
  | 'x' => some 2
  | 'u' => some 4
  | 'U' => some 8
  | _ => none

/-- The number that exactly these hexadecimal digits spell. -/
def hexNumber? (digits : List Char) : Option Nat :=
  digits.foldl (fun n c => do return 16 * (← n) + (← Text.hexValue? c)) (some 0)

/-- The character with a number, which has to be one of Unicode. -/
def numbered (n : Nat) : Except Problem Char :=
  if n < 0x110000 then .ok (Char.ofNat n)
  else if n < 0x80000000 then .error (.badScalar "chr() arg not in range(0x110000)")
  else .error (.beyondRange "Python int too large to convert to C int")

/-- Reads the digits of a numeric escape and passes them. -/
def readNumbered (width : Nat) (cur : Cursor) : Except Problem (List Char × Cursor) :=
  let digits := cur.rest.take width
  match hexNumber? digits with
  | none => .error .malformed
  | some n => do
    if digits.length < width then throw .unfinished
    return ([← numbered n], cur.forward width)

/-- Reads an escape, from the character after the backslash on. -/
def readEscape (cur : Cursor) : Except Problem (List Char × Cursor) :=
  match cur.head? with
  | none => .error .unfinished
  | some c =>
    match escape? c, escapeWidth? c with
    | some d, _ => .ok ([d], cur.forward 1)
    | none, some width => readNumbered width (cur.forward 1)
    | none, none =>
      if isBreak c then quotedBreaks (cur.left + 1) (cur.forward 1) else .error .malformed

/-- Characters of a quoted scalar that stand for themselves. -/
def isLiteral (c : Char) : Bool :=
  !(c = '\'' || c = '"' || c = '\\' || c = '\t' || isSpaceOrBreak c)

/-- Reads a quoted scalar from the character after its opening quote on. -/
def quotedPieces (quote : Char) : Nat → Cursor → Except Problem Read
  | 0, _ => .error .malformed
  | n + 1, cur =>
    let (piece, cur) := cur.passWhile isLiteral
    let go (text : List Char) (cur : Cursor) : Except Problem Read := do
      let r ← quotedPieces quote n cur
      return ⟨piece ++ text ++ r.text, r.cursor⟩
    match cur.head? with
    | none => .error .unfinished
    | some c =>
      if c = quote then
        if quote = '\'' && cur.peek 1 = some '\'' then go ['\''] (cur.forward 2)
        else .ok ⟨piece, cur.forward 1⟩
      else if c = '"' || c = '\'' then go [c] (cur.forward 1)
      else if c = '\\' then
        if quote = '"' then do
          let (text, cur) ← readEscape (cur.forward 1)
          go text cur
        else go [c] (cur.forward 1)
      else do
        let (text, cur) ← quotedBlanks cur
        go text cur

/-- Reads a quoted scalar from its opening quote on. -/
def readQuoted (quote : Char) (cur : Cursor) : Except Problem Read :=
  quotedPieces quote (cur.left + 1) (cur.forward 1)

/-! ## Block scalars -/

/-- What happens to the breaks at the end of a block scalar. -/
inductive Chomping where
  | strip
  | clip
  | keep
  deriving DecidableEq, Repr

def chomping? : Option Char → Option Chomping
  | some '+' => some .keep
  | some '-' => some .strip
  | _ => none

def indentation? : Option Char → Option Nat
  | some c => if c.isDigit then some (c.toNat - 48) else none
  | none => none

/-- The marks after the sign of a block scalar, in either order. -/
def blockHeader (cur : Cursor) : Except Problem (Chomping × Option Nat × Cursor) := do
  let (chomping, step, cur) := match chomping? cur.head?, indentation? cur.head? with
    | some c, _ =>
      match indentation? (cur.peek 1) with
      | some i => (c, some i, cur.forward 2)
      | none => (c, none, cur.forward 1)
    | none, some i =>
      match chomping? (cur.peek 1) with
      | some c => (c, some i, cur.forward 2)
      | none => (.clip, some i, cur.forward 1)
    | none, none => (.clip, none, cur)
  if step = some 0 then throw .malformed
  if endsField cur.head? then return (chomping, step, cur) else throw .malformed

/-- The empty lines before a block scalar, and the greatest column of a space among them. -/
def leadingLines : Nat → Nat → Cursor → List Char × Nat × Cursor
  | 0, widest, cur => ([], widest, cur)
  | n + 1, widest, cur =>
    if cur.head? = some ' ' then
      let cur := cur.forward 1
      leadingLines n (max widest cur.column) cur
    else
      match cur.passBreak with
      | (none, cur) => ([], widest, cur)
      | (some b, cur) =>
        let (more, widest, cur) := leadingLines n widest cur
        (b :: more, widest, cur)

/-- Passes spaces up to a column. -/
def indentTo (indent : Nat) (cur : Cursor) : Cursor :=
  cur.forward ((cur.rest.takeWhile (· = ' ')).take (indent - cur.column)).length

/-- The breaks between two lines of a block scalar. -/
def blockBreaks (indent : Nat) : Nat → Cursor → List Char × Cursor
  | 0, cur => ([], cur)
  | n + 1, cur =>
    match (indentTo indent cur).passBreak with
    | (none, cur) => ([], cur)
    | (some b, cur) =>
      let (more, cur) := blockBreaks indent n cur
      (b :: more, cur)

/-- What stands between two lines of a block scalar: the break, or a space in its place, and further breaks. -/
def between (isFolded spaced : Bool) (lineBreak : Option Char) (breaks : List Char) : List Char :=
  if isFolded && lineBreak = some '\n' && !spaced then
    if breaks.isEmpty then [' '] else breaks
  else lineBreak.toList ++ breaks

def isSpaced : Option Char → Bool
  | some ' ' | some '\t' => true
  | _ => false

/-- Reads the lines of a block scalar. -/
def blockLines (isFolded : Bool) (chomping : Chomping) (indent : Nat) : Nat → Cursor → Read
  | 0, cur => ⟨[], cur⟩
  | n + 1, cur =>
    let spaced := isSpaced cur.head?
    let (line, cur) := cur.passWhile fun c => !isBreak c
    let (lineBreak, cur) := cur.passBreak
    let (breaks, cur) := blockBreaks indent (cur.left + 1) cur
    if cur.column = indent && cur.head?.isSome then
      let r := blockLines isFolded chomping indent n cur
      ⟨line ++ between isFolded (spaced || isSpaced cur.head?) lineBreak breaks ++ r.text, r.cursor⟩
    else
      let tail := match chomping with
        | .strip => []
        | .clip => lineBreak.toList
        | .keep => lineBreak.toList ++ breaks
      ⟨line ++ tail, cur⟩

/-- Reads a block scalar from its sign on; `outer` is the column of the block around it. -/
def readBlock (isFolded : Bool) (outer : Int) (cur : Cursor) : Except Problem Read := do
  let (chomping, step, cur) ← blockHeader (cur.forward 1)
  let cur ← cur.endLine
  let least := (max (outer + 1) 1).toNat
  let (breaks, indent, cur) := match step with
    | none =>
      let (breaks, widest, cur) := leadingLines (cur.left + 1) 0 cur
      (breaks, max least widest, cur)
    | some step =>
      let indent := least + step - 1
      let (breaks, cur) := blockBreaks indent (cur.left + 1) cur
      (breaks, indent, cur)
  if cur.column = indent && cur.head?.isSome then
    let r := blockLines isFolded chomping indent (cur.left + 1) cur
    return ⟨breaks ++ r.text, r.cursor⟩
  else return ⟨if chomping = .keep then breaks else [], cur⟩

end MachineBundle.Yaml
