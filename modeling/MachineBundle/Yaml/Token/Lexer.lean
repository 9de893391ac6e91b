import MachineBundle.Yaml.Tag

/-!
# From text to tokens

Blocks are told by their indentation and keys by the colon after them. A token that may turn out to be a key is
remembered by its place, so that the marks of the key can still be put in front of it.
-/

namespace MachineBundle.Yaml

/-- A place where a key may have begun. -/
structure PossibleKey where
  /-- The number of tokens before it. -/
  place : Nat
  /-- Whether nothing but a key can stand there. -/
  isRequired : Bool
  index : Nat
  line : Nat
  column : Nat

structure Lexer where
  cursor : Cursor
  /-- The tokens so far, the last one first, and how many there are. -/
  tokens : List Token
  count : Nat
  /-- How many flow collections are open. -/
  flowLevel : Nat
  /-- The column of the innermost block, and those of the blocks around it. -/
  indent : Int
  outer : List Int
  keyAllowed : Bool
  /-- The possible key of each flow level. -/
  keys : List (Nat × PossibleKey)

namespace Lexer

def start (text : List Char) : Lexer :=
  ⟨.start text, [], 0, 0, -1, [], true, []⟩

def inFlow (s : Lexer) : Bool :=
  0 < s.flowLevel

def emit (t : Token) (s : Lexer) : Lexer :=
  { s with tokens := t :: s.tokens, count := s.count + 1 }

/-- Puts a token in front of those from `place` on. -/
def insertAt (place : Nat) (t : Token) (s : Lexer) : Lexer :=
  let later := s.count - place
  { s with tokens := s.tokens.take later ++ t :: s.tokens.drop later, count := s.count + 1 }

def forward (n : Nat) (s : Lexer) : Lexer :=
  { s with cursor := s.cursor.forward n }

/-! ## Blanks and blocks -/

/-- Passes blanks, comments and breaks. A break outside of flow collections allows a key. -/
def skipBlanks : Nat → Lexer → Lexer
  | 0, s => s
  | n + 1, s =>
    match s.cursor.skipSpaces.skipComment.passBreak with
    | (none, cursor) => { s with cursor }
    | (some _, cursor) => skipBlanks n { s with cursor, keyAllowed := s.keyAllowed || !s.inFlow }

def skipMark (s : Lexer) : Lexer :=
  if s.cursor.index = 0 && s.cursor.head? = some '\uFEFF' then s.forward 1 else s

def toNextToken (s : Lexer) : Lexer :=
  skipBlanks (s.cursor.left + 1) s.skipMark

/-- Ends the blocks that begin to the right of a column. -/
def unwindTo (column : Int) : List Int → Lexer → Lexer
  | [], s => s
  | i :: outer, s =>
    if column < s.indent then unwindTo column outer { s.emit .blockEnd with indent := i, outer }
    else s

/-- Ends the blocks to the right of a column; indentation does not count in flow collections. -/
def unwind (column : Int) (s : Lexer) : Lexer :=
  if s.inFlow then s else unwindTo column s.outer s

/-- Begins a block at a column, unless there is one that is not to its left. -/
def indentTo (column : Int) (s : Lexer) : Option Lexer :=
  if s.indent < column then some { s with indent := column, outer := s.indent :: s.outer } else none

/-! ## Possible keys -/

/-- How far a key may reach. -/
def keyLimit : Nat := 1024

def isStale (s : Lexer) (k : PossibleKey) : Bool :=
  k.line ≠ s.cursor.line || keyLimit < s.cursor.index - k.index

/-- Forgets the places too far back to be keys. -/
def dropStale (s : Lexer) : Except Problem Lexer :=
  if s.keys.any fun (_, k) => s.isStale k && k.isRequired then .error .malformed
  else .ok { s with keys := s.keys.filter fun (_, k) => !s.isStale k }

def key? (s : Lexer) : Option PossibleKey :=
  (s.keys.find? fun (level, _) => level = s.flowLevel).map Prod.snd

def forgetKey (s : Lexer) : Lexer :=
  { s with keys := s.keys.filter fun (level, _) => level ≠ s.flowLevel }

/-- Gives up the possible key of the current level. -/
def dropKey (s : Lexer) : Except Problem Lexer :=
  if s.key?.any PossibleKey.isRequired then .error .malformed else .ok s.forgetKey

/-- Remembers that a key may begin here, if one is allowed. -/
def saveKey (s : Lexer) : Except Problem Lexer :=
  if s.keyAllowed then do
    let s ← s.dropKey
    let k : PossibleKey :=
      ⟨s.count, !s.inFlow && s.indent = s.cursor.column, s.cursor.index, s.cursor.line, s.cursor.column⟩
    return { s with keys := (s.flowLevel, k) :: s.keys }
  else return s

/-! ## Tokens -/

/-- A token that ends all blocks and that no key can follow. -/
def takeMarker (s : Lexer) : Except Problem Lexer := do
  return { ← (s.unwind (-1)).dropKey with keyAllowed := false }

def takeStreamEnd (s : Lexer) : Except Problem Lexer := do
  return (← s.takeMarker).emit .streamEnd

def takeDirective (s : Lexer) : Except Problem Lexer := do
  let s ← s.takeMarker
  let (t, cursor) ← readDirective s.cursor
  return { s.emit t with cursor }

def takeDocumentMark (t : Token) (s : Lexer) : Except Problem Lexer := do
  return ((← s.takeMarker).emit t).forward 3

def takeFlowStart (t : Token) (s : Lexer) : Except Problem Lexer := do
  let s ← s.saveKey
  return ({ s with flowLevel := s.flowLevel + 1, keyAllowed := true }.emit t).forward 1

def takeFlowEnd (t : Token) (s : Lexer) : Except Problem Lexer := do
  if s.flowLevel = 0 then throw .malformed
  let s ← s.dropKey
  return ({ s with flowLevel := s.flowLevel - 1, keyAllowed := false }.emit t).forward 1

def takeFlowEntry (s : Lexer) : Except Problem Lexer := do
  let s ← s.dropKey
  return ({ s with keyAllowed := true }.emit .flowEntry).forward 1

/-- Begins a block here if the next token needs one. A new block needs a place where keys are allowed. -/
def openBlock (t : Token) (s : Lexer) : Except Problem Lexer :=
  if s.inFlow then .ok s
  else if !s.keyAllowed then .error .malformed
  else
    match s.indentTo s.cursor.column with
    | some s => .ok (s.emit t)
    | none => .ok s

def takeBlockEntry (s : Lexer) : Except Problem Lexer := do
  let s ← (← s.openBlock .blockSequenceStart).dropKey
  return ({ s with keyAllowed := true }.emit .blockEntry).forward 1

def takeKey (s : Lexer) : Except Problem Lexer := do
  let s ← (← s.openBlock .blockMappingStart).dropKey
  return ({ s with keyAllowed := !s.inFlow }.emit .key).forward 1

/-- The colon after a possible key makes it one. -/
def confirmKey (k : PossibleKey) (s : Lexer) : Lexer :=
  let s := s.forgetKey.insertAt k.place .key
  let s := if s.inFlow then s
    else
      match s.indentTo k.column with
      | some s => s.insertAt k.place .blockMappingStart
      | none => s
  { s with keyAllowed := false }

def takeValue (s : Lexer) : Except Problem Lexer := do
  let s ← match s.key? with
    | some k => pure (s.confirmKey k)
    | none => do
      let s ← (← s.openBlock .blockMappingStart).dropKey
      pure { s with keyAllowed := !s.inFlow }
  return (s.emit .value).forward 1

/-- A token that may be a key or begin one. -/
def takeWord (read : Cursor → Except Problem (Token × Cursor)) (s : Lexer) : Except Problem Lexer := do
  let s ← s.saveKey
  let (t, cursor) ← read s.cursor
  return { s.emit t with cursor, keyAllowed := false }

def takeBlockScalar (isFolded : Bool) (s : Lexer) : Except Problem Lexer := do
  let s ← s.dropKey
  let r ← readBlock isFolded s.indent s.cursor
  return { s.emit (.scalar (String.ofList r.text) false) with cursor := r.cursor, keyAllowed := true }

def takeQuoted (quote : Char) : Lexer → Except Problem Lexer :=
  takeWord fun cur => do
    let r ← readQuoted quote cur
    return (.scalar (String.ofList r.text) false, r.cursor)

def takePlain (s : Lexer) : Except Problem Lexer := do
  let s ← s.saveKey
  let (r, broken) := readPlain s.inFlow (s.indent + 1) s.cursor
  return { s.emit (.scalar (String.ofList r.text) true) with cursor := r.cursor, keyAllowed := broken }

/-- Whether a plain scalar can begin with `c`. -/
def beginsPlain (s : Lexer) (c : Char) : Bool :=
  !(endsWord (some c) || "-?:,[]\x7b\x7d#&*!|>'\"%@`".toList.contains c) ||
    (!endsWord (s.cursor.peek 1) && (c = '-' || (!s.inFlow && (c = '?' || c = ':'))))

def atDocumentMark (s : Lexer) : Bool :=
  s.cursor.column = 0 && s.cursor.atMarker

/-- Takes the token that begins with `c`. -/
def take (c : Char) (s : Lexer) : Except Problem Lexer :=
  let alone := endsWord (s.cursor.peek 1)
  if c = '%' && s.cursor.column = 0 then s.takeDirective
  else if c = '-' && s.atDocumentMark then s.takeDocumentMark .documentStart
  else if c = '.' && s.atDocumentMark then s.takeDocumentMark .documentEnd
  else if c = '[' then s.takeFlowStart .flowSequenceStart
  else if c = '\x7b' then s.takeFlowStart .flowMappingStart
  else if c = ']' then s.takeFlowEnd .flowSequenceEnd
  else if c = '\x7d' then s.takeFlowEnd .flowMappingEnd
  else if c = ',' then s.takeFlowEntry
  else if c = '-' && alone then s.takeBlockEntry
  else if c = '?' && (s.inFlow || alone) then s.takeKey
  else if c = ':' && (s.inFlow || alone) then s.takeValue
  else if c = '*' then s.takeWord fun cur => do
    let (name, cur) ← readName cur
    return (.alias name, cur)
  else if c = '&' then s.takeWord fun cur => do
    let (name, cur) ← readName cur
    return (.anchor name, cur)
  else if c = '!' then s.takeWord readTag
  else if c = '|' && !s.inFlow then s.takeBlockScalar false
  else if c = '>' && !s.inFlow then s.takeBlockScalar true
  else if c = '\'' || c = '"' then s.takeQuoted c
  else if s.beginsPlain c then s.takePlain
  else .error .malformed

/-- Takes one more token, with the marks of blocks that end or begin before it. -/
def step (s : Lexer) : Except Problem Lexer := do
  let s ← s.toNextToken.dropStale
  let s := s.unwind s.cursor.column
  match s.cursor.head? with
  | none => s.takeStreamEnd
  | some c => s.take c

/-! ## All tokens -/

/-- The tokens in front of which no mark of a key can be put any more. -/
def settled (s : Lexer) : List Token :=
  let pending := s.keys.filter fun (_, k) => !s.isStale k
  let count := pending.foldl (fun n (_, k) => min n k.place) s.count
  (s.tokens.drop (s.count - count)).reverse

/-- Takes all tokens up to a fault. Every round but the last passes a character. Text that breaks off is at fault as
soon as its end is reached. -/
def run (failure : Option Problem) : Nat → Lexer → Tokens
  | 0, s => ⟨s.settled, some .malformed⟩
  | n + 1, s =>
    match s.step with
    | .error .unfinished => ⟨s.settled, some (failure.getD .malformed)⟩
    | .error p => ⟨s.settled, some p⟩
    | .ok after =>
      match failure, after.cursor.rest, after.tokens with
      | some p, [], _ => ⟨s.settled, some p⟩
      | _, _, .streamEnd :: _ => ⟨after.tokens.reverse, none⟩
      | _, _, _ => run failure n after

end Lexer

/-- The tokens of a document. -/
def Source.tokens (source : Source) : Tokens :=
  (Lexer.start source.text).run source.failure (source.text.length + 1)

end MachineBundle.Yaml
