import MachineBundle.Table
import MachineBundle.Yaml.Node
import MachineBundle.Yaml.Token.Lexer

/-!
# From tokens to nodes

Tokens are asked for one at a time, so that a fault in what follows a token is met only after a fault in what precedes
it. A name that has been given to a node stands for that node from its beginning on, also inside of it.
-/

namespace MachineBundle.Yaml

/-- The nodes so far, and what the next ones are read against. -/
structure Assembly where
  tokens : Tokens
  /-- The handles of tags and what they stand for. -/
  handles : Table String String
  /-- The names of nodes. -/
  anchors : Table String NodeId
  nodes : Array Node
  /-- How many collections are open. -/
  depth : Nat

/-- What comes before the content of a node. -/
structure Properties where
  anchor : Option String
  tag : Option String

abbrev AssemblyM := StateT Assembly (Except Problem)

namespace Assembly

/-! ## Tokens -/

/-- The next token. Past the end of the stream there is only its end. -/
def next : AssemblyM Token := do
  match (← get).tokens with
  | ⟨t :: _, _⟩ => return t
  | ⟨[], some p⟩ => throw p
  | ⟨[], none⟩ => return .streamEnd

def advance : AssemblyM Unit :=
  modify fun s => { s with tokens := { s.tokens with items := s.tokens.items.drop 1 } }

/-- Passes a token if it comes next, and tells whether it did. -/
def pass (t : Token) : AssemblyM Bool := do
  if (← next) = t then
    advance
    return true
  else return false

/-- Passes a token that has to come next. -/
def expect (t : Token) : AssemblyM Unit := do
  if !(← pass t) then throw .malformed

/-! ## Properties -/

/-- A tag as it is written. -/
abbrev WrittenTag := Option String × String

/-- Takes an anchor if it comes next. -/
def anchor? : AssemblyM (Option String) := do
  match ← next with
  | .anchor a =>
    advance
    return some a
  | _ => return none

/-- Takes a tag if it comes next. -/
def tag? : AssemblyM (Option WrittenTag) := do
  match ← next with
  | .tag h x =>
    advance
    return some (h, x)
  | _ => return none

/-- A tag in full. -/
def expanded (tag : WrittenTag) : AssemblyM String := do
  match tag with
  | (none, suffix) => return suffix
  | (some h, suffix) =>
    match (← get).handles.get? h with
    | some expansion => return expansion ++ suffix
    | none => throw .malformed

/-- Takes an anchor and a tag, in either order. -/
def properties : AssemblyM Properties := do
  match ← anchor? with
  | some a => return ⟨some a, ← (← tag?).mapM expanded⟩
  | none =>
    match ← tag? with
    | some t =>
      let a ← anchor?
      return ⟨a, some (← expanded t)⟩
    | none => return ⟨none, none⟩

/-! ## New nodes -/

/-- Adds a node. A name can be given once. -/
def add (anchor : Option String) (n : Node) : AssemblyM NodeId := do
  if let some name := anchor then
    let s ← get
    if (s.anchors.get? name).isSome then throw .malformed
    set { s with anchors := s.anchors.set name s.nodes.size }
  modifyGet fun s => (s.nodes.size, { s with nodes := s.nodes.push n })

/-- How many collections may lie in one another. -/
def depthLimit : Nat := 486

/-- Adds a collection whose parts are still to be read. -/
def addWith (anchor : Option String) (parts : AssemblyM Node) : AssemblyM NodeId := do
  let depth := (← get).depth
  if depthLimit ≤ depth then throw .tooDeep
  let id ← add anchor .absent
  modify fun s => { s with depth := depth + 1 }
  let n ← parts
  modify fun s => { s with nodes := s.nodes.setIfInBounds id n, depth }
  return id

def absent : AssemblyM NodeId :=
  add none .absent

def ofAlias (name : String) : AssemblyM NodeId := do
  match (← get).anchors.get? name with
  | some id => return id
  | none => throw .malformed

/-- A node with properties but without content. -/
def withoutContent (p : Properties) : AssemblyM NodeId :=
  if p.anchor.isNone && p.tag.isNone then throw .malformed else add p.anchor (.ofScalar p.tag "" true)

/-! ## Nodes -/

/-- Whether an entry of a block mapping ends with this token. -/
def endsEntry : Token → Bool
  | .key | .value | .blockEnd => true
  | _ => false

/-- Whether an item of a block sequence ends with this token. -/
def endsItem (t : Token) : Bool :=
  t = .blockEntry || endsEntry t

/-- Whether a key of a flow collection ends with this token. -/
def endsFlowKey : Token → Bool
  | .value | .flowEntry | .flowSequenceEnd | .flowMappingEnd => true
  | _ => false

/-- Whether a value of a flow collection ends with this token. -/
def endsFlowValue : Token → Bool
  | .flowEntry | .flowSequenceEnd | .flowMappingEnd => true
  | _ => false

/-- Passes the comma in front of a part of a flow collection other than the first. -/
def passComma (isFirst : Bool) : AssemblyM Unit :=
  if isFirst then pure () else expect .flowEntry

/-- Where a node stands, which decides about the blocks that it may be. -/
inductive Place where
  | flow
  | block
  /-- In an entry of a block mapping, where sequences need no indentation. -/
  | entry
  deriving DecidableEq, Repr

mutual
/-- Reads a node. -/
def parse (place : Place) : Nat → AssemblyM NodeId
  | 0 => throw .malformed
  | n + 1 => do
    match ← next with
    | .alias name =>
      advance
      ofAlias name
    | _ => parseContent place (← properties) n

/-- Reads a node after its properties. -/
def parseContent (place : Place) (p : Properties) : Nat → AssemblyM NodeId
  | 0 => throw .malformed
  | n + 1 => do
    match ← next, place with
    | .scalar text isPlain, _ =>
      advance
      add p.anchor (.ofScalar p.tag text isPlain)
    | .flowSequenceStart, _ =>
      advance
      addWith p.anchor (.ofItems p.tag <$> parseFlowItems [] n)
    | .flowMappingStart, _ =>
      advance
      addWith p.anchor (.ofEntries p.tag <$> parseFlowEntries [] n)
    | _, .flow => withoutContent p
    | .blockSequenceStart, _ =>
      advance
      addWith p.anchor (.ofItems p.tag <$> parseItems [] n)
    | .blockMappingStart, _ =>
      advance
      addWith p.anchor (.ofEntries p.tag <$> parseEntries [] n)
    | .blockEntry, .entry => addWith p.anchor (.ofItems p.tag <$> parseUnindented [] n)
    | _, _ => withoutContent p

/-- Reads a node unless the next token shows that it is missing. -/
def parseUnless (missing : Token → Bool) (place : Place) : Nat → AssemblyM NodeId
  | 0 => throw .malformed
  | n + 1 => do
    if missing (← next) then absent else parse place n

/-- Reads the items of an indented sequence after those read already, the last one first. -/
def parseItems (read : List NodeId) : Nat → AssemblyM (List NodeId)
  | 0 => throw .malformed
  | n + 1 => do
    if ← pass .blockEntry then
      let item ← parseUnless (fun t => t = .blockEntry || t = .blockEnd) .block n
      parseItems (item :: read) n
    else
      expect .blockEnd
      return read.reverse

/-- Reads the items of a sequence that is not indented against the mapping around it. -/
def parseUnindented (read : List NodeId) : Nat → AssemblyM (List NodeId)
  | 0 => throw .malformed
  | n + 1 => do
    if ← pass .blockEntry then
      let item ← parseUnless endsItem .block n
      parseUnindented (item :: read) n
    else return read.reverse

/-- Reads the entries of a block mapping. A key may lack its value. -/
def parseEntries (read : List Entry) : Nat → AssemblyM (List Entry)
  | 0 => throw .malformed
  | n + 1 => do
    if ← pass .key then
      let key ← parseUnless endsEntry .entry n
      let value ← if ← pass .value then parseUnless endsEntry .entry n else absent
      parseEntries ((key, value) :: read) n
    else
      expect .blockEnd
      return read.reverse

/-- Reads a key of a flow collection, and its value if there is one. -/
def parseFlowPair : Nat → AssemblyM Entry
  | 0 => throw .malformed
  | n + 1 => do
    let key ← parseUnless endsFlowKey .flow n
    let value ← if ← pass .value then parseUnless endsFlowValue .flow n else absent
    return (key, value)

/-- Reads the items of a flow sequence. A pair among them is a mapping of its own. -/
def parseFlowItems (read : List NodeId) : Nat → AssemblyM (List NodeId)
  | 0 => throw .malformed
  | n + 1 => do
    if ← pass .flowSequenceEnd then return read.reverse
    passComma read.isEmpty
    if ← pass .flowSequenceEnd then return read.reverse
    let item ←
      if ← pass .key then addWith none (do return .ofEntries none [← parseFlowPair n]) else parse .flow n
    parseFlowItems (item :: read) n

/-- Reads the entries of a flow mapping. A node that is no key has no value. -/
def parseFlowEntries (read : List Entry) : Nat → AssemblyM (List Entry)
  | 0 => throw .malformed
  | n + 1 => do
    if ← pass .flowMappingEnd then return read.reverse
    passComma read.isEmpty
    if ← pass .flowMappingEnd then return read.reverse
    let entry ← if ← pass .key then parseFlowPair n else (do return (← parse .flow n, ← absent))
    parseFlowEntries (entry :: read) n
end

/-! ## Documents -/

/-- The handles that need no directive. -/
def usualHandles : Table String String :=
  [("!", "!"), ("!!", "tag:yaml.org,2002:")]

/-- Takes the directives in front of a document, of which at most one gives a version. -/
def directives (versioned : Bool) (handles : Table String String) : Nat → AssemblyM (Table String String)
  | 0 => throw .malformed
  | n + 1 => do
    match ← next with
    | .directive d =>
      advance
      match d with
      | .version major _ =>
        if versioned || major ≠ 1 then throw .malformed
        directives true handles n
      | .tag h x =>
        if (handles.get? h).isSome then throw .malformed
        directives versioned (handles.set h x) n
      | .unknown => directives versioned handles n
    | _ => return handles

/-- Whether a document without content ends with this token. -/
def endsDocument : Token → Bool
  | .directive _ | .documentStart | .documentEnd | .streamEnd => true
  | _ => false

/-- Whether a document begins with a mark of its own. -/
def beginsMarked : Token → Bool
  | .directive _ | .documentStart => true
  | _ => false

/-- Takes the marks in front of a document. -/
def startDocument (n : Nat) : AssemblyM Unit := do
  let handles ← directives false [] n
  expect .documentStart
  modify fun s => { s with handles := handles ++ usualHandles }

def skipEnds : Nat → AssemblyM Unit
  | 0 => pure ()
  | n + 1 => do
    if ← pass .documentEnd then skipEnds n

/-- Makes sure that no other document follows. -/
def endStream (n : Nat) : AssemblyM Unit := do
  skipEnds n
  if (← next) ≠ .streamEnd then
    startDocument n
    throw .malformed

/-- Reads the only document of a stream, if there is one. -/
def document (n : Nat) : AssemblyM (Option NodeId) := do
  let first ← next
  if first = .streamEnd then return none
  if beginsMarked first then startDocument n
  let root ← parseUnless (fun t => beginsMarked first && endsDocument t) .block n
  endStream n
  return some root

end Assembly

/-- The nodes of a document; an empty stream has none. Each token is looked at by at most four calls that contain one
another. -/
def Tokens.graph (ts : Tokens) : Except Problem (Option Graph) := do
  let (root, s) ← (Assembly.document (4 * ts.items.length + 8)).run ⟨ts, Assembly.usualHandles, [], #[], 0⟩
  return root.map fun id => ⟨s.nodes, id⟩

end MachineBundle.Yaml
