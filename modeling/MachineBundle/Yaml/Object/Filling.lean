import MachineBundle.Yaml.Base64
import MachineBundle.Yaml.Node.Assembly
import MachineBundle.Yaml.Moment
import MachineBundle.Yaml.Number
import MachineBundle.Yaml.Object

/-!
# From nodes to values

Scalars get their values when they are met. Collections start empty and are filled afterwards, in the order in which
they have been met, so that outer collections are complete before inner ones.
-/

namespace MachineBundle.Yaml

/-! ## Scalars -/

/-- The value of a kind that a text spells. -/
def scalarValue (k : Kind) (s : String) : Except Problem Object :=
  match k with
  | .null => .ok (.scalar .null)
  | .bool =>
    match wordTruth? (Text.lower s) with
    | some b => .ok (.scalar (.bool b))
    | none => .error .unknownWord
  | .int => (.scalar <| .int ·) <$> intValue s
  | .float => if isNotANumberWord s then .ok .notANumber else (.scalar <| .float ·) <$> floatValue s
  | .timestamp => .scalar <$> momentValue s
  | .binary =>
    if !s.toList.all fun c => c.toNat < 128 then .error .malformed
    else
      match base64? s with
      | some b => .ok (.scalar (.bytes b))
      | none => .error .malformed
  | .text => .ok (.scalar (.text s))
  | .merge | .value | .omap | .pairs | .set | .sequence | .mapping | .unknown => .error .malformed

/-- Values on their way. -/
structure Filling where
  nodes : Array Node
  /-- The values that have been met. -/
  objects : Array (Option Object)
  /-- The collections that are still to be filled, the last one first. -/
  waiting : List NodeId

abbrev FillingM := StateT Filling (Except Problem)

namespace Filling

def node (id : NodeId) : FillingM Node := do
  return (← get).nodes[id]?.getD .absent

def object? (id : NodeId) : FillingM (Option Object) := do
  return (← get).objects[id]?.getD none

def setObject (id : NodeId) (o : Object) : FillingM Unit :=
  modify fun s => { s with objects := s.objects.setIfInBounds id (some o) }

def setNode (id : NodeId) (n : Node) : FillingM Unit :=
  modify fun s => { s with nodes := s.nodes.setIfInBounds id n }

/-- Begins an empty collection. -/
def begin (id : NodeId) (empty : Object) : FillingM Unit :=
  modify fun s =>
    { s with objects := s.objects.setIfInBounds id (some empty), waiting := id :: s.waiting }

/-- The text of a scalar, or of the value in a mapping that stands for one. A way through more mappings than there are
nodes has no end. -/
def scalarText : Nat → NodeId → FillingM String
  | 0, _ => throw .tooDeep
  | n + 1, id => do
    match (← node id).content with
    | .scalar text => return text
    | .sequence _ => throw .malformed
    | .mapping entries =>
      match ← entries.findM? fun (k, _) => return (← node k).kind = .value with
      | some (_, v) => scalarText n v
      | none => throw .malformed

/-- The value of a scalar. A mapping that stands for one cannot be a point in time. -/
def scalarObject (id : NodeId) (n : Node) : FillingM Object := do
  let text ← scalarText ((← get).nodes.size + 1) id
  if n.kind = .timestamp && n.isMapping then throw .notScalar
  match scalarValue n.kind text with
  | .ok o => return o
  | .error p => throw p

/-- Meets a node: gives a scalar its value and begins a collection. -/
def meet (id : NodeId) : FillingM Unit := do
  if (← object? id).isSome then return
  let n ← node id
  match n.kind with
  | .sequence => begin id (.list [])
  | .omap | .pairs => begin id (.pairs [])
  | .mapping => begin id (.mapping [])
  | .set => begin id (.set [])
  | .merge | .value | .unknown => throw .malformed
  | _ => setObject id (← scalarObject id n)

/-! ## Merging -/

/-- Takes the sign of a value as text where it is a key. -/
def asText (id : NodeId) : FillingM Unit := do
  let n ← node id
  if n.kind = .value then setNode id { n with kind := .text }

def setEntries (id : NodeId) (entries : List Entry) : FillingM Unit := do
  setNode id { (← node id) with content := .mapping entries }

/-- The entries in front of the first key that merges, and the others. -/
def spanOwn : List Entry → FillingM (List Entry × List Entry)
  | [] => return ([], [])
  | (k, v) :: rest => do
    if (← node k).kind = .merge then return ([], (k, v) :: rest)
    else
      let (own, rest) ← spanOwn rest
      return ((k, v) :: own, rest)

mutual
/-- Replaces the keys of a mapping that merge by what they merge, from position `i` on. What has been merged so far goes
to the front at the end. Each round takes such a key away for good. -/
def flatten (id : NodeId) (i : Nat) (merged : List Entry) : Nat → FillingM Unit
  | 0 => throw .malformed
  | n + 1 => do
    let entries := (← node id).entries
    let (own, rest) ← spanOwn (entries.drop i)
    own.forM fun (k, _) => asText k
    match rest with
    | [] => if !merged.isEmpty then setEntries id (merged ++ entries)
    | (_, v) :: rest =>
      setEntries id (entries.take i ++ own ++ rest)
      let more ← mergedBy v n
      flatten id (i + own.length) (merged ++ more) n

/-- The entries that a key brings in: those of a mapping, or of several, the last one first. -/
def mergedBy (id : NodeId) : Nat → FillingM (List Entry)
  | 0 => throw .malformed
  | n + 1 => do
    match (← node id).content with
    | .mapping _ =>
      flatten id 0 [] n
      return (← node id).entries
    | .sequence items => mergedByAll items n
    | .scalar _ => throw .malformed

def mergedByAll : List NodeId → Nat → FillingM (List Entry)
  | _, 0 => throw .malformed
  | [], _ => return []
  | id :: rest, n + 1 => do
    if !(← node id).isMapping then throw .malformed
    flatten id 0 [] n
    let entries := (← node id).entries
    return (← mergedByAll rest n) ++ entries
end

/-! ## Collections -/

/-- Sets a key to a value; a key that is there keeps its spelling and its place. -/
def insert (objects : Array (Option Object)) (key value : NodeId) : List Entry → List Entry
  | [] => [(key, value)]
  | (k, v) :: rest =>
    let object (id : NodeId) : Object := (objects[id]?.getD none).getD default
    if k = key || (object k).isSameKey (object key) then (k, value) :: rest
    else (k, v) :: insert objects key value rest

/-- The entries of a mapping with their values. -/
def insertAll (read : List Entry) : List Entry → FillingM (List Entry)
  | [] => return read
  | (k, v) :: rest => do
    meet k
    if !((← object? k).getD default).isKey then throw .malformed
    meet v
    let read := insert (← get).objects k v read
    insertAll read rest

def mappingEntries (id : NodeId) (fuel : Nat) : FillingM (List Entry) := do
  if !(← node id).isMapping then throw .malformed
  flatten id 0 [] fuel
  insertAll [] (← node id).entries

/-- The only entry of a mapping. -/
def onlyEntry (id : NodeId) : FillingM Entry := do
  match (← node id).content with
  | .mapping [(k, v)] =>
    meet k
    meet v
    return (k, v)
  | _ => throw .malformed

/-- Fills a collection that has begun. -/
def fill (fuel : Nat) (id : NodeId) : FillingM Unit := do
  let n ← node id
  match n.kind, n.content with
  | .sequence, .sequence items =>
    items.forM meet
    setObject id (.list items)
  | .omap, .sequence items | .pairs, .sequence items => setObject id (.pairs (← items.mapM onlyEntry))
  | .mapping, _ => setObject id (.mapping (← mappingEntries id fuel))
  | .set, _ => setObject id (.set ((← mappingEntries id fuel).map Prod.fst))
  | _, _ => throw .malformed

/-- Fills the collections that wait, and those that they contain, round by round. No collection waits twice. -/
def fillAll (fuel : Nat) : Nat → FillingM Unit
  | 0 => pure ()
  | n + 1 => do
    let round := (← get).waiting.reverse
    if round.isEmpty then return
    modify fun s => { s with waiting := [] }
    round.forM (fill fuel)
    fillAll fuel n

/-- How much there is to merge under a key with this value at most. -/
def mergeCost (g : Graph) (value : NodeId) : Nat :=
  match (g.nodes[value]?.getD .absent).content with
  | .sequence items => items.length + 4
  | _ => 4

/-- A bound for the rounds of merging: no key merges twice. -/
def mergeBound (g : Graph) : Nat :=
  g.nodes.foldl (fun n node => node.entries.foldl (fun n (_, v) => n + mergeCost g v) n) 4

end Filling

/-- The values of a document. -/
def Graph.document (g : Graph) : Except Problem Document := do
  let go : FillingM Unit := do
    Filling.meet g.root
    Filling.fillAll (Filling.mergeBound g) (g.nodes.size + 1)
  let ((), s) ← go.run ⟨g.nodes, Array.replicate g.nodes.size none, []⟩
  return ⟨s.objects.map fun o => o.getD default, g.root⟩

/-- The document in a source; an empty stream has none. -/
def Source.document (source : Source) : Except Problem (Option Document) := do
  (← source.tokens.graph).mapM Graph.document

end MachineBundle.Yaml
