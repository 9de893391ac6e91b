import MachineBundle.Datum.NumberSet
import MachineBundle.Yaml.Node

/-!
# Values of nodes

Each node has one value. Collections name their parts by the nodes, so that a value can be a part of itself. Seen as
plain data such a part is a mark that stands for the collection around it.
-/

namespace MachineBundle.Yaml

inductive Object where
  | scalar (d : Datum)
  /-- The float that is no number, as its own word spells it. It is the same wherever that word stands. -/
  | notANumber
  | list (items : List NodeId)
  | pairs (items : List Entry)
  | mapping (entries : List Entry)
  | set (members : List NodeId)
  deriving Repr

instance : Inhabited Object := ⟨.scalar .null⟩

namespace Object

/-- Whether a value can be a key or a member. -/
def isKey : Object → Bool
  | .scalar _ | .notANumber => true
  | _ => false

/-- Whether the values of two nodes are the same key. A node is always the same as itself. -/
def isSameKey (a b : Object) : Bool :=
  match a, b with
  | .scalar x, .scalar y => Datum.sameKey x y
  | .notANumber, .notANumber => true
  | _, _ => false

/-- Whether a value counts as true. -/
def truthy : Object → Bool
  | .scalar d => d.truthy
  | .notANumber => true
  | .list items => !items.isEmpty
  | .pairs items => !items.isEmpty
  | .mapping entries => !entries.isEmpty
  | .set members => !members.isEmpty

def isText (s : String) : Object → Bool
  | .scalar (.text t) => s = t
  | _ => false

end Object

/-- The values of the nodes of a document, and the node that holds the others. -/
structure Document where
  objects : Array Object
  root : NodeId

namespace Document

def object (d : Document) (id : NodeId) : Object :=
  d.objects[id]?.getD default

/-- The value of a textual key. -/
def lookup? (d : Document) (key : String) (entries : List Entry) : Option NodeId :=
  (entries.find? fun (k, _) => (d.object k).isText key).map Prod.snd

/-- The value of a node as plain data, seen from inside of the collections in `around`. A way into the document meets
no collection twice, so that it is no longer than there are values. -/
def view (d : Document) : (depth : Nat) → (around : List NodeId) → NodeId → Datum
  | 0, _, _ => .null
  | n + 1, around, id =>
    match d.object id with
    | .scalar x => x
    | .notANumber => .float Number.notANumber
    | .list items => if around.contains id then .innerList else .list (items.map (d.view n (id :: around)))
    | .pairs items =>
      if around.contains id then .innerList
      else .list (items.map fun (k, v) => .pair (d.view n (id :: around) k) (d.view n (id :: around) v))
    | .mapping entries =>
      if around.contains id then .innerMap
      else .map (entries.map fun (k, v) => (d.view n (id :: around) k, d.view n (id :: around) v))
    | .set members => .set (Datum.inSetOrder (members.map (d.view n (id :: around))))

/-- The value of a node as plain data. -/
def datum (d : Document) (id : NodeId) : Datum :=
  d.view (d.objects.size + 1) [] id

end Document

end MachineBundle.Yaml
