import MachineBundle.Yaml.Kind

/-!
# Nodes

The nodes of a document are numbered and refer to one another by their numbers, so that one node can stand in several
places, also inside of itself.
-/

namespace MachineBundle.Yaml

abbrev NodeId := Nat

abbrev Entry := NodeId × NodeId

inductive Content where
  | scalar (text : String)
  | sequence (items : List NodeId)
  | mapping (entries : List Entry)
  deriving Repr

structure Node where
  kind : Kind
  content : Content
  deriving Repr

namespace Node

/-- A scalar that is not there. -/
def absent : Node := ⟨.null, .scalar ""⟩

instance : Inhabited Node := ⟨absent⟩

def ofScalar (tag : Option String) (text : String) (isPlain : Bool) : Node :=
  ⟨.ofScalar tag text isPlain, .scalar text⟩

def ofItems (tag : Option String) (items : List NodeId) : Node :=
  ⟨(Kind.ofTag? tag).getD .sequence, .sequence items⟩

def ofEntries (tag : Option String) (entries : List Entry) : Node :=
  ⟨(Kind.ofTag? tag).getD .mapping, .mapping entries⟩

/-- The entries of a mapping. -/
def entries (n : Node) : List Entry :=
  match n.content with
  | .mapping entries => entries
  | _ => []

def isMapping (n : Node) : Bool :=
  match n.content with
  | .mapping _ => true
  | _ => false

end Node

/-- The nodes of a document and the one that holds the others. -/
structure Graph where
  nodes : Array Node
  root : NodeId

end MachineBundle.Yaml
