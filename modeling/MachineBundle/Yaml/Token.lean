import MachineBundle.Yaml.Cursor

/-!
# Tokens

What a document consists of before its structure is known.
-/

namespace MachineBundle.Yaml

inductive Directive where
  | version (major minor : Nat)
  | tag (handle expansion : String)
  | unknown
  deriving DecidableEq, Repr

inductive Token where
  | directive (d : Directive)
  | documentStart
  | documentEnd
  | streamEnd
  | blockSequenceStart
  | blockMappingStart
  | blockEnd
  | flowSequenceStart
  | flowSequenceEnd
  | flowMappingStart
  | flowMappingEnd
  | blockEntry
  | flowEntry
  | key
  | value
  | alias (name : String)
  | anchor (name : String)
  /-- A tag without a handle is written in full. -/
  | tag (handle : Option String) (suffix : String)
  | scalar (text : String) (isPlain : Bool)
  deriving DecidableEq, Repr

/-- The tokens of a document, up to where reading them fails. -/
structure Tokens where
  items : List Token
  fault : Option Problem

end MachineBundle.Yaml
