import MachineBundle.Text.Line

/-!
# Paths

A path is its components below an anchor. Empty components and single dots are dropped, double dots are kept.
-/

namespace MachineBundle

/-- Where a path starts: at the working directory or at the root, which has two spellings. -/
inductive Anchor where
  | none
  | root
  | doubleRoot
  deriving DecidableEq, Repr

def Anchor.text : Anchor → String
  | none => ""
  | root => "/"
  | doubleRoot => "//"

structure Path where
  anchor : Anchor
  parts : List String
  deriving DecidableEq, Repr

namespace Path

/-- The pieces between slashes. -/
def pieces : List Char → List (List Char)
  | [] => [[]]
  | c :: r => if c = '/' then [] :: pieces r else Text.consFirst c (pieces r)

/-- Whether a piece of text names a component. -/
def isComponent (piece : List Char) : Bool :=
  !piece.isEmpty && piece != ['.']

def components (cs : List Char) : List String :=
  ((pieces cs).filter isComponent).map String.ofList

/-- Exactly two leading slashes are an anchor of their own. -/
def anchorOf : List Char → Anchor
  | '/' :: '/' :: '/' :: _ => .root
  | '/' :: '/' :: _ => .doubleRoot
  | '/' :: _ => .root
  | _ => .none

def ofText (s : String) : Path :=
  ⟨anchorOf s.toList, components s.toList⟩

/-- The working directory. -/
def here : Path := ⟨.none, []⟩

/-- The anchor and the components with slashes in between; nothing at all for the working directory. -/
def bareText (p : Path) : String :=
  p.anchor.text ++ "/".intercalate p.parts

/-- The working directory is written as a dot. -/
def text (p : Path) : String :=
  if p.anchor = .none ∧ p.parts = [] then "." else p.bareText

/-- The path of `q` as seen from `p`; an anchored path stays what it is. -/
def append (p q : Path) : Path :=
  if q.anchor = .none then ⟨p.anchor, p.parts ++ q.parts⟩ else q

def join (p : Path) (relative : String) : Path :=
  p.append (ofText relative)

def parent (p : Path) : Path :=
  { p with parts := p.parts.dropLast }

/-- The last component, if there is one. -/
def name (p : Path) : String :=
  p.parts.getLast?.getD ""

/-- What comes before the last dot of a component, unless that dot is its first or last character. -/
def stemOf (component : List Char) : List Char :=
  let (after, rest) := component.reverse.span (· != '.')
  match after, rest with
  | _ :: _, _ :: c :: before => (c :: before).reverse
  | _, _ => component

def stem (p : Path) : String :=
  String.ofList (stemOf p.name.toList)

/-- `p` as seen from `base`, if it lies below it. -/
def relativeTo? (p base : Path) : Option Path :=
  if p.anchor = base.anchor ∧ base.parts.isPrefixOf p.parts then
    some ⟨.none, p.parts.drop base.parts.length⟩
  else none

end Path

end MachineBundle
