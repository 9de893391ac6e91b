import MachineBundle.Fault
import MachineBundle.Path
import MachineBundle.Table

/-!
# The directory tree

A tree of files and directories, and how a path leads to a place in it. Scratch files are kept apart from the
nodes: no path leads to one.
-/

namespace MachineBundle

/-- The names that lead to a place from the root. -/
abbrev Location := List String

/-- Contents are equal if their bytes are. -/
instance (priority := 2000) decidableEqBytes : DecidableEq ByteArray := ByteArray.instDecidableEq

inductive Node where
  | file (content : ByteArray)
  | directory
  deriving DecidableEq

/-- A file that is being written, in the directory of the file that it is to become. -/
structure Scratch where
  directory : Location
  target : String
  /-- The file as messages name it. -/
  text : String
  content : ByteArray
  deriving DecidableEq

namespace Scratch

/-- The way from `base` to `l`. -/
def wayTo : (base l : Location) → List String
  | b :: bs, x :: xs => if b = x then wayTo bs xs else (b :: bs).map (fun _ => "..") ++ x :: xs
  | bs, l => bs.map (fun _ => "..") ++ l

/-- A row of `X` stands for the part of the name that no other file shares. -/
def nameFor (target : String) : String :=
  "." ++ target ++ ".XXXXXXXX.tmp"

/-- Messages name a scratch file as seen from the working directory. -/
def textFor (home directory : Location) (target : String) : String :=
  "/".intercalate (wayTo home directory ++ [nameFor target])

/-- A scratch file without content yet. -/
def start (home directory : Location) (target : String) : Scratch :=
  ⟨directory, target, textFor home directory target, .empty⟩

end Scratch

structure Tree where
  /-- The working directory, where paths without an anchor start. -/
  home : Location
  nodes : Table Location Node
  scratch : List Scratch

/-- What a path leads to: a node, or a free name in a directory. -/
inductive Place where
  | taken (location : Location) (node : Node)
  | free (directory : Location) (name : String)

namespace Tree

/-- Nothing but an empty working directory. -/
def empty : Tree :=
  ⟨["work"], [(["work"], .directory)], []⟩

/-- The root is always a directory. -/
def node? (t : Tree) (l : Location) : Option Node :=
  if l = [] then some .directory else t.nodes.get? l

def setNode (l : Location) (n : Node) (t : Tree) : Tree :=
  { t with nodes := t.nodes.set l n }

theorem node?_setNode (t : Tree) (l m : Location) (n : Node) (h : l ≠ []) :
    (t.setNode l n).node? m = if l = m then some n else t.node? m := by
  by_cases hm : m = []
  · simp [node?, hm, h]
  · simp [node?, setNode, hm, Table.get?_set]

/-! ## Following a path -/

/-- The longest name that a directory holds, in bytes. -/
def nameLimit : Nat := 255

/-- Follows components from a place. Two dots lead one level up; above the root there is only the root. -/
def follow (t : Tree) (here : Location) : List String → Except Refusal Place
  | [] =>
    match t.node? here with
    | some n => .ok (.taken here n)
    | none => .error .notFound
  | part :: rest =>
    match t.node? here with
    | none => .error .notFound
    | some (.file _) => .error .notDirectory
    | some .directory =>
      if part = ".." then follow t here.dropLast rest
      else if nameLimit < part.utf8ByteSize then .error .nameTooLong
      else if rest = [] ∧ t.node? (here ++ [part]) = none then .ok (.free here part)
      else follow t (here ++ [part]) rest

/-- The nodes below the place that a name leads to, as seen from there. -/
def within (name : String) : Table Location Node → Table Location Node
  | [] => []
  | ([], _) :: r => within name r
  | (x :: l, n) :: r => if x = name then (l, n) :: within name r else within name r

/-- The nodes below a location, as seen from there. -/
def below (t : Tree) (l : Location) : Table Location Node :=
  l.foldl (fun nodes name => within name nodes) t.nodes

/-- The node from which others are seen. -/
def nodeHere? (here : Location) (seen : Table Location Node) : Option Node :=
  if here = [] then some .directory else seen.get? []

/-- Follows components like `follow`, with the nodes below the place at hand. -/
def walk (t : Tree) (here : Location) (seen : Table Location Node) : List String → Except Refusal Place
  | [] =>
    match nodeHere? here seen with
    | some n => .ok (.taken here n)
    | none => .error .notFound
  | part :: rest =>
    match nodeHere? here seen with
    | none => .error .notFound
    | some (.file _) => .error .notDirectory
    | some .directory =>
      if part = ".." then walk t here.dropLast (t.below here.dropLast) rest
      else if nameLimit < part.utf8ByteSize then .error .nameTooLong
      else
        let seen := within part seen
        if rest = [] ∧ seen.get? [] = none then .ok (.free here part) else walk t (here ++ [part]) seen rest

theorem get?_within (name : String) (l : Location) (nodes : Table Location Node) :
    (within name nodes).get? l = nodes.get? (name :: l) := by
  induction nodes with
  | nil => rfl
  | cons e r ih =>
    obtain ⟨m, n⟩ := e
    cases m with
    | nil => simp [within, Table.get?, ih]
    | cons x m =>
      by_cases hx : x = name
      · by_cases hm : m = l <;> simp [within, Table.get?, hx, hm, ih]
      · simp [within, Table.get?, hx, ih]

theorem get?_foldl_within (l m : Location) (nodes : Table Location Node) :
    Table.get? m (l.foldl (fun nodes name => within name nodes) nodes) = nodes.get? (l ++ m) := by
  induction l generalizing nodes with
  | nil => rfl
  | cons x l ih => simp [ih, get?_within]

theorem below_append (t : Tree) (l : Location) (name : String) :
    t.below (l ++ [name]) = within name (t.below l) := by
  simp [below]

theorem nodeHere?_below (t : Tree) (l : Location) : nodeHere? l (t.below l) = t.node? l := by
  simp [nodeHere?, node?, below, get?_foldl_within]

theorem walk_eq_follow (t : Tree) (here : Location) (parts : List String) :
    t.walk here (t.below here) parts = t.follow here parts := by
  induction parts generalizing here with
  | nil => simp only [walk, follow, nodeHere?_below]
  | cons part rest ih =>
    have h : Table.get? [] (t.below (here ++ [part])) = t.node? (here ++ [part]) := by
      simp [node?, below, get?_foldl_within, get?_within]
    simp only [walk, follow, nodeHere?_below, ih, ← below_append, h]

/-- The location that a path starts from. -/
def start (t : Tree) (p : Path) : Location :=
  if p.anchor = .none then t.home else []

/-- Paths this long, in bytes, are not followed at all. -/
def pathLimit : Nat := 4096

/-- What a path leads to. -/
def place (t : Tree) (p : Path) : Except Refusal Place :=
  if pathLimit ≤ p.text.utf8ByteSize then .error .nameTooLong
  else t.walk (t.start p) (t.below (t.start p)) p.parts

theorem place_eq (t : Tree) (p : Path) :
    t.place p =
      if pathLimit ≤ p.text.utf8ByteSize then .error .nameTooLong else t.follow (t.start p) p.parts := by
  simp [place, walk_eq_follow]

/-! ## Queries -/

def hasNull (p : Path) : Bool :=
  p.parts.any fun part => part.toList.contains '\x00'

/-- What stands at a path. Paths that lead nowhere are not at fault, except for names that are too long. -/
def look (t : Tree) (p : Path) : Except Fault (Option Node) :=
  if hasNull p then .ok none
  else
    match t.place p with
    | .ok (.taken _ n) => .ok (some n)
    | .ok (.free ..) => .ok none
    | .error .nameTooLong => .error (.refused .nameTooLong p.text)
    | .error _ => .ok none

def holds (t : Tree) (p : Path) : Except Fault Bool :=
  (t.look p).map Option.isSome

def isFile (t : Tree) (p : Path) : Except Fault Bool :=
  (t.look p).map fun
    | some (.file _) => true
    | _ => false

def isDirectory (t : Tree) (p : Path) : Except Fault Bool :=
  (t.look p).map fun
    | some .directory => true
    | _ => false

def readBytes (t : Tree) (p : Path) : Except Fault ByteArray :=
  if hasNull p then .error .nullCharacter
  else
    match t.place p with
    | .ok (.taken _ (.file content)) => .ok content
    | .ok (.taken _ .directory) => .error (.refused .isDirectory p.text)
    | .ok (.free ..) => .error (.refused .notFound p.text)
    | .error e => .error (.refused e p.text)

/-- The text that bytes spell, with all line ends unified. -/
def textOf (content : ByteArray) : Except Fault String :=
  match Text.decode content with
  | .ok s => .ok (String.ofList (Text.unifyBreaks s.toList))
  | .error m => .error (.malformed m)

def readText (t : Tree) (p : Path) : Except Fault String :=
  t.readBytes p >>= textOf

end Tree

end MachineBundle
