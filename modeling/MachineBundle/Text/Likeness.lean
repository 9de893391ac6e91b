/-!
# Words that are alike

Two words are alike if the runs of characters that they share make up most of both. The longest run counts first,
then, on either side of it, the longest run that is left there.
-/

namespace MachineBundle.Text

/-- A run that two words share: where it begins in each of them, and its length. -/
structure SharedRun where
  first : Nat
  second : Nat
  length : Nat
  deriving DecidableEq, Repr

def commonPrefix : List Char → List Char → Nat
  | a :: as, b :: bs => if a = b then commonPrefix as bs + 1 else 0
  | _, _ => 0

/-- The runs that begin with the words: one for each place in the second word. -/
def runsFrom (first : Nat) (a : List Char) : (second : Nat) → List Char → List SharedRun
  | _, [] => []
  | second, b :: bs => ⟨first, second, commonPrefix a (b :: bs)⟩ :: runsFrom first a (second + 1) bs

def runs (first : Nat) (a b : List Char) : List SharedRun :=
  match a with
  | [] => []
  | c :: r => runsFrom first (c :: r) 0 b ++ runs (first + 1) r b

/-- The longest shared run; of several, the first one in the first word, and then in the second. -/
def longestRun (a b : List Char) : SharedRun :=
  (runs 0 a b).foldl (fun best r => if best.length < r.length then r else best) ⟨0, 0, 0⟩

/-- How many characters two words share, looking at most `fuel` levels deep. -/
def sharedLength : (fuel : Nat) → List Char → List Char → Nat
  | 0, _, _ => 0
  | fuel + 1, a, b =>
    let r := longestRun a b
    if r.length = 0 then 0
    else
      sharedLength fuel (a.take r.first) (b.take r.second) + r.length +
        sharedLength fuel (a.drop (r.first + r.length)) (b.drop (r.second + r.length))

/-- How alike two words are: the characters that they share, of all their characters taken together. -/
structure Likeness where
  shared : Nat
  total : Nat
  deriving DecidableEq, Repr

def likeness (a b : String) : Likeness :=
  ⟨sharedLength a.length a.toList b.toList, a.length + b.length⟩

namespace Likeness

/-- Whether three fifths of the characters at least are shared. -/
def isHigh (l : Likeness) : Bool :=
  3 * l.total ≤ 10 * l.shared

def lt (l m : Likeness) : Bool :=
  l.shared * m.total < m.shared * l.total

end Likeness

/-- Whether the lengths of two words alone let them be alike. -/
def mayBeAlike (a b : String) : Bool :=
  3 * (a.length + b.length) ≤ 10 * min a.length b.length

/-- How many words are named at most. -/
def namedLimit : Nat := 3

/-- The words most like `word`, in their own order. -/
def mostAlike (word : String) (words : List String) : List String :=
  let rated := (words.filter (mayBeAlike word)).map fun w => (likeness w word, w)
  let near := rated.filter fun (l, _) => l.isHigh
  let ranked := near.mergeSort fun (l, v) (m, w) => m.lt l || (!l.lt m && !(v < w))
  ((ranked.take namedLimit).map Prod.snd).mergeSort fun v w => !(w < v)

end MachineBundle.Text
