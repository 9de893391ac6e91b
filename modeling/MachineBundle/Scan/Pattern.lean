import MachineBundle.Text.Alphanumeric
import MachineBundle.Text.Blank

/-!
# Patterns around a number

A pattern is a sequence of parts, one of which is a run of digits that it captures. Parts take as much as they can
and give back what the rest needs; of several matches the leftmost counts.
-/

namespace MachineBundle.Scan

inductive Part where
  | literal (cs : List Char)
  | blanks
  | someBlanks
  /-- Anything up to the end of the line. -/
  | restOfLine
  /-- A place that no letter, digit or low line follows. -/
  | wordEnd
  | digits
  deriving DecidableEq, Repr

abbrev Pattern := List Part

def isDigit (c : Char) : Bool :=
  '0' ≤ c && c ≤ '9'

/-- The input after a literal. -/
def afterLiteral? : List Char → List Char → Option (List Char)
  | [], input => some input
  | _ :: _, [] => none
  | c :: cs, d :: input => if c = d then afterLiteral? cs input else none

/-- The longest run of characters of a class, backwards and in front of `passed`, and the input after it. -/
def takeRun (p : Char → Bool) (passed : List Char) : List Char → List Char × List Char
  | [] => (passed, [])
  | c :: cs => if p c then takeRun p (c :: passed) cs else (passed, c :: cs)

/-- Tries `rest` on the input; as long as it fails, one more of the characters passed is given back. -/
def giveBack {α : Type} (rest : List Char → Option α) : (passed input : List Char) → Option α
  | [], input => rest input
  | c :: passed, input =>
    match rest input with
    | some a => some a
    | none => giveBack rest passed (c :: input)

/-- Passes over as many characters of a class as possible such that `rest` succeeds on what follows. -/
def many {α : Type} (p : Char → Bool) (rest : List Char → Option α) (input : List Char) : Option α :=
  let (passed, after) := takeRun p [] input
  giveBack rest passed after

/-- Like `many`, but at least one character is passed over. -/
def many1 {α : Type} (p : Char → Bool) (rest : List Char → Option α) : List Char → Option α
  | [] => none
  | c :: cs => if p c then many p rest cs else none

/-- Like `giveBack`, but one character is kept; `rest` also gets the characters kept, backwards. -/
def giveBackTo1 {α : Type} (rest : List Char → List Char → Option α) : (passed input : List Char) → Option α
  | [], _ => none
  | c :: passed, input =>
    match rest (c :: passed) input with
    | some a => some a
    | none => giveBackTo1 rest passed (c :: input)

/-- Like `many1` for digits, which `rest` gets backwards. -/
def capture {α : Type} (rest : List Char → List Char → Option α) (input : List Char) : Option α :=
  let (passed, after) := takeRun isDigit [] input
  giveBackTo1 rest passed after

/-- Matches the parts at the beginning of the input. The digits captured, of which `held` are known, come out
backwards. -/
def matchHere (held : List Char) : Pattern → List Char → Option (List Char)
  | [], _ => some held
  | .literal cs :: ps, input =>
    match afterLiteral? cs input with
    | some rest => matchHere held ps rest
    | none => none
  | .blanks :: ps, input => many Text.isBlank (matchHere held ps) input
  | .someBlanks :: ps, input => many1 Text.isBlank (matchHere held ps) input
  | .restOfLine :: ps, input => many (· != '\n') (matchHere held ps) input
  | .wordEnd :: ps, input => if input.head?.any Text.isWordChar then none else matchHere held ps input
  | .digits :: ps, input => capture (fun ds rest => matchHere ds ps rest) input

/-- The digits captured by the leftmost match. -/
def search (p : Pattern) : List Char → Option (List Char)
  | [] => (matchHere [] p []).map List.reverse
  | c :: cs =>
    match matchHere [] p (c :: cs) with
    | some ds => some ds.reverse
    | none => search p cs

/-- The number that a run of digits spells. -/
def numberOf (ds : List Char) : Nat :=
  ds.foldl (fun n d => 10 * n + (d.toNat - 48)) 0

/-- The longest run of digits that is read as a number. -/
def digitLimit : Nat := 4300

/-- A run of digits too long to be read. -/
structure TooLong where
  length : Nat
  deriving DecidableEq, Repr

/-- The number at the leftmost match of a pattern. -/
def firstNumber (p : Pattern) (text : String) : Except TooLong (Option Nat) :=
  match search p text.toList with
  | none => .ok none
  | some [] => .ok none
  | some (d :: ds) =>
    if digitLimit < (d :: ds).length then .error ⟨(d :: ds).length⟩ else .ok (some (numberOf (d :: ds)))

end MachineBundle.Scan
