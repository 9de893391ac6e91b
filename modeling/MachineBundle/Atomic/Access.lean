import MachineBundle.Fault

/-!
# Access to files

How a file is opened is told by a few letters: one for the purpose, and perhaps others for bytes or text and for access
in both directions.
-/

namespace MachineBundle

/-- What a file is opened for. -/
inductive Purpose where
  | read
  | overwrite
  | append
  /-- Only a file that is not there can be opened. -/
  | create
  deriving DecidableEq, Repr

def Purpose.ofLetter? : Char → Option Purpose
  | 'r' => some .read
  | 'w' => some .overwrite
  | 'a' => some .append
  | 'x' => some .create
  | _ => none

structure Access where
  purpose : Purpose
  isBinary : Bool
  /-- Whether the file can be both read and written. -/
  isFull : Bool
  deriving DecidableEq, Repr

namespace Access

def isLetter (c : Char) : Bool :=
  (Purpose.ofLetter? c).isSome || c = '+' || c = 'b' || c = 't'

/-- The access that letters ask for. None may be repeated, and exactly one has to name a purpose. -/
def ofLetters (letters : String) : Except ModeFault Access :=
  let cs := letters.toList
  if cs.contains '\x00' then .error .nullCharacter
  else if !cs.all isLetter || !cs.Nodup then .error (.unknown letters)
  else if cs.contains 'b' && cs.contains 't' then .error .textAndBytes
  else
    match cs.filterMap Purpose.ofLetter? with
    | [purpose] => .ok ⟨purpose, cs.contains 'b', cs.contains '+'⟩
    | [] => .error .noPurpose
    | _ => .error .severalPurposes

def isWritable (a : Access) : Bool :=
  a.purpose ≠ .read || a.isFull

end Access

end MachineBundle
