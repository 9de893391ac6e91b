import MachineBundle.Text.Stream

/-!
# What documents are read from

A document is read from text in blocks, none of which is looked at before it is needed. The text may therefore end
too soon: before a block with a character that no document may hold, or with bytes that spell no text.
-/

namespace MachineBundle.Yaml

/-- Why a document does not yield a value. -/
inductive Problem where
  /-- The text is no document. -/
  | malformed
  /-- The text ends where more has to follow. -/
  | unfinished
  /-- The bytes are no text. -/
  | undecodable (m : Text.Malformed)
  /-- A scalar is no value of its type. -/
  | badScalar (message : String)
  /-- A number is too large for its purpose. -/
  | beyondRange (message : String)
  /-- A number has too many digits to be read. -/
  | tooLong (digits : Nat)
  /-- A scalar is none of the words of its type. -/
  | unknownWord
  /-- A scalar that its type requires to be there is empty. -/
  | emptyScalar
  /-- A scalar does not have the shape of its type. -/
  | shapeless
  /-- A collection stands where its type needs a scalar. -/
  | notScalar
  /-- Collections lie too deep in one another, or a mapping stands for a scalar that it gives by itself. -/
  | tooDeep
  deriving DecidableEq, Repr

/-- The text of a document as far as it can be read, and what is met where it cannot be read further. -/
structure Source where
  text : List Char
  failure : Option Problem

/-- The characters that a document may hold. -/
def isAllowed (c : Char) : Bool :=
  let n := c.toNat
  n == 0x09 || n == 0x0A || n == 0x0D || (0x20 ≤ n && n ≤ 0x7E) || n == 0x85 || (0xA0 ≤ n && n ≤ 0xD7FF) ||
    (0xE000 ≤ n && n ≤ 0xFFFD) || 0x10000 ≤ n

namespace Source

/-- The blocks up to the first one with a character that is not allowed. -/
def ofBlocks (failure : Option Problem) : List (List Char) → Source
  | [] => ⟨[], failure⟩
  | block :: more =>
    if block.all isAllowed then
      let rest := ofBlocks failure more
      ⟨block ++ rest.text, rest.failure⟩
    else ⟨[], some .malformed⟩

/-- The first two pieces of a text are one block. -/
def ofPieces (failure : Option Problem) : List (List Char) → Source
  | a :: b :: more => ofBlocks failure ((a ++ b) :: more)
  | pieces => if failure.isSome then ⟨[], failure⟩ else ofBlocks none pieces

/-- The pieces of a text that is decoded already. -/
def piecesOf : Nat → List Char → List (List Char)
  | 0, _ => []
  | n + 1, cs =>
    let length := Text.Stream.pieceLength
    if cs.isEmpty then [] else cs.take length :: piecesOf n (cs.drop length)

/-- A document in bytes. Line ends are unified. -/
def ofBytes (bytes : ByteArray) : Source :=
  match Text.decode bytes with
  | .ok s =>
    let cs := Text.unifyBreaks s.toList
    if cs.all isAllowed then ⟨cs, none⟩ else ofPieces none (piecesOf (cs.length + 1) cs)
  | .error _ =>
    let (pieces, fault) := Text.piecesOf bytes.toList
    ofPieces (fault.map .undecodable) pieces

end Source

end MachineBundle.Yaml
