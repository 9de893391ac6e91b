import MachineBundle.Text.Line
import MachineBundle.Text.Utf8

/-!
# Reading text piece by piece

A long text is not decoded at once: its bytes come in chunks, and what has been decoded is handed out in pieces of
equal length. A fault in the bytes is met only when the chunk with it is needed, and its place is counted from the
first byte of that chunk that has not been decoded yet.
-/

namespace MachineBundle.Text

/-- Bytes on their way to characters. -/
structure Stream where
  /-- The bytes that are still to come. -/
  bytes : List UInt8
  /-- The bytes of a character that is not complete yet. -/
  pending : List UInt8
  /-- A carriage return is held back, since a line feed may follow it. -/
  heldReturn : Bool
  /-- Characters that have not been handed out yet. -/
  ready : List Char
  /-- The sizes of the last chunk in bytes and in characters. -/
  lastChunk : Nat × Nat

namespace Stream

def start (bytes : List UInt8) : Stream :=
  ⟨bytes, [], false, [], (0, 0)⟩

/-- The number of characters in a piece. -/
def pieceLength : Nat := 4096

/-- The usual number of bytes in a chunk. -/
def chunkSize : Nat := 8192

/-- The size of the next chunk where `wanted` characters are missing. It grows if the last one held few. -/
def nextSize (s : Stream) (wanted : Nat) : Nat :=
  max chunkSize (s.lastChunk.1 * wanted / s.lastChunk.2)

/-- Whether bytes may be the beginning of a character. Half of a pair counts as one here, although it is refused once
it is complete. -/
def isBrokenOff (m : Malformed) (rest : List UInt8) : Bool :=
  m.reason = .unexpectedEnd ||
    match rest with
    | [0xED, b] => 0xA0 ≤ b && b ≤ 0xBF
    | _ => false

/-- Decodes bytes; a character that they break off at the end is kept, unless nothing can follow. -/
def decodeChunk (isLast : Bool) (bytes : List UInt8) : Except Malformed (List Char × List UInt8) :=
  match decode ⟨bytes.toArray⟩ with
  | .ok s => .ok (s.toList, [])
  | .error m =>
    let rest := bytes.drop m.start
    if isLast || !isBrokenOff m rest then .error m
    else
      match decode ⟨(bytes.take m.start).toArray⟩ with
      | .ok s => .ok (s.toList, rest)
      | .error m => .error m

/-- Unifies the line ends of a chunk after a return that was held back, and tells whether one is held back now. -/
def unify (held isLast : Bool) (cs : List Char) : List Char × Bool :=
  if cs.isEmpty && !isLast then ([], held)
  else
    let cs := if held then '\r' :: cs else cs
    if cs.getLast? = some '\r' && !isLast then (unifyBreaks cs.dropLast, true) else (unifyBreaks cs, false)

/-- Decodes the next chunk, and tells whether it was an empty one at the end. -/
def readChunk (wanted : Nat) (s : Stream) : Except Malformed (Bool × Stream) := do
  let size := s.nextSize wanted
  let chunk := s.bytes.take size
  let (cs, pending) ← decodeChunk chunk.isEmpty (s.pending ++ chunk)
  let (cs, heldReturn) := unify s.heldReturn chunk.isEmpty cs
  let isOver := chunk.isEmpty && cs.isEmpty
  return (isOver, ⟨s.bytes.drop size, pending, heldReturn, s.ready ++ cs, (chunk.length, cs.length)⟩)

/-- Decodes chunks until a whole piece is ready or nothing is left. -/
def fill : Nat → Stream → Except Malformed Stream
  | 0, s => .ok s
  | n + 1, s =>
    if pieceLength ≤ s.ready.length then .ok s
    else do
      let (atEnd, s) ← s.readChunk (pieceLength - s.ready.length)
      if atEnd then return s else fill n s

/-- The pieces up to the end or to the first fault. Every chunk but the last two holds a byte. -/
def pieces : Nat → Stream → List (List Char) × Option Malformed
  | 0, _ => ([], none)
  | n + 1, s =>
    match s.fill (s.bytes.length + 2) with
    | .error m => ([], some m)
    | .ok s =>
      if s.ready.isEmpty then ([], none)
      else
        let (more, fault) := pieces n { s with ready := s.ready.drop pieceLength }
        (s.ready.take pieceLength :: more, fault)

end Stream

/-- The pieces of the text that bytes spell, up to the first fault. -/
def piecesOf (bytes : List UInt8) : List (List Char) × Option Malformed :=
  (Stream.start bytes).pieces (bytes.length + 1)

end MachineBundle.Text
