/-!
# Lines

Line ends are read in three spellings and written in one. Two notions of a line occur: entries of a
manifest are separated by line feeds only, names in a bundle by every line boundary of Unicode.
-/

namespace MachineBundle.Text

/-- Every line end, also `CR LF` and a lone `CR`, as one line feed. -/
def unifyBreaks : List Char → List Char
  | [] => []
  | '\r' :: '\n' :: r => '\n' :: unifyBreaks r
  | '\r' :: r => '\n' :: unifyBreaks r
  | c :: r => c :: unifyBreaks r

/-- The characters that end a line. -/
def isLineBoundary (c : Char) : Bool :=
  let n := c.toNat
  (0x0A ≤ n && n ≤ 0x0D) || (0x1C ≤ n && n ≤ 0x1E) || n == 0x85 || n == 0x2028 || n == 0x2029

/-- `c` in front of the first line. -/
def consFirst (c : Char) : List (List Char) → List (List Char)
  | [] => [[c]]
  | l :: ls => (c :: l) :: ls

/-- The lines of a text without their ends. A boundary at the very end opens no further line. -/
def lines : List Char → List (List Char)
  | [] => []
  | '\r' :: '\n' :: r => [] :: lines r
  | c :: r => if isLineBoundary c then [] :: lines r else consFirst c (lines r)

/-- The pieces between line feeds; a text without any is one piece. -/
def entries : List Char → List (List Char)
  | [] => [[]]
  | c :: r => if c = '\n' then [] :: entries r else consFirst c (entries r)

end MachineBundle.Text
