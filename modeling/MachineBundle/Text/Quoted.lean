import MachineBundle.Text.Hex
import MachineBundle.Text.Printable

/-!
# Quoted text

Text as messages show it: between single quotes, or between double quotes if it holds a single one and no
double one, with everything that is not printable escaped.
-/

namespace MachineBundle.Text

/-- The shortest of the three numeric escapes that fits. -/
def numericEscape (n : Nat) : List Char :=
  if n ≤ 0xFF then '\\' :: 'x' :: hexDigits 2 n
  else if n ≤ 0xFFFF then '\\' :: 'u' :: hexDigits 4 n
  else '\\' :: 'U' :: hexDigits 8 n

/-- One character between quotes of the kind `quote`. -/
def quotedChar (quote c : Char) : List Char :=
  if c = quote || c = '\\' then ['\\', c]
  else if c = '\n' then ['\\', 'n']
  else if c = '\r' then ['\\', 'r']
  else if c = '\t' then ['\\', 't']
  else if isPrintable c then [c]
  else numericEscape c.toNat

/-- The quote that needs the fewer escapes, the single one if both or neither occur. -/
def chooseQuote (cs : List Char) : Char :=
  if cs.contains '\'' && !cs.contains '"' then '"' else '\''

def quoted (s : String) : String :=
  let q := chooseQuote s.toList
  String.ofList (q :: (s.toList.flatMap (quotedChar q) ++ [q]))

end MachineBundle.Text
