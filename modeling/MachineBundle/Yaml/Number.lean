import MachineBundle.Number.Floating
import MachineBundle.Text.LetterCase
import MachineBundle.Text.Numeral
import MachineBundle.Text.Quoted
import MachineBundle.Scan.Pattern
import MachineBundle.Yaml.Kind
import MachineBundle.Yaml.Source

/-!
# Numbers in documents

Integers in four bases and in base sixty, and floats. A tag can ask for a number where the text does not look like
one, so that reading may fail.
-/

namespace MachineBundle.Yaml

def withoutLows (s : String) : List Char :=
  s.toList.filter (· ≠ '_')

/-- A sign, if there is one, and what follows it. -/
def signed (cs : List Char) : Bool × List Char :=
  (cs.head? = some '-', withoutSign cs)

/-! ## Integers -/

/-- The message shows no more than two hundred characters. -/
def badInteger (base : Nat) (cs : List Char) : Problem :=
  let shown := (Text.quoted (String.ofList cs)).toList.take 200
  .badScalar ("invalid literal for int() with base " ++ toString base ++ ": " ++ String.ofList shown)

/-- The mark that may stand in front of digits of a base. -/
def baseMark? (base : Nat) : Option Char :=
  if base = 2 then some 'b' else if base = 8 then some 'o' else if base = 16 then some 'x' else none

def withoutBaseMark (base : Nat) (cs : List Char) : List Char :=
  match cs with
  | '0' :: c :: r => if some (Char.toLower c) = baseMark? base then r else cs
  | _ => cs

def isDigitOf (base : Nat) (c : Char) : Bool :=
  (Text.hexValue? c).any (· < base)

/-- The number that digits of a base spell. -/
def digitsValue (base : Nat) (digits : List Char) : Nat :=
  digits.foldl (fun n c => base * n + (Text.hexValue? c).getD 0) 0

/-- An integer in a base, between blanks and with a sign. Numbers of too many decimal digits are refused before
anything else. -/
def integer (base : Nat) (cs : List Char) : Except Problem Int :=
  let (isNegative, r) := signed ((Text.numeral cs).dropWhile Text.isNumeralBlank)
  let (digits, rest) := (withoutBaseMark base r).span (isDigitOf base)
  if base = 10 && Scan.digitLimit < digits.length then .error (.tooLong digits.length)
  else if digits.isEmpty || !rest.all Text.isNumeralBlank then .error (badInteger base cs)
  else
    let n : Int := digitsValue base digits
    .ok (if isNegative then -n else n)

/-- Places of base sixty, the highest first. -/
def sexagesimal (places : List Int) : Int :=
  places.foldl (fun n d => 60 * n + d) 0

def magnitude (cs : List Char) : Except Problem Int :=
  match cs with
  | [] => .error .emptyScalar
  | ['0'] => .ok 0
  | '0' :: 'b' :: r => integer 2 r
  | '0' :: 'x' :: r => integer 16 r
  | '0' :: r => integer 8 ('0' :: r)
  | cs =>
    if cs.contains ':' then do return sexagesimal (← (pieces cs).mapM (integer 10))
    else integer 10 cs

def intValue (s : String) : Except Problem Int := do
  let (isNegative, cs) := signed (withoutLows s)
  let n ← magnitude cs
  return if isNegative then -n else n

/-! ## Floats -/

def badFloat (cs : List Char) : Problem :=
  .badScalar ("could not convert string to float: " ++ Text.quoted (String.ofList cs))

/-- The exponent after the digits of a decimal, if it is well-formed. -/
def exponentOf? : List Char → Option Int
  | [] => some 0
  | e :: r =>
    let (isNegative, digits) := signed r
    if e = 'e' && isRunOf Char.isDigit digits then
      let n : Int := Scan.numberOf digits
      some (if isNegative then -n else n)
    else none

/-- A decimal in lower case, with or without a point and an exponent. -/
def decimal? (cs : List Char) : Option Float :=
  let (whole, r) := cs.span Char.isDigit
  let (part, r) := match r with
    | '.' :: r => r.span Char.isDigit
    | r => ([], r)
  if whole.isEmpty && part.isEmpty then none
  else (exponentOf? r).map fun e => Number.ofDecimal (Scan.numberOf (whole ++ part)) (e - part.length)

def trimNumeral (cs : List Char) : List Char :=
  ((cs.dropWhile Text.isNumeralBlank).reverse.dropWhile Text.isNumeralBlank).reverse

/-- A float in lower case, between blanks and with a sign. -/
def float (cs : List Char) : Except Problem Float :=
  let (isNegative, r) := signed (trimNumeral (Text.numeral cs))
  let x? :=
    if r = "inf".toList || r = "infinity".toList then some Number.infinity
    else if r = "nan".toList then some Number.notANumber
    else decimal? r
  match x? with
  | some x => .ok (if isNegative then -x else x)
  | none => .error (badFloat cs)

/-- Places of base sixty, the lowest first. A place whose weight is beyond the range of floats is refused, even if it
holds a zero. -/
def sexagesimalFloat (weight : Nat) (sum : Float) : List Float → Except Problem Float
  | [] => .ok sum
  | d :: r =>
    if Number.floatLimit ≤ weight then .error (.beyondRange "int too large to convert to float")
    else sexagesimalFloat (60 * weight) (sum + d * Number.ofDecimal weight 0) r

def notANumberWord : List Char := ".nan".toList

def floatMagnitude (cs : List Char) : Except Problem Float :=
  if cs = ".inf".toList then .ok Number.infinity
  else if cs = notANumberWord then .ok Number.notANumber
  else if cs.contains ':' then do sexagesimalFloat 1 0.0 (← (pieces cs).mapM float).reverse
  else float cs

/-- What a float is read from. -/
def floatText (s : String) : List Char :=
  (Text.lower (String.ofList (withoutLows s))).toList

/-- Whether a float is spelled by the word for none. -/
def isNotANumberWord (s : String) : Bool :=
  withoutSign (floatText s) = notANumberWord

def floatValue (s : String) : Except Problem Float := do
  let cs := floatText s
  if cs.isEmpty then throw .emptyScalar
  let (isNegative, cs) := signed cs
  let x ← floatMagnitude cs
  return if isNegative then -x else x

end MachineBundle.Yaml
