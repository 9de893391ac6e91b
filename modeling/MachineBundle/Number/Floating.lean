import MachineBundle.Number.Shortest

/-!
# Floats as text

Floats are written with their shortest decimal, positionally from `1e-4` up to `1e16`, and read from decimals
with correct rounding.
-/

namespace MachineBundle.Number

def digitText (n : Nat) : List Char :=
  Nat.toDigits 10 n

def zeros (n : Nat) : List Char :=
  List.replicate n '0'

/-- An exponent has a sign and at least two digits. -/
def exponentText (e : Int) : List Char :=
  let digits := digitText e.natAbs
  'e' :: (if e < 0 then '-' else '+') :: (zeros (2 - digits.length) ++ digits)

/-- The decimal `d · 10 ^ e`, with a digit on either side of the point unless it has an exponent. -/
def decimalText (d : Nat) (e : Int) : List Char :=
  let digits := digitText d
  let point : Int := digits.length + e
  if -4 < point && point ≤ 16 then
    if point ≤ 0 then '0' :: '.' :: (zeros (-point).toNat ++ digits)
    else if digits.length ≤ point.toNat then digits ++ zeros (point.toNat - digits.length) ++ ['.', '0']
    else digits.take point.toNat ++ '.' :: digits.drop point.toNat
  else
    match digits with
    | [] => []
    | [c] => c :: exponentText (point - 1)
    | c :: r => c :: '.' :: (r ++ exponentText (point - 1))

/-- The text of a finite, positive float with the given fields of its encoding. -/
def magnitudeText (exponent fraction : Nat) : List Char :=
  let m := if exponent = 0 then fraction else fraction + 0x10000000000000
  let q : Int := (if exponent = 0 then 1 else exponent) - 1075
  let (d, e) := shortest (.around m q (fraction = 0 && 1 < exponent))
  decimalText d e

def floatText (x : Float) : String :=
  let bits := x.toBits.toNat
  let exponent := bits / 0x10000000000000 % 0x800
  let fraction := bits % 0x10000000000000
  let sign := if bits / 0x8000000000000000 = 1 then ['-'] else []
  if exponent = 2047 then
    if fraction = 0 then String.ofList (sign ++ ['i', 'n', 'f']) else "nan"
  else if exponent = 0 && fraction = 0 then String.ofList (sign ++ ['0', '.', '0'])
  else String.ofList (sign ++ magnitudeText exponent fraction)

def infinity : Float := Float.ofBits 0x7FF0000000000000

def notANumber : Float := Float.ofBits 0x7FF8000000000000

/-- The float nearest to `d · 10 ^ e`. Beyond the range of floats the result is infinite or zero. -/
def ofDecimal (d : Nat) (e : Int) : Float :=
  let magnitude : Int := (digitText d).length + e
  if d = 0 then 0.0
  else if 400 < magnitude then infinity
  else if magnitude < -400 then 0.0
  else if 0 ≤ e then Float.ofScientific d false e.toNat
  else Float.ofScientific d true (-e).toNat

/-- The float nearest to an integer. -/
def ofInt (n : Int) : Float :=
  let x := ofDecimal n.natAbs 0
  if n < 0 then -x else x

/-- The least whole number that rounds to no finite float. -/
def floatLimit : Nat := Nat.pow 2 1024 - Nat.pow 2 970

end MachineBundle.Number
