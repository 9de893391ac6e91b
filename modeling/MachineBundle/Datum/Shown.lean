import MachineBundle.Datum.Basic
import MachineBundle.Text.Quoted

/-!
# Data as messages show it

Text is shown quoted inside other values and bare on its own; everything else has one form for both, dates apart.
-/

namespace MachineBundle

/-- The decimal digits of `n`, with leading zeros up to `width`. -/
def paddedNumber (width n : Nat) : String :=
  let digits := Nat.toDigits 10 n
  String.ofList (List.replicate (width - digits.length) '0' ++ digits)

def Date.iso (d : Date) : String :=
  paddedNumber 4 d.year ++ "-" ++ paddedNumber 2 d.month ++ "-" ++ paddedNumber 2 d.day

def TimeOfDay.iso (t : TimeOfDay) : String :=
  paddedNumber 2 t.hour ++ ":" ++ paddedNumber 2 t.minute ++ ":" ++ paddedNumber 2 t.second ++
    (if t.microsecond = 0 then "" else "." ++ paddedNumber 6 t.microsecond)

/-- The zone at the end of a point in time. -/
def zoneSuffix (minutes : Int) : String :=
  (if minutes < 0 then "-" else "+") ++ paddedNumber 2 (minutes.natAbs / 60) ++ ":" ++
    paddedNumber 2 (minutes.natAbs % 60)

/-- A distance in time of a number of minutes, in whole days and the seconds left over. -/
def distanceShown (minutes : Int) : String :=
  let days := Int.fdiv minutes 1440
  let seconds := Int.fmod minutes 1440 * 60
  let parts := (if days = 0 then [] else ["days=" ++ toString days]) ++
    (if seconds = 0 then [] else ["seconds=" ++ toString seconds])
  "datetime.timedelta(" ++ ", ".intercalate parts ++ ")"

def zoneShown (minutes : Int) : String :=
  if minutes = 0 then "datetime.timezone.utc" else "datetime.timezone(" ++ distanceShown minutes ++ ")"

def Date.fields (d : Date) : List Nat :=
  [d.year, d.month, d.day]

/-- The fields of a time; seconds and fractions are left out where they are zero. -/
def TimeOfDay.fields (t : TimeOfDay) : List Nat :=
  [t.hour, t.minute] ++
    (if t.microsecond ≠ 0 then [t.second, t.microsecond] else if t.second ≠ 0 then [t.second] else [])

/-- One byte between quotes of the kind `quote`. -/
def shownByte (quote : Char) (b : UInt8) : List Char :=
  let c := Char.ofNat b.toNat
  if c = quote || c = '\\' then ['\\', c]
  else if c = '\n' then ['\\', 'n']
  else if c = '\r' then ['\\', 'r']
  else if c = '\t' then ['\\', 't']
  else if 0x20 ≤ b && b < 0x7F then [c]
  else '\\' :: 'x' :: Text.hexDigits 2 b.toNat

def shownBytes (bytes : List UInt8) : String :=
  let q := Text.chooseQuote (bytes.map fun b => Char.ofNat b.toNat)
  String.ofList ('b' :: q :: (bytes.flatMap (shownByte q) ++ [q]))

def shownBool (b : Bool) : String :=
  if b then "True" else "False"

namespace Datum

mutual
/-- The form in which a value stands inside another. -/
def shown : Datum → String
  | .null => "None"
  | .bool b => shownBool b
  | .int n => toString n
  | .float x => Number.floatText x
  | .text s => Text.quoted s
  | .bytes b => shownBytes b
  | .date d => "datetime.date(" ++ ", ".intercalate (d.fields.map toString) ++ ")"
  | .moment d t zone =>
    let zoneField := match zone with
      | none => []
      | some minutes => ["tzinfo=" ++ zoneShown minutes]
    "datetime.datetime(" ++ ", ".intercalate ((d.fields ++ t.fields).map toString ++ zoneField) ++ ")"
  | .list items => "[" ++ ", ".intercalate (shownItems items) ++ "]"
  | .pair a b => "(" ++ shown a ++ ", " ++ shown b ++ ")"
  | .map entries => "\x7b" ++ ", ".intercalate (shownEntries entries) ++ "\x7d"
  | .set [] => "set()"
  | .set (m :: ms) => "\x7b" ++ ", ".intercalate (shownItems (m :: ms)) ++ "\x7d"
  | .innerList => "[...]"
  | .innerMap => "\x7b...\x7d"
def shownItems : List Datum → List String
  | [] => []
  | d :: r => shown d :: shownItems r
def shownEntries : List (Datum × Datum) → List String
  | [] => []
  | (k, v) :: r => (shown k ++ ": " ++ shown v) :: shownEntries r
end

/-- The form in which a value stands on its own. -/
def plain : Datum → String
  | .text s => s
  | .date d => d.iso
  | .moment d t zone => d.iso ++ " " ++ t.iso ++ (zone.map zoneSuffix).getD ""
  | d => shown d

end Datum

end MachineBundle
