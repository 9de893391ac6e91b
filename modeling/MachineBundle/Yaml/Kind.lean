import MachineBundle.Text.Hex

/-!
# Kinds of values

Each node has a kind of value: the one that its tag names, or else the one that its text looks like. What text looks
like is said here as a grammar for each kind.
-/

namespace MachineBundle.Yaml

inductive Kind where
  | null
  | bool
  | int
  | float
  | timestamp
  | merge
  /-- The value of a mapping that stands for a scalar. -/
  | value
  | binary
  | omap
  | pairs
  | set
  | text
  | sequence
  | mapping
  | unknown
  deriving DecidableEq, Repr

/-! ## The looks of scalars -/

def isDigitOrLow (c : Char) : Bool :=
  c.isDigit || c = '_'

/-- Whether there is at least one character and all are of a class. -/
def isRunOf (p : Char → Bool) (cs : List Char) : Bool :=
  !cs.isEmpty && cs.all p

def withoutSign : List Char → List Char
  | '+' :: r => r
  | '-' :: r => r
  | r => r

/-- The pieces between colons. -/
def pieces (cs : List Char) : List (List Char) :=
  cs.splitOn ':'

/-- Digits of a place after the first in base sixty. -/
def isSixtieth : List Char → Bool
  | [a] => a.isDigit
  | [a, b] => '0' ≤ a && a ≤ '5' && b.isDigit
  | _ => false

/-- A digit and then digits and low lines. -/
def isDigits : List Char → Bool
  | c :: r => c.isDigit && r.all isDigitOrLow
  | [] => false

def isNull (s : String) : Bool :=
  ["", "~", "null", "Null", "NULL"].contains s

/-- The words for true and false. -/
def wordTruth? (lowered : String) : Option Bool :=
  if ["yes", "true", "on"].contains lowered then some true
  else if ["no", "false", "off"].contains lowered then some false
  else none

/-- The words for true and false, in lower case, in upper case, or with a capital. -/
def isBool (s : String) : Bool :=
  ["yes", "Yes", "YES", "no", "No", "NO", "true", "True", "TRUE", "false", "False", "FALSE", "on", "On", "ON",
    "off", "Off", "OFF"].contains s

/-- Base sixty: places between colons, the first of them without a leading zero. -/
def isSexagesimal (cs : List Char) : Bool :=
  match pieces cs with
  | first :: second :: more =>
    isDigits first && first.head? ≠ some '0' && (second :: more).all isSixtieth
  | _ => false

def isInt (s : String) : Bool :=
  let cs := withoutSign s.toList
  match cs with
  | '0' :: 'b' :: r => isRunOf (fun c => c = '0' || c = '1' || c = '_') r
  | '0' :: 'x' :: r => isRunOf (fun c => (Text.hexValue? c).isSome || c = '_') r
  | ['0'] => true
  | '0' :: r => r.all fun c => ('0' ≤ c && c ≤ '7') || c = '_'
  | _ => isDigits cs || isSexagesimal cs

/-- An exponent has a sign. -/
def isExponent : List Char → Bool
  | [] => true
  | e :: sign :: r => (e = 'e' || e = 'E') && (sign = '+' || sign = '-') && isRunOf Char.isDigit r
  | _ => false

/-- What comes after the point: digits and low lines, and perhaps an exponent. -/
def isFraction (cs : List Char) : Bool :=
  isExponent (cs.dropWhile isDigitOrLow)

def isInfinity (s : String) : Bool :=
  [".inf", ".Inf", ".INF"].contains s

def isNotANumber (s : String) : Bool :=
  [".nan", ".NaN", ".NAN"].contains s

/-- Base sixty with a point after the last place. -/
def isSexagesimalFloat (whole fraction : List Char) : Bool :=
  match pieces whole with
  | first :: second :: more => isDigits first && (second :: more).all isSixtieth && fraction.all isDigitOrLow
  | _ => false

def isFloat (s : String) : Bool :=
  let cs := withoutSign s.toList
  let (whole, point) := cs.span (· ≠ '.')
  match point with
  | [] => false
  | _ :: fraction =>
    if whole.isEmpty then
      isNotANumber s || isInfinity (String.ofList cs) ||
        (cs = s.toList && fraction.head?.any Char.isDigit && isFraction fraction)
    else (isDigits whole && isFraction fraction) || isSexagesimalFloat whole fraction

/-! ## Points in time -/

/-- Takes between `least` and `most` digits. -/
def takeDigits (least most : Nat) (cs : List Char) : Option (List Char × List Char) :=
  let digits := (cs.take most).takeWhile Char.isDigit
  if digits.length < least then none else some (digits, cs.drop digits.length)

def takeChar (c : Char) : List Char → Option (List Char)
  | d :: r => if c = d then some r else none
  | [] => none

/-- The zone of a point in time: nothing, universal time, or a sign with hours and minutes. -/
inductive Zone where
  | none
  | universal
  | offset (isNegative : Bool) (hours minutes : List Char)

structure Clock where
  hour : List Char
  minute : List Char
  second : List Char
  fraction : List Char
  zone : Zone

structure Timestamp where
  year : List Char
  month : List Char
  day : List Char
  clock : Option Clock

def isSpaceOrTab (c : Char) : Bool :=
  c = ' ' || c = '\t'

/-- A zone up to the end of the text. -/
def zone? (cs : List Char) : Option Zone :=
  match cs.dropWhile isSpaceOrTab with
  | [] => if cs.isEmpty then some .none else Option.none
  | ['Z'] => some .universal
  | sign :: r =>
    if sign = '+' || sign = '-' then do
      let (hours, r) ← takeDigits 1 2 r
      match r with
      | [] => return .offset (sign = '-') hours []
      | r =>
        let (minutes, r) ← takeDigits 2 2 (← takeChar ':' r)
        if r.isEmpty then return .offset (sign = '-') hours minutes else Option.none
    else Option.none

def fraction (cs : List Char) : List Char × List Char :=
  match cs with
  | '.' :: r => r.span Char.isDigit
  | _ => ([], cs)

/-- A time of day up to the end of the text, from the separator after the date on. -/
def clock? (cs : List Char) : Option Clock := do
  let r ← match cs with
    | 'T' :: r | 't' :: r => some r
    | c :: r => if isSpaceOrTab c then some (r.dropWhile isSpaceOrTab) else none
    | [] => none
  let (hour, r) ← takeDigits 1 2 r
  let (minute, r) ← takeDigits 2 2 (← takeChar ':' r)
  let (second, r) ← takeDigits 2 2 (← takeChar ':' r)
  let (fraction, r) := fraction r
  return ⟨hour, minute, second, fraction, ← zone? r⟩

/-- The parts of a date, and of the time of day if there is one. -/
def timestamp? (s : String) : Option Timestamp := do
  let (year, r) ← takeDigits 4 4 s.toList
  let (month, r) ← takeDigits 1 2 (← takeChar '-' r)
  let (day, r) ← takeDigits 1 2 (← takeChar '-' r)
  match r with
  | [] => return ⟨year, month, day, none⟩
  | r => return ⟨year, month, day, some (← clock? r)⟩

/-- Text looks like a date alone only if month and day have two digits. -/
def isTimestamp (s : String) : Bool :=
  match timestamp? s with
  | none => false
  | some t => t.clock.isSome || (t.month.length = 2 && t.day.length = 2)

/-! ## Kinds of nodes -/

/-- A line feed at the very end does not count for the looks of a text, but it is not nothing either. -/
def withoutLastBreak (cs : List Char) : List Char :=
  if cs.getLast? = some '\n' && 1 < cs.length then cs.dropLast else cs

/-- Marks that stand for no value. -/
def isMark (s : String) : Bool :=
  ["!", "&", "*"].contains s

/-- The kind that the text of a scalar looks like. -/
def Kind.ofText (text : String) : Kind :=
  let s := String.ofList (withoutLastBreak text.toList)
  if isBool s then .bool
  else if isFloat s then .float
  else if isInt s then .int
  else if s = "<<" then .merge
  else if isNull s then .null
  else if isTimestamp s then .timestamp
  else if s = "=" then .value
  else if isMark s then .unknown
  else .text

/-- The kinds that tags name, with the ends of the tags. -/
def Kind.tagged : List (String × Kind) :=
  [("null", .null), ("bool", .bool), ("int", .int), ("float", .float), ("binary", .binary),
    ("timestamp", .timestamp), ("omap", .omap), ("pairs", .pairs), ("set", .set), ("str", .text),
    ("seq", .sequence), ("map", .mapping), ("merge", .merge), ("value", .value)]

def Kind.ofTag (tag : String) : Kind :=
  ((tagged.find? fun (name, _) => tag = "tag:yaml.org,2002:" ++ name).map Prod.snd).getD .unknown

/-- The tag that asks for the kind that the text looks like. -/
def openTag : String := "!"

/-- The kind that a tag names, unless it leaves it open. -/
def Kind.ofTag? (tag : Option String) : Option Kind :=
  match tag with
  | none => none
  | some t => if t = openTag then none else some (ofTag t)

/-- The kind of a scalar. Without a tag only plain text is read for its looks. -/
def Kind.ofScalar (tag : Option String) (text : String) (isPlain : Bool) : Kind :=
  match Kind.ofTag? tag with
  | some k => k
  | none => if isPlain || tag.isSome then .ofText text else .text

end MachineBundle.Yaml
