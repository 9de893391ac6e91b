import MachineBundle.Number.Floating

/-!
# Plain data

The values of configuration files and of the fields of log events.
-/

namespace MachineBundle

structure Date where
  year : Nat
  month : Nat
  day : Nat
  deriving DecidableEq, Repr

structure TimeOfDay where
  hour : Nat
  minute : Nat
  second : Nat
  microsecond : Nat
  deriving DecidableEq, Repr

inductive Datum where
  | null
  | bool (b : Bool)
  | int (n : Int)
  | float (x : Float)
  | text (s : String)
  | bytes (b : List UInt8)
  | date (d : Date)
  /-- A point in time; the zone is given by its distance from universal time in minutes. -/
  | moment (d : Date) (t : TimeOfDay) (zone : Option Int)
  | list (items : List Datum)
  | pair (first second : Datum)
  | map (entries : List (Datum × Datum))
  | set (members : List Datum)
  /-- A list that contains itself, seen from inside. -/
  | innerList
  /-- A mapping that contains itself, seen from inside. -/
  | innerMap
  deriving Repr, Inhabited

namespace Datum

/-- Whether the value counts as true: nothing, zero and whatever is empty do not. -/
def truthy : Datum → Bool
  | .null => false
  | .bool b => b
  | .int n => n != 0
  | .float x => x != 0.0
  | .text s => !s.isEmpty
  | .bytes b => !b.isEmpty
  | .list items => !items.isEmpty
  | .map entries => !entries.isEmpty
  | .set members => !members.isEmpty
  | .date _ | .moment .. | .pair .. | .innerList | .innerMap => true

/-- The whole number that a float is, if it is one. -/
def wholeNumber? (x : Float) : Option Int :=
  let bits := x.toBits.toNat
  let exponent := bits / 0x10000000000000 % 0x800
  let fraction := bits % 0x10000000000000
  let sign : Int := if bits / 0x8000000000000000 = 1 then -1 else 1
  if exponent = 2047 then none
  else
    let m := if exponent = 0 then fraction else fraction + 0x10000000000000
    let e := if exponent = 0 then 1 else exponent
    if 1075 ≤ e then some (sign * Int.ofNat (m * Nat.pow 2 (e - 1075)))
    else if m % Nat.pow 2 (1075 - e) = 0 then some (sign * Int.ofNat (m / Nat.pow 2 (1075 - e)))
    else none

/-- The whole number that a truth value, an integer or a float stands for. -/
def asInt? : Datum → Option Int
  | .bool b => some (if b then 1 else 0)
  | .int n => some n
  | .float x => wholeNumber? x
  | _ => none

/-- The days from the first day of the year 1 on, in the calendar of today. -/
def dayNumber (d : Date) : Nat :=
  let y := d.year - 1
  let leapDay := if (d.year % 4 = 0 && d.year % 100 ≠ 0) || d.year % 400 = 0 then 1 else 0
  let before := [0, 31, 59, 90, 120, 151, 181, 212, 243, 273, 304, 334][d.month - 1]?.getD 0
  365 * y + y / 4 - y / 100 + y / 400 + before + (if 2 < d.month then leapDay else 0) + d.day - 1

/-- A point in time in microseconds of universal time. -/
def instant (d : Date) (t : TimeOfDay) (zone : Int) : Int :=
  let minutes : Int := 1440 * dayNumber d + 60 * t.hour + t.minute - zone
  60000000 * minutes + 1000000 * t.second + t.microsecond

/-- Whether two scalars are the same key. Numbers are compared by value, whatever their type, and points in time that
have a zone are the same if they are at the same time. -/
def sameKey (a b : Datum) : Bool :=
  match a, b with
  | .text s, .text t => s == t
  | .text _, _ | _, .text _ => false
  | .null, .null => true
  | .bytes s, .bytes t => s == t
  | .date s, .date t => s == t
  | .moment d s none, .moment e t none => d == e && s == t
  | .moment d s (some y), .moment e t (some z) => instant d s y == instant e t z
  | _, _ =>
    match a.asInt?, b.asInt? with
    | some m, some n => m == n
    | none, none =>
      match a, b with
      | .float x, .float y => x == y
      | _, _ => false
    | _, _ => false

/-- The number of digits of the longest integers that are shown. -/
def longestShown : Nat := 4300

mutual
/-- Whether no integer in a value is too long to be shown. -/
def isShowable : Datum → Bool
  | .int n => n.natAbs < Nat.pow 10 longestShown
  | .list items => areShowable items
  | .pair a b => isShowable a && isShowable b
  | .map entries => entriesAreShowable entries
  | .set members => areShowable members
  | _ => true
def areShowable : List Datum → Bool
  | [] => true
  | d :: r => isShowable d && areShowable r
def entriesAreShowable : List (Datum × Datum) → Bool
  | [] => true
  | (k, v) :: r => isShowable k && isShowable v && entriesAreShowable r
end

/-- Sets a key to a value; a key that is there keeps its spelling and its place. -/
def insertEntry (key value : Datum) : List (Datum × Datum) → List (Datum × Datum)
  | [] => [(key, value)]
  | (k, v) :: r => if sameKey k key then (k, value) :: r else (k, v) :: insertEntry key value r

/-- The value of a textual key. -/
def lookup? (key : String) : List (Datum × Datum) → Option Datum
  | [] => none
  | (.text k, v) :: r => if k = key then some v else lookup? key r
  | _ :: r => lookup? key r

end Datum

end MachineBundle
