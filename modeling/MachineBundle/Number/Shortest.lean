/-!
# Shortest decimals

A float is a binary fraction. Its shortest decimal has the fewest digits among those that round to it, and of
these it is the nearest to the exact value.
-/

namespace MachineBundle.Number

/-- The positive rational `num / den`. -/
structure Ratio where
  num : Nat
  den : Nat
  deriving Repr

namespace Ratio

/-- `r · 10 ^ e`. -/
def scale10 (r : Ratio) (e : Int) : Ratio :=
  if 0 ≤ e then ⟨r.num * Nat.pow 10 e.toNat, r.den⟩ else ⟨r.num, r.den * Nat.pow 10 (-e).toNat⟩

def le (a b : Ratio) : Bool := a.num * b.den ≤ b.num * a.den
def lt (a b : Ratio) : Bool := a.num * b.den < b.num * a.den

/-- The distance of `r` to the whole number `n`. -/
def distance (r : Ratio) (n : Nat) : Ratio :=
  ⟨if r.num ≤ n * r.den then n * r.den - r.num else r.num - n * r.den, r.den⟩

end Ratio

/-- The reals that round to one float: the value, the two ends, and whether the ends belong to it. -/
structure RoundingInterval where
  lower : Ratio
  value : Ratio
  upper : Ratio
  closed : Bool
  deriving Repr

def RoundingInterval.contains (v : RoundingInterval) (r : Ratio) : Bool :=
  if v.closed then v.lower.le r && r.le v.upper else v.lower.lt r && r.lt v.upper

/-- The interval around `m · 2 ^ q`; `narrow` says that the float below is only half as far away as the one above. -/
def RoundingInterval.around (m : Nat) (q : Int) (narrow : Bool) : RoundingInterval :=
  let scale (n : Nat) : Ratio := if 0 ≤ q then ⟨n * Nat.pow 2 q.toNat, 4⟩ else ⟨n, 4 * Nat.pow 2 (-q).toNat⟩
  ⟨scale (4 * m - if narrow then 1 else 2), scale (4 * m), scale (4 * m + 2), m % 2 == 0⟩

/-- A power of ten not above the value, and less than a hundredfold below it. -/
def leadingExponent (r : Ratio) : Int :=
  if r.den ≤ r.num then ((Nat.toDigits 10 (r.num / r.den)).length : Int) - 1
  else -((Nat.toDigits 10 (r.den / r.num)).length : Int)

/-- The multiple of `10 ^ e` nearest to the value among those inside the interval; a tie goes to the even one. -/
def nearestOnGrid? (v : RoundingInterval) (e : Int) : Option Nat :=
  let scaled := v.value.scale10 (-e)
  let low := scaled.num / scaled.den
  let inside (n : Nat) : Bool := v.contains (Ratio.scale10 ⟨n, 1⟩ e)
  match 0 < low && inside low, inside (low + 1) with
  | true, true =>
    let a := scaled.distance low
    let b := scaled.distance (low + 1)
    some (if a.lt b then low else if b.lt a then low + 1 else if low % 2 == 0 then low else low + 1)
  | true, false => some low
  | false, true => some (low + 1)
  | false, false => none

/-- The coarsest grid with a hit, tried from `e` downwards at most `tries` times: the multiple and the exponent. -/
def coarsestHit (v : RoundingInterval) : (tries : Nat) → (e : Int) → Nat × Int
  | 0, e => (v.value.num / v.value.den, e)
  | n + 1, e =>
    match nearestOnGrid? v e with
    | some d => (d, e)
    | none => coarsestHit v n (e - 1)

/-- `d · 10 ^ e` without trailing zeros in `d`. -/
def dropZeros : (fuel d : Nat) → Int → Nat × Int
  | 0, d, e => (d, e)
  | fuel + 1, d, e => if d % 10 == 0 && d != 0 then dropZeros fuel (d / 10) (e + 1) else (d, e)

/-- The digits and the exponent of the shortest decimal in the interval. -/
def shortest (v : RoundingInterval) : Nat × Int :=
  let (d, e) := coarsestHit v 20 (leadingExponent v.value + 1)
  dropZeros 400 d e

end MachineBundle.Number
