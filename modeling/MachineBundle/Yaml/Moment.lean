import MachineBundle.Datum.Shown
import MachineBundle.Scan.Pattern
import MachineBundle.Yaml.Kind
import MachineBundle.Yaml.Source

/-!
# Dates and points in time

What has the shape of a timestamp is checked against the calendar and the clock.
-/

namespace MachineBundle.Yaml

def isLeapYear (y : Nat) : Bool :=
  y % 4 = 0 && (y % 100 ≠ 0 || y % 400 = 0)

def daysInMonth (y m : Nat) : Nat :=
  if m = 2 then (if isLeapYear y then 29 else 28)
  else if m = 4 || m = 6 || m = 9 || m = 11 then 30
  else 31

def checkDate (d : Date) : Except Problem Date :=
  if d.year = 0 then .error (.badScalar "year 0 is out of range")
  else if d.month = 0 || 12 < d.month then .error (.badScalar "month must be in 1..12")
  else if d.day = 0 || daysInMonth d.year d.month < d.day then .error (.badScalar "day is out of range for month")
  else .ok d

def checkTime (t : TimeOfDay) : Except Problem TimeOfDay :=
  if 23 < t.hour then .error (.badScalar "hour must be in 0..23")
  else if 59 < t.minute then .error (.badScalar "minute must be in 0..59")
  else if 59 < t.second then .error (.badScalar "second must be in 0..59")
  else .ok t

/-- The first six digits of a fraction, with zeros for those that are missing. -/
def microseconds (fraction : List Char) : Nat :=
  Scan.numberOf (fraction.take 6 ++ List.replicate (6 - fraction.length) '0')

/-- A zone as its distance from universal time in minutes, less than a day either way. -/
def zoneValue : Zone → Except Problem (Option Int)
  | .none => .ok none
  | .universal => .ok (some 0)
  | .offset isNegative hours minutes =>
    let distance := 60 * Scan.numberOf hours + Scan.numberOf minutes
    let offset : Int := if isNegative then -distance else distance
    if 1440 ≤ distance then
      .error (.badScalar ("offset must be a timedelta strictly between -timedelta(hours=24) and " ++
        "timedelta(hours=24), not " ++ distanceShown offset ++ "."))
    else .ok (some offset)

def momentValue (s : String) : Except Problem Datum :=
  match timestamp? (String.ofList (withoutLastBreak s.toList)) with
  | none => .error .shapeless
  | some t =>
    let date : Date := ⟨Scan.numberOf t.year, Scan.numberOf t.month, Scan.numberOf t.day⟩
    match t.clock with
    | none => do return .date (← checkDate date)
    | some c => do
      let zone ← zoneValue c.zone
      let date ← checkDate date
      let time ← checkTime
        ⟨Scan.numberOf c.hour, Scan.numberOf c.minute, Scan.numberOf c.second, microseconds c.fraction⟩
      return .moment date time zone

end MachineBundle.Yaml
