import MachineBundle.Datum.Json

/-!
# Replies

What a command prints, and the code with which it ends.
-/

namespace MachineBundle.CommandLine

structure Reply where
  code : Nat
  out : String
  err : String
  deriving DecidableEq, Repr

/-- Why a command fails. -/
inductive Failure where
  | general
  | unsupportedFormat
  | manifestMissing
  | machineMissing
  | badSetting
  deriving DecidableEq, Repr

/-- Errors in the arguments share a code with formats that are not supported. -/
def misuseCode : Nat := 2

def Failure.code : Failure → Nat
  | general => 1
  | unsupportedFormat => 2
  | manifestMissing => 3
  | machineMissing => 4
  | badSetting => 5

namespace Reply

def document (entries : List (Datum × Datum)) : String :=
  Json.indented 0 (.map entries) ++ "\n"

/-- A document alone. -/
def data (entries : List (Datum × Datum)) : Reply :=
  ⟨0, document entries, ""⟩

def success (entries : List (Datum × Datum)) : Reply :=
  data ((.text "status", .text "success") :: entries)

/-- A report of what is wrong, with details. -/
def failure (f : Failure) (message : String) (details : List (String × String)) : Reply :=
  ⟨f.code,
    document ([(.text "status", .text "error"), (.text "message", .text message)] ++
      details.map fun (k, v) => (.text k, .text v)),
    ""⟩

/-- Lines of a log come before whatever else stands in the same place. -/
def withLog (lines : List String) (r : Reply) : Reply :=
  { r with err := String.join (lines.map (· ++ "\n")) ++ r.err }

end Reply

end MachineBundle.CommandLine
