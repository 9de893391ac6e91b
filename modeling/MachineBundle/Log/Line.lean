import MachineBundle.Datum.Json
import MachineBundle.Log.Notice
import MachineBundle.Table

/-!
# Lines of a log

A notice becomes a record of named values, and the record a line: JSON, or text in columns.
-/

namespace MachineBundle.Log

/-- What every line of a log shares: the time, and the identifier of the run, empty for none. -/
structure Stamp where
  time : String
  correlation : String
  deriving DecidableEq, Repr

abbrev Record := Table String Datum

namespace Record

/-- Adds a text unless it is empty. -/
def setNonEmpty (key value : String) (r : Record) : Record :=
  if value.isEmpty then r else r.set key (.text value)

/-- Adds a text under a key that is not there. -/
def setMissing (key value : String) (r : Record) : Record :=
  if (r.get? key).isSome then r else r.setNonEmpty key value

def without (keys : List String) (r : Record) : Record :=
  r.filter fun (k, _) => !keys.contains k

end Record

/-- The values of a notice in the order of a JSON line. -/
def Notice.record (n : Notice) (stamp : Stamp) : Record :=
  let named : Record := Record.setNonEmpty "logger_name" n.logger []
  let called := n.fields.foldl (fun r (k, v) => Table.set k v r) named
  let told : Record := ((called.set "event" (.text n.event)).set "level" (.text n.level.name)).set "timestamp"
    (.text stamp.time)
  ((told.setNonEmpty "correlation_id" stamp.correlation).setMissing "machine" n.machine).without
    ["stack_info", "exc_info"]

def jsonLine (r : Record) : String :=
  Json.line (.map (r.map fun (k, v) => (.text k, v)))

/-! ## Text in columns -/

def padded (width : Nat) (s : String) : String :=
  s ++ String.ofList (List.replicate (width - s.length) ' ')

/-- Text with one of these characters is quoted in a field. -/
def needsQuotes (c : Char) : Bool :=
  [' ', '\t', '=', '\r', '\n', '"', '\''].contains c

def fieldValue : Datum → String
  | .text s => if s.toList.any needsQuotes then Text.quoted s else s
  | d => d.shown

def fieldText (key : String) (value : Datum) : String :=
  key ++ "=" ++ fieldValue value

/-- The keys with a column of their own, and what stands there. A field without a name comes first. -/
def columns : List (String × (Datum → String)) :=
  [("", fieldText ""),
    ("timestamp", Datum.plain),
    ("level", fun d => "[" ++ padded 9 d.plain ++ "]"),
    ("event", fun d => padded 30 d.plain),
    ("logger", fun d => "[" ++ d.plain ++ "]"),
    ("logger_name", fun d => "[" ++ d.plain ++ "]")]

/-- What a value adds below the line. -/
def appendix? (r : Record) (key : String) : Option String :=
  match r.get? key with
  | none | some .null => none
  | some d => some ("\n" ++ d.plain)

/-- What stands between two values below the line. -/
def ruler : String :=
  "\n\n" ++ String.ofList (List.replicate 79 '=') ++ "\n"

/-- The fields without a column, sorted by name. -/
def otherFields (r : Record) : Record :=
  (r.without (columns.map Prod.fst ++ Notice.appendices)).mergeSort fun a b => !(b.1 < a.1)

def withoutTrailingSpaces (s : String) : String :=
  String.ofList (s.toList.reverse.dropWhile (· = ' ')).reverse

def textLine (r : Record) : String :=
  let cells := columns.filterMap fun (k, column) => (r.get? k).map column
  let fields := (otherFields r).map fun (k, v) => fieldText k v
  let tails := Notice.appendices.filterMap (appendix? r)
  withoutTrailingSpaces (" ".intercalate (cells ++ fields)) ++ ruler.intercalate tails

/-- The line that a notice becomes, if it reaches the threshold. -/
def Notice.line? (n : Notice) (configured : Settings) (stamp : Stamp) : Option String :=
  if n.isDropped configured then none
  else
    let r := n.record stamp
    some (if (n.settings configured).json then jsonLine r else textLine r)

end MachineBundle.Log
