import MachineBundle.Arrangement
import MachineBundle.Yaml.Object.Filling

/-!
# Settings

Settings come from a mapping, which a file may hold. Every value is taken as text where text is needed, and the
result is checked as a whole.
-/

namespace MachineBundle

structure Settings where
  defaultFormat : String
  /-- Whether the sources that are written support suspension. -/
  isSuspensible : Bool
  machineSuffix : String
  /-- A folder of templates to use in place of the ones that are built in. -/
  templates : Option Path
  /-- The least severe level that is logged. -/
  level : String
  /-- The form of the lines of the log. -/
  format : String
  deriving DecidableEq, Repr

namespace Settings

/-- The settings where nothing is set. -/
def usual : Settings where
  defaultFormat := Format.objcPlusPlus.name
  isSuspensible := true
  machineSuffix := Arrangement.bundleSuffix
  templates := none
  level := "warning"
  format := "text"

/-! ## Checking -/

def levels : List String := ["debug", "info", "warn", "warning", "error"]

def formats : List String := ["json", "text"]

/-- Letter case does not matter. -/
def isAmong (words : List String) (s : String) : Bool :=
  words.contains (Text.lower s)

def choiceMessage (words : List String) (s : String) : String :=
  "Must be one of " ++ ", ".intercalate words ++ ", got " ++ Text.quoted s

def formatMessage (s : String) : String :=
  "Unknown format '" ++ s ++ "'. Known: " ++ ", ".intercalate (Format.names false)

def checkFolder (t : Tree) : Option Path → Except Fault Unit
  | none => .ok ()
  | some folder => do
    if !(← t.isDirectory folder) then
      throw (.badSetting "templates_dir" ("Templates directory not found: " ++ folder.text))

/-- Reports the first setting that is not valid. -/
def check (t : Tree) (s : Settings) : Except Fault Unit := do
  if (Format.parse? s.defaultFormat).isNone then
    throw (.badSetting "default_format" (formatMessage s.defaultFormat))
  if !s.machineSuffix.startsWith "." then
    throw (.badSetting "machine_suffix" ("Must start with '.', got " ++ Text.quoted s.machineSuffix))
  if !isAmong levels s.level then throw (.badSetting "logging.level" (choiceMessage levels s.level))
  if !isAmong formats s.format then throw (.badSetting "logging.format" (choiceMessage formats s.format))
  checkFolder t s.templates

/-! ## Reading a mapping -/

/-- How values are looked at that are kept in some form `ν`. -/
structure View (ν : Type) where
  datum : ν → Datum
  truthy : ν → Bool
  isMapping : ν → Bool
  /-- The value of a key of a mapping. -/
  value? : String → ν → Option ν

variable {ν : Type}

/-- A value as text. -/
def textOf (d : Datum) : Except Fault String :=
  if d.isShowable then .ok d.plain else .error .integerTooLong

/-- The value of a key as text. -/
def textOr (view : View ν) (default key : String) (mapping : ν) : Except Fault String :=
  match view.value? key mapping with
  | none => .ok default
  | some v => textOf (view.datum v)

/-- A nested mapping. A value that counts as false stands for an empty one. -/
def nested (view : View ν) (key : String) (mapping : ν) : Except Fault (Option ν) :=
  match view.value? key mapping with
  | none => .ok none
  | some v => if !view.truthy v then .ok none else if view.isMapping v then .ok (some v) else .error .noMapping

/-- The path that a value gives. A value that counts as false stands for none. -/
def pathOf (view : View ν) (value : Option ν) : Except Fault (Option Path) :=
  match value with
  | none => .ok none
  | some v =>
    if !view.truthy v then .ok none
    else
      match view.datum v with
      | .text s => .ok (some (.ofText s))
      | _ => .error .wrongKind

/-- The settings that a mapping makes, not yet checked. -/
def ofMapping (view : View ν) (mapping : ν) : Except Fault Settings := do
  let logging ← nested view "logging" mapping
  let level ← (logging.map (textOr view usual.level "level")).getD (.ok usual.level)
  let format ← (logging.map (textOr view usual.format "format")).getD (.ok usual.format)
  let defaultFormat ← textOr view usual.defaultFormat "default_format" mapping
  let isSuspensible := ((view.value? "suspensible" mapping).map view.truthy).getD usual.isSuspensible
  let machineSuffix ← textOr view usual.machineSuffix "machine_suffix" mapping
  let templates ← pathOf view (view.value? "templates_dir" mapping)
  return { defaultFormat, isSuspensible, machineSuffix, templates, level, format }

/-- The settings that a value makes, which has to be a mapping. They are not yet checked. -/
def ofView (view : View ν) (value : ν) : Except Fault Settings :=
  if view.isMapping value then ofMapping view value else .error .noMapping

def checked (t : Tree) (s : Settings) : Except Fault Settings := do
  s.check t
  return s

/-- Plain data are looked at as they are. -/
def View.plain : View Datum where
  datum d := d
  truthy := Datum.truthy
  isMapping
    | .map _ => true
    | _ => false
  value? key
    | .map entries => Datum.lookup? key entries
    | _ => none

def ofDatum (t : Tree) (d : Datum) : Except Fault Settings := do
  checked t (← ofView .plain d)

/-! ## Reading a file -/

/-- The values of a document are looked at where they stand in it. -/
def View.ofDocument (d : Yaml.Document) : View Yaml.NodeId where
  datum := d.datum
  truthy id := (d.object id).truthy
  isMapping id :=
    match d.object id with
    | .mapping _ => true
    | _ => false
  value? key id :=
    match d.object id with
    | .mapping entries => d.lookup? key entries
    | _ => none

def faultOf : Yaml.Problem → Fault
  | .malformed | .unfinished => .badSetting "yaml" "Failed to parse YAML: "
  | .undecodable m => .malformed m
  | .badScalar message => .badScalar message
  | .beyondRange message => .beyondRange message
  | .tooLong digits => .numberTooLong digits
  | .unknownWord => .unknownWord
  | .emptyScalar => .emptyScalar
  | .shapeless => .noMapping
  | .notScalar => .wrongKind
  | .tooDeep => .tooDeep

/-- What a file holds. -/
def bytesOf (t : Tree) (path : Path) : Except Fault ByteArray :=
  match t.readBytes path with
  | .ok content => .ok content
  | .error f =>
    if f.isSystem then .error (.badSetting "file" ("Failed to read config file: " ++ f.message)) else .error f

/-- The settings of a document, not yet checked. A value that counts as false says nothing. -/
def ofDocument (document : Option Yaml.Document) : Except Fault Settings :=
  match document with
  | none => .ok usual
  | some d =>
    let view := View.ofDocument d
    if !view.truthy d.root then .ok usual
    else if view.isMapping d.root then ofMapping view d.root
    else .error (.badSetting "yaml" "Top level must be a mapping")

/-- The settings that the content of a file spells, not yet checked. -/
def ofBytes (content : ByteArray) : Except Fault Settings :=
  match (Yaml.Source.ofBytes content).document with
  | .ok document => ofDocument document
  | .error p => .error (faultOf p)

def ofFile (t : Tree) (path : Path) : Except Fault Settings := do
  if ← t.holds path then checked t (← ofBytes (← bytesOf t path))
  else throw (.badSetting "path" ("Configuration file not found: " ++ path.text))

def fileName : String := "fsmconvert.yaml"

/-- The settings of a directory: those of its file, or the usual ones. -/
def load (t : Tree) (directory : Path) : Except Fault Settings := do
  let path := directory.join fileName
  if ← t.holds path then ofFile t path else return usual

/-! ## Overriding -/

/-- The settings as fields. -/
def fields (s : Settings) : Table String Datum :=
  [("default_format", .text s.defaultFormat), ("suspensible", .bool s.isSuspensible),
    ("machine_suffix", .text s.machineSuffix), ("templates_dir", (s.templates.map fun p => .text p.text).getD .null),
    ("logging", .list [.text s.level, .text s.format])]

/-- The name that the settings themselves go by when they are overridden. -/
def ownName : String := "self"

/-- Whether a field can be replaced. Nothing at all leaves every field as it is. -/
def isReplaceable (s : Settings) : String × Datum → Bool
  | (name, .null) => name ≠ ownName
  | (name, _) => (s.fields.get? name).isSome

/-- Replaces one field. A folder becomes text; other values are put in place as they are. -/
def replaceField (fields : Table String Datum) : String × Datum → Except Fault (Table String Datum)
  | (_, .null) => .ok fields
  | ("logging", _) => .error .noMapping
  | ("templates_dir", d) => do return fields.set "templates_dir" (.text (← textOf d))
  | (name, d) => .ok (fields.set name d)

/-- The fields after some of them have been replaced. What is put in their place is not checked. -/
def overridden (s : Settings) (values : List (String × Datum)) : Except Fault (Table String Datum) := do
  if !values.all s.isReplaceable then throw .wrongKind
  values.foldlM replaceField s.fields

/-- The settings for the lines of the log. -/
def logging (s : Settings) : Log.Settings :=
  .ofNames s.level s.format

end Settings

end MachineBundle
