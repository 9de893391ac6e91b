import MachineBundle.Text.Charset
import MachineBundle.Text.Utf8

/-!
# Faults

Everything that can go wrong, by cause, and how it is reported.
-/

namespace MachineBundle

/-- Why the file system refuses an operation. -/
inductive Refusal where
  | notFound
  | busy
  | alreadyThere
  | notDirectory
  | isDirectory
  | nameTooLong
  deriving DecidableEq, Repr

namespace Refusal

def number : Refusal → Nat
  | notFound => 2
  | busy => 16
  | alreadyThere => 17
  | notDirectory => 20
  | isDirectory => 21
  | nameTooLong => 36

def text : Refusal → String
  | notFound => "No such file or directory"
  | busy => "Device or resource busy"
  | alreadyThere => "File exists"
  | notDirectory => "Not a directory"
  | isDirectory => "Is a directory"
  | nameTooLong => "File name too long"

def message (r : Refusal) : String :=
  "[Errno " ++ toString r.number ++ "] " ++ r.text

end Refusal

/-- Why letters do not tell how to open a file. -/
inductive ModeFault where
  | nullCharacter
  | unknown (letters : String)
  | textAndBytes
  | severalPurposes
  | noPurpose
  deriving DecidableEq, Repr

def ModeFault.message : ModeFault → String
  | nullCharacter => "embedded null character"
  | unknown letters => "invalid mode: '" ++ letters ++ "'"
  | textAndBytes => "can't have text and binary mode at once"
  | severalPurposes => "must have exactly one of create/read/write/append mode"
  | noPurpose => "Must have exactly one of create/read/write/append mode and at most one plus"

inductive Fault where
  | refused (reason : Refusal) (path : String)
  | renameRefused (reason : Refusal) (source target : String)
  /-- A path with a NUL character. -/
  | nullCharacter
  | malformed (m : Text.Malformed)
  | unencodable (u : Text.Unencodable)
  | badMode (reason : ModeFault)
  /-- Something is written to a file that is open for reading only. -/
  | notWritable (isBinary : Bool)
  /-- A writer gave up half-way. -/
  | interrupted (message : String)
  | writeFailed (path : String) (cause : Fault)
  | batchFailed (cause : Fault)
  | outsideBase (path base : String)
  | lineBreakInName (name : String)
  | unknownSection (name : String)
  | unknownFormatName (name : String)
  /-- A number in a source with too many digits to be read. -/
  | numberTooLong (digits : Nat)
  | transitionOutOfRange (index : Int) (state machine : String) (count : Nat)
  | unsupportedFormat (requested : Option String)
  | manifestMissing (path : String)
  | badSetting (field message : String)
  | templateMissing (template folder : String)
  /-- A scalar of a configuration file that is no value of its type. -/
  | badScalar (message : String)
  /-- A number that is too large for its purpose. -/
  | beyondRange (message : String)
  /-- An integer with too many digits to be shown. -/
  | integerTooLong
  /-- A scalar of a configuration file that is none of the words of its type. -/
  | unknownWord
  /-- A scalar of a configuration file that is empty, but must not be. -/
  | emptyScalar
  /-- Values lie too deep in one another, or a value is given by itself. -/
  | tooDeep
  /-- Keys are looked up in something that has none. -/
  | noMapping
  /-- A value or a field of a kind that does not belong there. -/
  | wrongKind
  deriving DecidableEq, Repr

namespace Fault

/-- The requested format as messages name it. -/
def requestedText (requested : Option String) : String :=
  requested.getD "None"

def message : Fault → String
  | refused reason path => reason.message ++ ": " ++ Text.quoted path
  | renameRefused reason source target =>
    reason.message ++ ": " ++ Text.quoted source ++ " -> " ++ Text.quoted target
  | nullCharacter => "embedded null byte"
  | malformed m => m.message
  | unencodable u => u.message
  | badMode reason => reason.message
  | notWritable isBinary => if isBinary then "write" else "not writable"
  | interrupted text => text
  | writeFailed path cause => "Failed to atomically write " ++ path ++ ": " ++ cause.message
  | batchFailed cause => "Batch atomic write failed: " ++ cause.message
  | outsideBase path base =>
    Text.quoted path ++ " is not in the subpath of " ++ Text.quoted base ++
      " OR one path is relative and the other is absolute."
  | lineBreakInName name => "Machine name contains a line break: " ++ Text.quoted name
  | unknownSection name => Text.quoted name ++ " is not a valid SectionName"
  | unknownFormatName name => Text.quoted name ++ " is not a valid Format"
  | numberTooLong digits =>
    "Exceeds the limit (4300 digits) for integer string conversion: value has " ++ toString digits ++
      " digits; use sys.set_int_max_str_digits() to increase the limit"
  | transitionOutOfRange index state machine count =>
    "Transition " ++ toString index ++ " out of range for state '" ++ state ++ "' of " ++ machine ++
      " (" ++ toString count ++ " transitions)"
  | unsupportedFormat requested => "Unsupported output format: " ++ requestedText requested
  | manifestMissing path => "Arrangement manifest not found: " ++ path
  | badSetting field text => "Config error in '" ++ field ++ "': " ++ text
  | templateMissing template folder =>
    Text.quoted template ++ " not found in search path: " ++ Text.quoted folder
  | badScalar text => text
  | beyondRange text => text
  | integerTooLong =>
    "Exceeds the limit (4300 digits) for integer string conversion; use sys.set_int_max_str_digits() to " ++
      "increase the limit"
  | unknownWord => "unknown word"
  | emptyScalar => "string index out of range"
  | tooDeep => "maximum recursion depth exceeded"
  | noMapping => "no mapping"
  | wrongKind => "wrong kind of value"

/-- Whether a file could not be opened, read or created. -/
def isSystem : Fault → Bool
  | refused .. | renameRefused .. | templateMissing .. => true
  | _ => false

/-- Whether a file could not be read, or does not hold text. -/
def isUnreadable : Fault → Bool
  | malformed _ => true
  | f => f.isSystem

/-- Whether an atomic write failed. -/
def isWriteFailure : Fault → Bool
  | writeFailed .. | batchFailed _ => true
  | _ => false

/-- Whether a name or a value as such is at fault. -/
def isBadValue : Fault → Bool
  | nullCharacter | malformed _ | unencodable _ | badMode _ | outsideBase .. | lineBreakInName _ | unknownSection _
  | unknownFormatName _ | numberTooLong _ | badScalar _ | integerTooLong => true
  | _ => false

end Fault

end MachineBundle
