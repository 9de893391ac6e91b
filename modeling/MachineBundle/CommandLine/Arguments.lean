import MachineBundle.CommandLine.Command
import MachineBundle.Text.LetterCase
import MachineBundle.Text.Likeness
import MachineBundle.Tree.Basic

/-!
# Arguments

Arguments are sorted into options and operands, and then checked: options in the order in which they are given,
then operands, then what is missing.
-/

namespace MachineBundle.CommandLine

/-- Why a command is not carried out. -/
inductive Stop where
  | help
  | version
  /-- No argument is given where a command has to be named. -/
  | nothing
  /-- An option is written in a way that it cannot be. -/
  | badOption (message : String)
  | misuse (message : String)
  | fault (f : Fault)
  deriving DecidableEq, Repr

/-- The options that are given, by key, and the operands, both in order. -/
structure Arguments where
  options : List (String × String)
  operands : List String
  deriving DecidableEq, Repr

namespace Arguments

def none : Arguments := ⟨[], []⟩

def addOptions (more : List (String × String)) (a : Arguments) : Arguments :=
  { a with options := a.options ++ more }

def addOperands (more : List String) (a : Arguments) : Arguments :=
  { a with operands := a.operands ++ more }

/-- The value of an option. -/
def get? (a : Arguments) (key : String) : Option String :=
  Table.get? key a.options

def path? (a : Arguments) (key : String) : Option Path :=
  (a.get? key).map Path.ofText

def switch? (a : Arguments) (key : String) : Option Bool :=
  (a.get? key).map (· = "on")

def firstPath (a : Arguments) : Path :=
  .ofText (a.operands.head?.getD "")

end Arguments

/-! ## Sorting -/

/-- A single dash is an operand. -/
def looksLikeOption (argument : String) : Bool :=
  match argument.toList with
  | '-' :: _ :: _ => true
  | _ => false

/-- An argument up to its first equals sign, and what follows the sign. -/
def splitValue (argument : String) : String × Option String :=
  match argument.toList.span (· ≠ '=') with
  | (name, _ :: value) => (String.ofList name, some (String.ofList value))
  | (_, []) => (argument, .none)

/-- The known names that a name may have been meant for. -/
def suggestion (name : String) (known : List String) : String :=
  match Text.mostAlike name known with
  | [] => ""
  | [one] => " Did you mean " ++ Text.quoted one ++ "?"
  | several => " (Did you mean one of: " ++ ", ".intercalate (several.map Text.quoted) ++ "?)"

def noSuchOption (name : String) (known : List String) : Stop :=
  .misuse ("No such option " ++ Text.quoted name ++ "." ++ suggestion name known)

def noSuchCommand (name : String) (known : List String) : Stop :=
  .misuse ("No such command " ++ Text.quoted name ++ "." ++ suggestion name known)

/-- What an argument that looks like an option does: it sets options, or asks for a value. -/
inductive Effect where
  | sets (options : List (String × String))
  | asks (key spelling : String)
  deriving DecidableEq, Repr

namespace Command

/-- The effect of an option that is written out. -/
def longEffect (o : OptionRule) (s : Spelling) (value : Option String) : Except Stop Effect :=
  match s.value?, value with
  | some v, .none => .ok (.sets [(o.key, v)])
  | some _, some _ => .error (.badOption ("Option " ++ Text.quoted s.text ++ " does not take a value."))
  | .none, some v => .ok (.sets [(o.key, v)])
  | .none, .none => .ok (.asks o.key s.text)

/-- The options that letters after a dash set. -/
def letterEffects (c : Command) : List Char → Except Stop (List (String × String))
  | [] => .ok []
  | letter :: rest =>
    let name := String.ofList ['-', letter]
    match c.spelling? name with
    | some (o, ⟨_, some v⟩) => do return (o.key, v) :: (← letterEffects c rest)
    | _ => .error (noSuchOption name [])

def effect (c : Command) (argument : String) : Except Stop Effect :=
  let (name, value) := splitValue argument
  if name.startsWith "--" then
    match c.spelling? name with
    | some (o, s) => longEffect o s value
    | .none => .error (noSuchOption name c.longSpellings)
  else do return .sets (← c.letterEffects (argument.toList.drop 1))

def sort (c : Command) (a : Arguments) : List String → Except Stop Arguments
  | [] => .ok a
  | argument :: rest =>
    if argument = "--" then .ok (a.addOperands rest)
    else if looksLikeOption argument then
      match c.effect argument with
      | .error stop => .error stop
      | .ok (.sets options) => sort c (a.addOptions options) rest
      | .ok (.asks key spelling) =>
        match rest with
        | [] => .error (.badOption ("Option " ++ Text.quoted spelling ++ " requires an argument."))
        | value :: rest => sort c (a.addOptions [(key, value)]) rest
    else if c.isGroup then .ok (a.addOperands (argument :: rest))
    else sort c (a.addOperands [argument]) rest

end Command

/-! ## Checking -/

/-- Letter case is ignored, and so is the difference between the two forms of the letter s. -/
def folded (s : String) : String :=
  Text.lower (String.ofList (s.toList.map fun c => if c = 'ſ' then 's' else c))

/-- A text that ends in a slash, or in a component that is a dot, can only mean a directory. -/
def meansDirectory (text : String) : Bool :=
  !Path.isComponent ((Path.pieces text.toList).getLast?.getD [])

def leadsToFile (t : Tree) (text : String) : Bool :=
  !meansDirectory text &&
    match t.isFile (.ofText text) with
    | .ok b => b
    | .error _ => false

def invalid (name message : String) : Stop :=
  .misuse ("Invalid value for '" ++ name ++ "': " ++ message)

/-- The value that a text is for an option or an operand. -/
def Kind.value (t : Tree) (name text : String) : Kind → Except Stop String
  | .text => .ok text
  | .word words =>
    match words.find? fun w => folded w = folded text with
    | some w => .ok w
    | .none => .error (invalid name
        (Text.quoted text ++ " is not one of " ++ ", ".intercalate (words.map Text.quoted) ++ "."))
  | .path => if Tree.hasNull (.ofText text) then .error (.fault .nullCharacter) else .ok text
  | .directory =>
    if Tree.hasNull (.ofText text) then .error (.fault .nullCharacter)
    else if leadsToFile t text then .error (invalid name ("Directory " ++ Text.quoted text ++ " is a file."))
    else .ok text

/-- The options that end a command, in whatever way they are mixed with others. -/
def ending? : List (String × String) → Option Stop
  | [] => .none
  | (key, _) :: rest =>
    if key = "--help" then some .help else if key = "--version" then some .version else ending? rest

namespace Command

def checkOption (c : Command) (t : Tree) (key text : String) : Except Stop (String × String) :=
  match c.options.find? (·.key = key) with
  | some o => do return (key, ← o.kind.value t key text)
  | .none => .ok (key, text)

/-- Options that are given more than once have the last of their values. -/
def checkOptions (c : Command) (t : Tree) (given : List (String × String)) : Except Stop (List (String × String)) :=
  (Table.ofEntries given).mapM fun (key, text) => c.checkOption t key text

def missingOperand (rule : OperandRule) : Stop :=
  .misuse ("Missing argument '" ++ rule.name ++ "'.")

/-- Gives the operands their places; returns those that are left. -/
def checkOperands (t : Tree) : List OperandRule → List String → Except Stop (List String)
  | [], left => .ok left
  | rule :: rules, given =>
    if given = [] ∧ rule.isRequired then .error (missingOperand rule)
    else if rule.isMany then checkOperands t rules []
    else
      match given with
      | [] => checkOperands t rules []
      | text :: rest => do
        let _ ← rule.kind.value t rule.name text
        checkOperands t rules rest

def checkRequired (c : Command) (given : List (String × String)) : Except Stop Unit :=
  match c.options.find? fun o => o.isRequired && !(given.any fun g => g.1 = o.key) with
  | some o => .error (.misuse ("Missing option '" ++ o.key ++ "'."))
  | .none => .ok ()

def checkRest (c : Command) (left : List String) : Except Stop Unit :=
  if c.isGroup || left.isEmpty then .ok ()
  else
    let noun := if left.length = 1 then "argument" else "arguments"
    .error (.misuse ("Got unexpected extra " ++ noun ++ " (" ++ " ".intercalate left ++ ")"))

/-- The arguments of a command, sorted and checked. -/
def read (c : Command) (t : Tree) (arguments : List String) : Except Stop Arguments := do
  if c.isGroup && arguments.isEmpty then throw .nothing
  let given ← c.sort .none arguments
  match ending? given.options with
  | some stop => throw stop
  | .none =>
    let options ← c.checkOptions t given.options
    let left ← checkOperands t c.operands given.operands
    c.checkRequired options
    c.checkRest left
    return { given with options }

end Command

end MachineBundle.CommandLine
