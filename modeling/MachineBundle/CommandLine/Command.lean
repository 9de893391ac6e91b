import MachineBundle.Text.Quoted

/-!
# Commands

What a command accepts, and what it says about itself.
-/

namespace MachineBundle.CommandLine

/-- What a value has to be. -/
inductive Kind where
  | text
  /-- One of some words, in any letter case. -/
  | word (words : List String)
  | path
  /-- A path that does not lead to a file. -/
  | directory
  deriving DecidableEq, Repr

/-- One way to write an option. -/
structure Spelling where
  text : String
  /-- The value that the option then has; without it the next argument is the value. -/
  value? : Option String
  deriving DecidableEq, Repr

structure OptionRule where
  /-- The name under which the value is found, which is also the name in messages. -/
  key : String
  spellings : List Spelling
  kind : Kind
  isRequired : Bool
  deriving DecidableEq, Repr

namespace OptionRule

/-- An option that is followed by its value. -/
def taking (key : String) (kind : Kind) : OptionRule :=
  ⟨key, [⟨key, none⟩], kind, false⟩

/-- An option that is on if it is given. -/
def flag (key : String) (others : List String) : OptionRule :=
  ⟨key, (key :: others).map fun s => ⟨s, some "on"⟩, .text, false⟩

/-- An option with a spelling for each of its two values. -/
def switch (key off : String) : OptionRule :=
  ⟨key, [⟨key, some "on"⟩, ⟨off, some "off"⟩], .text, false⟩

end OptionRule

/-- An argument that is known by its position. -/
structure OperandRule where
  name : String
  kind : Kind
  /-- Whether it stands for all the arguments that are left. -/
  isMany : Bool
  isRequired : Bool
  deriving DecidableEq, Repr

structure Command where
  /-- The words that call the command. -/
  name : String
  synopsis : String
  /-- The lines of the help below the usage. -/
  help : List String
  options : List OptionRule
  operands : List OperandRule
  /-- Whether the first operand and all that follows belong to another command. -/
  isGroup : Bool

namespace Command

def usage (c : Command) : String :=
  "Usage: " ++ c.name ++ " " ++ c.synopsis ++ "\n"

def helpText (c : Command) : String :=
  c.usage ++ "\n" ++ String.join (c.help.map (· ++ "\n"))

/-- An error in the arguments, with the usage. -/
def misuseText (c : Command) (message : String) : String :=
  c.usage ++ "Try '" ++ c.name ++ " --help' for help.\n\nError: " ++ message ++ "\n"

/-- The option with a spelling. -/
def spelling? (c : Command) (text : String) : Option (OptionRule × Spelling) :=
  c.options.findSome? fun o => (o.spellings.find? (·.text = text)).map fun s => (o, s)

/-- The spellings of options that are words. -/
def longSpellings (c : Command) : List String :=
  (c.options.flatMap fun o => o.spellings.map Spelling.text).filter fun s => 2 < s.length

end Command

end MachineBundle.CommandLine
