import MachineBundle.Binding
import MachineBundle.Text.LetterCase
import MachineBundle.Text.Line

/-!
# Output formats

Formats are asked for by name. A binding is registered for most of them; the others are known but unsupported.
-/

namespace MachineBundle

inductive Format where
  | c
  | cPlusPlus
  | cpp
  | cxx
  | objc
  | objcPlusPlus
  | objcpp
  | swift
  | verilog
  | vhdl
  deriving DecidableEq, Repr

namespace Format

def all : List Format :=
  [c, cPlusPlus, cpp, cxx, objc, objcPlusPlus, objcpp, swift, verilog, vhdl]

def name : Format → String
  | c => "c"
  | cPlusPlus => "c++"
  | cpp => "cpp"
  | cxx => "cxx"
  | objc => "objc"
  | objcPlusPlus => "objc++"
  | objcpp => "objcpp"
  | swift => "swift"
  | verilog => "verilog"
  | vhdl => "vhdl"

/-- The format with exactly this name. -/
def ofName? (name : String) : Option Format :=
  all.find? (·.name = name)

/-- The format that an identifier means: letter case and surrounding blanks do not matter. -/
def parse? (identifier : String) : Option Format :=
  ofName? (Text.lower (Text.trimmed identifier))

/-- The binding registered for a format. -/
def binding? : Format → Option Binding
  | c => some .c
  | cPlusPlus | cpp | cxx | objc | objcPlusPlus | objcpp => some .objectiveCpp
  | swift | verilog | vhdl => none

/-- The names of all formats, or of those with a binding. -/
def names (supportedOnly : Bool) : List String :=
  (all.filter fun f => !supportedOnly || f.binding?.isSome).map name

end Format

namespace Binding

/-- The binding for bundles that record no language. -/
def default : Binding := .objectiveCpp

/-- The binding that an identifier of an output format asks for. -/
def ofFormat? (identifier : String) : Option Binding :=
  (Format.parse? identifier).bind Format.binding?

/-- The binding that the first line of a language record names. -/
def ofLanguage? (record : String) : Option Binding :=
  match Text.lines (Text.trimBlanks record.toList) with
  | [] => none
  | first :: _ => ofFormat? (String.ofList first)

end Binding

end MachineBundle
