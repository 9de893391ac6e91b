import MachineBundle.CommandLine.Command
import MachineBundle.Settings

/-!
# The commands

The commands of the program, with their options and their help.
-/

namespace MachineBundle.CommandLine

def program : String := "fsmconvert"

def versionText : String := program ++ ", version 1.3.0\n"

/-- The commands that do something. -/
inductive Task where
  | convert
  | formats
  | showArrangement
  | saveArrangement
  | convertArrangement
  deriving DecidableEq, Repr

/-- What a name can stand for: a task, or the group of the commands about arrangements. -/
inductive Entry where
  | single (task : Task)
  | arrangements
  deriving DecidableEq, Repr

/-! ## Options -/

def helpOption : OptionRule := .flag "--help" []

def configOption : OptionRule := .taking "--config" .path

def levelOption : OptionRule := .taking "--log-level" (.word Settings.levels)

def logFormatOption : OptionRule := .taking "--log-format" (.word Settings.formats)

def formatOption : OptionRule := .taking "--format" .text

def outputOption : OptionRule := .taking "--output" .directory

def suspensibleOption : OptionRule := .switch "--suspensible" "--no-suspensible"

def verboseOption : OptionRule := .flag "--verbose" ["-v"]

def directoryOperand : OperandRule := ⟨"DIRECTORY", .directory, false, true⟩

/-! ## Groups -/

def mainGroup : Command where
  name := program
  synopsis := "[OPTIONS] COMMAND [ARGS]..."
  help :=
    ["  fsmconvert - read, convert and arrange finite-state machines.",
      "",
      "  Machines are read from their bundles through the language binding recorded",
      "  in the bundle and can be written out for another language.",
      "",
      "Options:",
      "  --config PATH                   Directory containing fsmconvert.yaml",
      "  --log-level [debug|info|warn|warning|error]",
      "                                  Logging level",
      "  --log-format [json|text]        Log format",
      "  --version                       Show the version and exit.",
      "  --help                          Show this message and exit.",
      "",
      "Commands:",
      "  arrangement  Read and write arrangement manifests.",
      "  convert      Read MACHINES and optionally write them in another format.",
      "  formats      List output formats and the binding registered for each."]
  options := [configOption, levelOption, logFormatOption, .flag "--version" [], helpOption]
  operands := []
  isGroup := true

def mainGroup.entries : Table String Entry :=
  [("arrangement", .arrangements), ("convert", .single .convert), ("formats", .single .formats)]

def arrangementGroup : Command where
  name := program ++ " arrangement"
  synopsis := "[OPTIONS] COMMAND [ARGS]..."
  help :=
    ["  Read and write arrangement manifests.",
      "",
      "Options:",
      "  --help  Show this message and exit.",
      "",
      "Commands:",
      "  convert  Convert the arrangement in DIRECTORY and all of its machines.",
      "  save     Write the manifest of DIRECTORY listing NAMES in order.",
      "  show     List the machines of the arrangement in DIRECTORY."]
  options := [helpOption]
  operands := []
  isGroup := true

def arrangementGroup.entries : Table String Task :=
  [("convert", .convertArrangement), ("save", .saveArrangement), ("show", .showArrangement)]

/-! ## Tasks -/

def convert : Command where
  name := program ++ " convert"
  synopsis := "[OPTIONS] MACHINES..."
  help :=
    ["  Read MACHINES and optionally write them in another format.",
      "",
      "Options:",
      "  --format TEXT                   Output format (default: each machine's own",
      "                                  language)",
      "  --output DIRECTORY              Directory to write converted machines to",
      "  --suspensible / --no-suspensible",
      "                                  Generate code that supports suspension",
      "  -v, --verbose                   Print machine, state and transition totals",
      "  --help                          Show this message and exit."]
  options := [formatOption, outputOption, suspensibleOption, verboseOption, helpOption]
  operands := [⟨"MACHINES...", .text, true, true⟩]
  isGroup := false

def formats : Command where
  name := program ++ " formats"
  synopsis := "[OPTIONS]"
  help :=
    ["  List output formats and the binding registered for each.",
      "",
      "Options:",
      "  --help  Show this message and exit."]
  options := [helpOption]
  operands := []
  isGroup := false

def showArrangement : Command where
  name := program ++ " arrangement show"
  synopsis := "[OPTIONS] DIRECTORY"
  help :=
    ["  List the machines of the arrangement in DIRECTORY.",
      "",
      "Options:",
      "  --help  Show this message and exit."]
  options := [helpOption]
  operands := [directoryOperand]
  isGroup := false

def saveArrangement : Command where
  name := program ++ " arrangement save"
  synopsis := "[OPTIONS] DIRECTORY [NAMES]..."
  help :=
    ["  Write the manifest of DIRECTORY listing NAMES in order.",
      "",
      "Options:",
      "  --help  Show this message and exit."]
  options := [helpOption]
  operands := [directoryOperand, ⟨"[NAMES]...", .text, true, false⟩]
  isGroup := false

def convertArrangement : Command where
  name := program ++ " arrangement convert"
  synopsis := "[OPTIONS] DIRECTORY"
  help :=
    ["  Convert the arrangement in DIRECTORY and all of its machines.",
      "",
      "Options:",
      "  --output DIRECTORY              Directory to write the converted arrangement",
      "                                  to  [required]",
      "  --format TEXT                   Output format (default: the arrangement's",
      "                                  own language)",
      "  --suspensible / --no-suspensible",
      "                                  Generate code that supports suspension",
      "  --help                          Show this message and exit."]
  options := [{ outputOption with isRequired := true }, formatOption, suspensibleOption, helpOption]
  operands := [directoryOperand]
  isGroup := false

def Task.command : Task → Command
  | .convert => CommandLine.convert
  | .formats => CommandLine.formats
  | .showArrangement => CommandLine.showArrangement
  | .saveArrangement => CommandLine.saveArrangement
  | .convertArrangement => CommandLine.convertArrangement

end MachineBundle.CommandLine
