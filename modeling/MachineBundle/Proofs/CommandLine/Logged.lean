import MachineBundle.CommandLine.Run
import MachineBundle.Proofs.Outcome
import MachineBundle.Proofs.Settings.Verdict

/-!
# The log under settings in another letter case

The level of the settings and their format are accepted in any letter case. The level means the same in all of them. The
format does not: only `json` itself makes lines of JSON, and every other spelling of it makes text.
-/

namespace MachineBundle

namespace Log

/-! ## Lines -/

end Log

namespace Session

/-- The notices that become lines of a log of their own. -/
def told (threshold : Log.Level) (s : Session) : List Log.Notice :=
  (s.scene.trail.notices.filter (·.voice = .configured)).filter fun n => threshold.rank ≤ n.level.rank

end Session

namespace Settings

/-- The level and the format of the log in small letters. -/
def lowered (s : Settings) : Settings :=
  { s with level := Text.lower s.level, format := Text.lower s.format }

end Settings

namespace CommandLine

variable {time : String} {arguments : List String} {s : Session} {settings : Settings}

/-! ## Runs under settings -/

/-- What arguments ask for, with the options in front of it. No settings are looked at. -/
def ask (t : Tree) (arguments : List String) : Except (Except Fault Reply) (Arguments × Request) := do
  let given ← mainGroup.readOr (mainGroup.read t arguments)
  let (entry, rest) ← mainGroup.readOr (mainGroup.enter t mainGroup.entries given.operands)
  let request ← entry.read t rest
  return (given, request)

/-- What a run comes to, with the lines of its log apart from what else is printed. -/
structure Execution where
  result : Except Fault Reply
  lines : List String
  session : Session

/-- What is seen of a run. -/
def Execution.seen (e : Execution) : Except Fault Reply × Session :=
  (e.result.map (·.withLog e.lines), e.session)

/-- The settings that a call reads are these. -/
def Reads (t : Tree) (arguments : List String) (settings : Settings) : Prop :=
  ∀ given, mainGroup.read t arguments = .ok given →
    Settings.load t ((given.path? configOption.key).getD .here) = .ok settings

end CommandLine

end MachineBundle
