import MachineBundle.Proofs.CommandLine.Overlooked

/-!
# Commands that report

A command ends with a report unless a fault gets past it. Each command handles faults of some kinds, and its calls can
have others: what stands in a bundle stops a conversion without a report, what stands in a manifest stops the command
that shows it, and a directory that cannot be made stops the command that writes one.
-/

namespace MachineBundle

open Action Bundle Reading

namespace CommandLine

/-! ## Reports -/

/-- A report is one object with a status on the output, and its code says whether this is the status of a success. -/
def Reply.IsReport (r : Reply) : Prop :=
  r.code ∈ [0, 1, 2, 3, 4] ∧ ∃ entries, r.out =
    Reply.document ((.text "status", .text (if r.code = 0 then "success" else "error")) :: entries)

/-- An action that gives no other replies than reports. -/
abbrev Reports (act : Action Reply) : Prop :=
  RepliesOnly Reply.IsReport act

namespace Conversion

variable {c : Conversion} {s : Settings} {t : Tree} {bundle : Path} {trail : Trail}

/-- What a conversion of machines does not report: an argument with too long a path, and bundles that have something in
them that cannot be used. -/
def Overlooks (c : Conversion) (s : Settings) (t : Tree) : Prop :=
  (∃ f, bundles t s.machineSuffix c.machines = .error f) ∨
    ∃ found, bundles t s.machineSuffix c.machines = .ok (.ok found) ∧ c.checkFormat = .ok () ∧ Blocked s t found

end Conversion

/-! ## Commands about arrangements -/

open Arrangement

variable {scene : Scene} {directory : Path} {names : List String}

namespace Rearrangement

variable {r : Rearrangement} {s : Settings}

/-- What a conversion of an arrangement does not report: a first bundle among those that are not loaded in which something
cannot be used. -/
def Overlooks (r : Rearrangement) (t : Tree) : Prop :=
  (∀ f ∈ r.format, ∃ b, Export.bindingFor f = .ok b) ∧ ∃ names, loadNames t r.directory = .ok names ∧
    Stops (Passes t r.directory) (Blocks t r.directory) names

end Rearrangement

/-! ## Running the program -/

/-- What a request does not report on a tree. -/
def Request.Overlooks (s : Settings) (t : Tree) : Request → Prop
  | .convert c => c.Overlooks s t
  | .formats => False
  | .showMachines directory => Unlistable t directory
  | .saveMachines directory names => (∀ name ∈ names, hasLineBreak name = false) ∧
      FailsBy Fault.isSystem (Filing.createScratch (manifestPath directory)) t
  | .convertMachines r => r.Overlooks t

/-- Saving a manifest in a directory that is there is always reported, if there is room for its scratch file. -/
theorem Request.not_overlooks_saveMachines {t : Tree} {d : Location} (h : t.isDirectory directory = .ok true)
    (hd : t.directory? directory = some d)
    (htext : (Scratch.textFor t.home d manifestFile).utf8ByteSize < Tree.pathLimit) (s : Settings) :
    ¬(Request.saveMachines directory names).Overlooks s t := by
  have hname : Path.IsName manifestFile := fileName_manifestFile.isName
  obtain ⟨hnull, -, -⟩ := Tree.isDirectory_eq_true.mp h
  have hmanifest : Tree.hasNull (manifestPath directory) = false := by
    rw [manifestPath, Path.hasNull_join _ hname, hnull]
    decide
  have hparent : (manifestPath directory).parent = directory := Path.parent_join directory hname
  have hbelow : (manifestPath directory).name = manifestFile := Path.name_join directory hname
  rintro ⟨-, f, hf, -⟩
  rw [Filing.outcome_createScratch_there hmanifest (by rwa [hparent]) (by rwa [hparent]) (by rw [hbelow]; decide)
    (by rwa [hbelow])] at hf
  cases hf

/-- The paths of a request have been split at slashes. -/
def Request.IsSplit : Request → Prop
  | .convert c => ∀ output ∈ c.output, output.IsSplit
  | .convertMachines r => r.directory.IsSplit
  | .formats | .showMachines _ | .saveMachines .. => True

end CommandLine

end MachineBundle
