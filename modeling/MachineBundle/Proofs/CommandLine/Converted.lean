import MachineBundle.Proofs.Atomic.Calls
import MachineBundle.Proofs.Bundle.Inside
import MachineBundle.Proofs.Bundle.Legible
import MachineBundle.Proofs.Bundle.Reloaded
import MachineBundle.Proofs.CommandLine.Rejected

/-!
# Machines that are converted together

A conversion reads all its machines and then writes one after the other, each where its name leads. So what was written
for one machine stays unless a later one comes to the same places with other contents.
-/

namespace MachineBundle.CommandLine.Conversion

open Batch Bundle Export

variable {c : Conversion} {s : Settings} {t : Tree} {output : Path}

/-! ## Finding and reading -/

/-- The binding through which a bundle is read. -/
def givenBinding (s : Settings) (t : Tree) (bundle : Path) : Except Fault Binding :=
  match (text? t bundle languageFile).bind Binding.ofLanguage? with
  | some b => .ok b
  | none => Export.bindingFor s.defaultFormat

/-- Reading a machine is loading it through the binding that its bundle and the settings give. -/
theorem readMachine_ok {bundle : Path} {m : Machine} {trail trail' : Trail}
    (h : outcome (readMachine s bundle t) trail = (.ok m, trail')) :
    ∃ b trail₁, givenBinding s t bundle = .ok b ∧
      outcome (Machine.load bundle (some b) t) trail₁ = (.ok m, trail') := by
  unfold readMachine at h
  obtain ⟨recorded, trail₁, hrecorded, h⟩ := outcome_reading_bind_eq_ok h
  -- The record of the language can be read wherever the machine is loaded, so it does not depend on the trail.
  have hgiven : ∀ {b trail₂}, outcome (Machine.load bundle (some b) t) trail₂ = (.ok m, trail') →
      recorded = (text? t bundle languageFile).bind Binding.ofLanguage? := by
    intro b trail₂ hload
    obtain ⟨states, rows, hgraph, -⟩ := Machine.load_leads hload
    exact binding?_eq_ok hgraph.names hrecorded
  unfold givenBinding
  cases recorded with
  | none =>
    obtain ⟨b, trail₂, hbinding, hload⟩ := outcome_reading_bind_eq_ok h
    rw [outcome_reading_query, Prod.mk.injEq] at hbinding
    rw [← hgiven hload]
    exact ⟨b, trail₂, hbinding.1, hload⟩
  | some b =>
    have hload : outcome (Machine.load bundle (some b) t) trail₁ = (.ok m, trail') := h
    rw [← hgiven hload]
    exact ⟨b, trail₁, rfl, hload⟩

/-- A machine that has been converted, with its bundle and the report of its export. -/
structure Converted where
  bundle : Path
  machine : Machine
  report : Report

namespace Converted

/-- The files of the export, below the destination that it reports. -/
def batch (isSuspensible : Bool) (w : Converted) : Batch :=
  batchOf w.report.destination (files w.machine w.report.binding w.report.destination.stem isSuspensible)

/-- How a machine has been read and where it is written. -/
structure Of (c : Conversion) (s : Settings) (t : Tree) (output : Path) (w : Converted) : Prop where
  read : ∃ trail trail', outcome (readMachine s w.bundle t) trail = (.ok w.machine, trail')
  binding : c.bindingOf w.machine = .ok w.report.binding
  destination : w.report.destination = Conversion.destination s output w.machine

/-- A machine is written into a directory of its own name, with all its files below. -/
structure Apart (s : Settings) (w : Converted) : Prop where
  isName : Path.IsName (w.machine.name ++ s.machineSuffix)
  ne_dots : w.machine.name ++ s.machineSuffix ≠ ".."
  descends : ∀ state ∈ w.machine.graph.listedStates, descends 0 (stateFolder state.name) = true

variable {w w' : Converted}

theorem Of.name (h : w.Of c s t output) : w.machine.name = w.bundle.stem := by
  obtain ⟨_, _, hread⟩ := h.read
  obtain ⟨_, _, _, hload⟩ := readMachine_ok hread
  exact (load_ok hload).1

theorem Of.stateNames (h : w.Of c s t output) :
    Bundle.stateNames t w.bundle = .ok (w.machine.graph.listedStates.map State.name) := by
  obtain ⟨_, _, hread⟩ := h.read
  obtain ⟨_, _, _, hload⟩ := readMachine_ok hread
  obtain ⟨states, rows, hgraph, -⟩ := Machine.load_leads hload
  rw [hgraph.listedStates_eq]
  exact hgraph.names

/-- The files of a machine that is written apart all lie below the output, in the directory of its name. -/
theorem Of.locate (h : w.Of c s t output) (ha : w.Apart s) {isSuspensible : Bool} {p : Pending}
    (hp : p ∈ (w.batch isSuspensible).queue) :
    ∃ rest, t.locate p.target = t.locate output ++ (w.machine.name ++ s.machineSuffix) :: rest := by
  obtain ⟨f, hf, rfl⟩ := List.mem_map.mp hp
  have hjoin : output.join (w.machine.name ++ s.machineSuffix) =
      ⟨output.anchor, output.parts ++ [w.machine.name ++ s.machineSuffix]⟩ := Path.join_name output ha.isName
  have hstem : '/' ∉ w.report.destination.stem.toList := by
    rw [h.destination, Conversion.destination, Path.stem, hjoin, String.toList_ofList, Path.name, List.getLast?_concat]
    exact fun hmem => ha.isName.noSlash (Path.stemOf_subset _ hmem)
  obtain ⟨rest, -, he⟩ : ∃ rest, rest ≠ [] ∧
      t.locate (w.report.destination.join f.1) = t.locate w.report.destination ++ rest :=
    (staysBelow_files hstem ha.descends f hf).locate t
  have hbase : t.locate w.report.destination = t.locate output ++ [w.machine.name ++ s.machineSuffix] := by
    rw [h.destination, Conversion.destination, hjoin]
    exact climb_concat _ _ ha.ne_dots
  exact ⟨rest, he.trans (by rw [hbase, List.append_assoc]; rfl)⟩

end Converted

end MachineBundle.CommandLine.Conversion

namespace MachineBundle.CommandLine

open Batch

end MachineBundle.CommandLine
