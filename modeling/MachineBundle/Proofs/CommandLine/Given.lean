import MachineBundle.CommandLine.Run
import MachineBundle.Proofs.Outcome
import MachineBundle.Proofs.Tree.Reach

/-!
# Options that are given

An option has a value only if an argument names it, and operands are arguments. So a request asks for nothing that the
arguments do not ask for.
-/

namespace MachineBundle

namespace CommandLine

variable {c : Command} {t : Tree} {a a' : Arguments} {arguments : List String} {key : String}

/-! ## Options that arguments name -/

/-- The keys of the options that an effect is about. -/
def Effect.keys : Effect → List String
  | .sets options => options.map Prod.fst
  | .asks key _ => [key]

/-- An argument that sets an option, or asks for its value. -/
def Command.Names (c : Command) (key argument : String) : Prop :=
  ∃ e, c.effect argument = .ok e ∧ key ∈ e.keys

namespace Command

/-- Options that are named by some of these arguments, and operands that are among them. -/
structure GivenBy (c : Command) (all : List String) (a : Arguments) : Prop where
  options : ∀ key ∈ a.options.map Prod.fst, ∃ x ∈ all, c.Names key x
  operands : ∀ x ∈ a.operands, x ∈ all

variable {all : List String}

theorem GivenBy.none : c.GivenBy all .none where
  options := fun _ h => by cases h
  operands := fun _ h => by cases h

theorem GivenBy.addOptions (h : c.GivenBy all a) {options : List (String × String)}
    (hnew : ∀ key ∈ options.map Prod.fst, ∃ x ∈ all, c.Names key x) : c.GivenBy all (a.addOptions options) where
  options := by
    intro key hkey
    rw [Arguments.addOptions, List.map_append, List.mem_append] at hkey
    exact hkey.elim (h.options key) (hnew key)
  operands := h.operands

theorem GivenBy.addOperands (h : c.GivenBy all a) {operands : List String} (hnew : ∀ x ∈ operands, x ∈ all) :
    c.GivenBy all (a.addOperands operands) where
  options := h.options
  operands := fun x hx => (List.mem_append.mp hx).elim (h.operands x) (hnew x)

end Command

/-! ## Requests -/

end CommandLine

end MachineBundle
