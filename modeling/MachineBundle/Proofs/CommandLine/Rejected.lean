import MachineBundle.Proofs.Bundle.Replaced
import MachineBundle.Proofs.CommandLine.Given

/-!
# Commands that are rejected

A command looks at everything it was asked for before it writes. So a format without a binding, a missing manifest, a
missing machine or a bad setting leaves the tree as it is, and what goes wrong later is reported by other codes.
-/

namespace MachineBundle

variable {α β : Type}

/-- What is wrong with what was asked for. -/
def Fault.isRejection : Fault → Bool
  | unsupportedFormat _ | manifestMissing _ => true
  | _ => false

namespace Action

/-! ## Leaving the tree as it is -/

/-- An action that leaves the tree as it is, whatever it comes to. -/
def Keeps (act : Action α) : Prop :=
  ∀ scene, (outcome act scene).2.tree = scene.tree

namespace Keeps

theorem pure (a : α) : Keeps (Pure.pure a) := fun _ => rfl

theorem throw (f : Fault) : Keeps (MonadExcept.throw f : Action α) := fun _ => rfl

theorem read (act : Reading α) : Keeps (Action.read act) := fun _ => rfl

theorem query (ask : Tree → Except Fault α) : Keeps (Action.query ask) := read _

theorem notify (n : Log.Notice) : Keeps (Action.notify n) := read _

theorem map {act : Action α} (h : Keeps act) (g : α → β) : Keeps (g <$> act) := by
  intro scene
  have hact := h scene
  rw [outcome_map]
  rcases hr : outcome act scene with ⟨f | a, scene₁⟩ <;> rw [hr] at hact <;> exact hact

theorem bind {act : Action α} {next : α → Action β} (h : Keeps act) (hn : ∀ a, Keeps (next a)) :
    Keeps (act >>= next) := by
  intro scene
  have hact := h scene
  rw [outcome_bind]
  rcases hr : outcome act scene with ⟨f | a, scene₁⟩ <;> rw [hr] at hact
  · exact hact
  · exact (hn a scene₁).trans hact

theorem tryCatch {act : Action α} {handle : Fault → Action α} (h : Keeps act) (hh : ∀ f, Keeps (handle f)) :
    Keeps (MonadExcept.tryCatch act handle) := by
  intro scene
  have hact := h scene
  rw [outcome_tryCatch]
  rcases hr : outcome act scene with ⟨f | a, scene₁⟩ <;> rw [hr] at hact
  · exact (hh f scene₁).trans hact
  · exact hact

end Keeps

/-! ## Failing while writing -/

/-- An action that leaves the tree as it is where it rejects something. -/
def RejectsFirst (act : Action α) : Prop :=
  ∀ scene f scene', outcome act scene = (.error f, scene') → f.isRejection = true → scene'.tree = scene.tree

/-- What is done first leaves the tree as it is, and says what the rest can rely on. -/
theorem RejectsFirst.bind {act : Action α} {next : α → Action β} (h : Keeps act)
    (hn : ∀ a scene scene', outcome act scene = (.ok a, scene') → RejectsFirst (next a)) :
    RejectsFirst (act >>= next) := by
  intro scene f scene' hf hrejected
  have hact := h scene
  rcases hr : outcome act scene with ⟨g | a, scene₁⟩
  · rw [outcome_bind_error hr] at hf
    cases hf
    rw [← hact, hr]
  · rw [outcome_bind_ok hr] at hf
    rw [hn a scene scene₁ hr scene₁ f scene' hf hrejected, ← hact, hr]

end Action

open Action

/-! ## Writing -/

variable {p : Fault → Bool}

namespace Export

end Export

namespace Arrangement

end Arrangement

namespace CommandLine

/-! ## Replies -/

/-- The codes of replies that reject something. Errors in the arguments share one of them. -/
def rejectionCodes : List Nat :=
  [Failure.unsupportedFormat, .manifestMissing, .machineMissing, .badSetting].map Failure.code

/-- An action with replies of a kind only. -/
def RepliesOnly (P : Reply → Prop) (act : Action Reply) : Prop :=
  ∀ scene r scene', outcome act scene = (.ok r, scene') → P r

/-- An action with replies that reject nothing. -/
abbrev Accepts (act : Action Reply) : Prop :=
  RepliesOnly (·.code ∉ rejectionCodes) act

/-- An action that leaves the tree as it is where its reply rejects something. -/
def KeepsIfRejected (act : Action Reply) : Prop :=
  ∀ scene r scene', outcome act scene = (.ok r, scene') → r.code ∈ rejectionCodes → scene'.tree = scene.tree

namespace RepliesOnly

variable {P : Reply → Prop}

theorem pure {r : Reply} (h : P r) : RepliesOnly P (Pure.pure r) := by
  intro scene r' scene' hr
  cases hr
  exact h

theorem throw (f : Fault) : RepliesOnly P (MonadExcept.throw f) := by
  intro scene r scene' h
  cases h

theorem bind {act : Action α} {next : α → Action Reply} (h : ∀ a, RepliesOnly P (next a)) :
    RepliesOnly P (act >>= next) := by
  intro scene r scene' hr
  obtain ⟨a, scene₁, -, hnext⟩ := outcome_bind_eq_ok hr
  exact h a scene₁ r scene' hnext

theorem tryCatch {act : Action Reply} {handle : Fault → Action Reply} (h : RepliesOnly P act)
    (hh : ∀ f, RepliesOnly P (handle f)) : RepliesOnly P (MonadExcept.tryCatch act handle) := by
  intro scene r scene' hr
  rw [outcome_tryCatch] at hr
  rcases hres : outcome act scene with ⟨f | r', scene₁⟩ <;> rw [hres] at hr <;> dsimp only at hr
  · exact hh f scene₁ r scene' hr
  · exact h scene r scene' (hres.trans hr)

end RepliesOnly

theorem KeepsIfRejected.bind {act : Action α} {next : α → Action Reply} (h : Keeps act)
    (hn : ∀ a, KeepsIfRejected (next a)) : KeepsIfRejected (act >>= next) := by
  intro scene r scene' hr hcode
  obtain ⟨a, scene₁, hact, hnext⟩ := outcome_bind_eq_ok hr
  rw [hn a scene₁ r scene' hnext hcode, ← h scene, hact]

/-- Commands report what they reject, and nothing else in the same way, without touching the tree. -/
theorem KeepsIfRejected.tryCatch {act : Action Reply} {handle : Fault → Action Reply} (h : RejectsFirst act)
    (hact : Accepts act) (hkeeps : ∀ f, Keeps (handle f)) (hhandle : ∀ f, f.isRejection = false → Accepts (handle f)) :
    KeepsIfRejected (MonadExcept.tryCatch act handle) := by
  intro scene r scene' hr hcode
  rw [outcome_tryCatch] at hr
  rcases hres : outcome act scene with ⟨f | r', scene₁⟩ <;> rw [hres] at hr <;> dsimp only at hr
  · cases hf : f.isRejection with
    | false => exact absurd hcode (hhandle f hf scene₁ r scene' hr)
    | true =>
      have hkept := hkeeps f scene₁
      rw [hr] at hkept
      exact hkept.trans (h scene f scene₁ hres hf)
  · rw [Prod.mk.injEq, Except.ok.injEq] at hr
    rw [← hr.1] at hcode
    exact absurd hcode (hact scene r' scene₁ hres)

namespace Conversion

variable (c : Conversion) (s : Settings)

variable {c}

end Conversion

/-! ## Commands about arrangements -/

/-- Whether a request asks for files to be written. -/
def Request.writes : Request → Bool
  | .convert c => c.output.isSome
  | .formats | .showMachines _ => false
  | .saveMachines .. | .convertMachines _ => true

end CommandLine

end MachineBundle
