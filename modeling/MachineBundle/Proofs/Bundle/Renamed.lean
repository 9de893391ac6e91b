import Mathlib.Data.List.Basic
import Mathlib.Data.Prod.Basic
import MachineBundle.Bundle.Machine
import MachineBundle.Proofs.Outcome

/-!
# Other identifiers

A supply that has handed out more identifiers hands out later ones, and this is all that a machine takes from it: loaded
after more has been drawn it is the same machine with later identifiers.
-/

namespace MachineBundle

open Function

/-! ## Identifiers -/

namespace Ident

/-- What lies between an identifier and the next that a supply hands out. -/
def stride : Nat := 0x1000000000000000000000001

/-- The identifier that is handed out `d` later. -/
def later (d : Nat) : Ident → Ident
  | numbered value => numbered (value + d * stride)
  | absent => absent

/-- The identifier that is handed out `d` earlier. -/
def earlier (d : Nat) : Ident → Ident
  | numbered value => numbered (value - d * stride)
  | absent => absent

theorem later_generated (d k : Nat) : (generated k).later d = generated (k + d) := by
  simp only [generated, later, stride, numbered.injEq]
  omega

theorem earlier_later (d : Nat) : LeftInverse (earlier d) (later d) := by
  intro i
  cases i with
  | numbered value => rw [later, earlier, Nat.add_sub_cancel]
  | absent => rfl

end Ident

variable {σ τ : Ident → Ident}

/-! ## Tables -/

namespace Table

variable {κ ν : Type} [DecidableEq κ] {ρ : κ → κ}

theorem map_set (hρ : Injective ρ) (f : ν → ν) (k : κ) (v : ν) (t : Table κ ν) :
    (set k v t).map (Prod.map ρ f) = set (ρ k) (f v) (t.map (Prod.map ρ f)) := by
  induction t with
  | nil => rfl
  | cons e r ih =>
    obtain ⟨i, w⟩ := e
    by_cases hi : i = k
    · simp [set, hi]
    · simp [set, hi, hρ.ne hi, ih]

theorem map_ofEntries (hρ : Injective ρ) (f : ν → ν) (es : List (κ × ν)) :
    (ofEntries es).map (Prod.map ρ f) = ofEntries (es.map (Prod.map ρ f)) := by
  have hfold : ∀ t : Table κ ν, (es.foldl (fun t e => set e.1 e.2 t) t).map (Prod.map ρ f) =
      (es.map (Prod.map ρ f)).foldl (fun t e => set e.1 e.2 t) (t.map (Prod.map ρ f)) := by
    induction es with
    | nil => exact fun t => rfl
    | cons e r ih =>
      intro t
      rw [List.foldl_cons, List.map_cons, List.foldl_cons, ih, map_set hρ]
      rfl
  exact hfold []

end Table

/-! ## Machines -/

def State.renamed (σ : Ident → Ident) (s : State) : State :=
  { s with id := σ s.id }

def Transition.renamed (σ : Ident → Ident) (r : Transition) : Transition :=
  { r with id := σ r.id, source := σ r.source, target := r.target.map σ }

/-- A graph with other identifiers, in its lists and in its records. -/
def Graph.renamed (σ : Ident → Ident) (g : Graph) : Graph where
  states := g.states.map σ
  transitions := g.transitions.map σ
  stateRecords := g.stateRecords.map (Prod.map σ (State.renamed σ))
  transitionRecords := g.transitionRecords.map (Prod.map σ (Transition.renamed σ))
  suspendState := g.suspendState.map σ

/-- A machine with other identifiers; the code and the places of its states go with them. -/
def Machine.renamed (σ : Ident → Ident) (m : Machine) : Machine :=
  { m with
    graph := m.graph.renamed σ
    stateBoilerplate := m.stateBoilerplate.map (Prod.map σ id)
    stateLayout := m.stateLayout.map (Prod.map σ id) }

/-- Two machines are the same up to identifiers: each is the other one with other identifiers. -/
def Machine.SameButIds (m m' : Machine) : Prop :=
  ∃ σ τ : Ident → Ident, m' = m.renamed σ ∧ m = m'.renamed τ

theorem Machine.SameButIds.symm {m m' : Machine} (h : m.SameButIds m') : m'.SameButIds m := by
  obtain ⟨σ, τ, hσ, hτ⟩ := h
  exact ⟨τ, σ, hτ, hσ⟩

/-! ### There and back -/

theorem Table.map_leftInverse {ν : Type} {f g : ν → ν} (h : LeftInverse τ σ) (hf : LeftInverse f g)
    (t : Table Ident ν) : (t.map (Prod.map σ g)).map (Prod.map τ f) = t :=
  (h.prodMap hf).list_map t

section LeftInverse

variable (h : LeftInverse τ σ)

include h

theorem Option.map_leftInverse (o : Option Ident) : (o.map σ).map τ = o := by
  rw [Option.map_map, h.comp_eq_id, Option.map_id_fun, id]

theorem State.renamed_leftInverse : LeftInverse (State.renamed τ) (State.renamed σ) := by
  intro s
  rw [State.renamed, State.renamed, h]

theorem Transition.renamed_leftInverse : LeftInverse (Transition.renamed τ) (Transition.renamed σ) := by
  intro r
  rw [Transition.renamed, Transition.renamed, h, h, Option.map_leftInverse h]

theorem Graph.renamed_leftInverse : LeftInverse (Graph.renamed τ) (Graph.renamed σ) := by
  intro g
  rw [Graph.renamed, Graph.renamed, h.list_map, h.list_map, Option.map_leftInverse h,
    Table.map_leftInverse h (State.renamed_leftInverse h), Table.map_leftInverse h (Transition.renamed_leftInverse h)]

theorem Machine.renamed_leftInverse : LeftInverse (Machine.renamed τ) (Machine.renamed σ) := by
  intro m
  rw [Machine.renamed, Machine.renamed, Graph.renamed_leftInverse h, Table.map_leftInverse h (fun _ => rfl),
    Table.map_leftInverse h (fun _ => rfl)]

end LeftInverse

/-! ## Readings of later supplies -/

variable {α β γ δ : Type} {t : Tree} {d : Nat}

/-- Of two readings the second, from where `d` identifiers more have been drawn, comes to the result of the first,
changed by `f`, or to the same fault. Then it has again drawn `d` more. -/
def Reading.Follows (t : Tree) (d : Nat) (f : α → β) (act : Reading α) (act' : Reading β) : Prop :=
  ∀ trail trail', trail'.supply.drawn = trail.supply.drawn + d →
    (outcome (act' t) trail').1 = (outcome (act t) trail).1.map f ∧
      (outcome (act' t) trail').2.supply.drawn = (outcome (act t) trail).2.supply.drawn + d

namespace Reading.Follows

variable {f : α → β} {act : Reading α} {act' : Reading β}

theorem pure (a : α) : Follows t d f (Pure.pure a) (Pure.pure (f a)) :=
  fun _ _ h => ⟨rfl, h⟩

theorem throw (g : Fault) : Follows t d f (MonadExcept.throw g) (MonadExcept.throw g) :=
  fun _ _ h => ⟨rfl, h⟩

theorem notify (n : Log.Notice) : Follows t d id (Reading.notify n) (Reading.notify n) :=
  fun _ _ h => ⟨rfl, h⟩

theorem query {ask : Tree → Except Fault α} {ask' : Tree → Except Fault β} (h : ask' t = (ask t).map f) :
    Follows t d f (Reading.query ask) (Reading.query ask') :=
  fun _ _ hd => ⟨h, hd⟩

theorem query_self (ask : Tree → Except Fault α) : Follows t d id (Reading.query ask) (Reading.query ask) :=
  query (by cases ask t <;> rfl)

theorem draw : Follows t d (Ident.later d) Reading.draw Reading.draw := by
  intro trail trail' h
  rw [outcome_draw, outcome_draw, h]
  refine ⟨?_, by dsimp only; omega⟩
  rw [Except.map, Ident.later_generated, Nat.add_right_comm]

/-- Either both fail with the same fault or both come to a result. -/
theorem outcomes (h : Follows t d f act act') {trail trail' : Trail}
    (hd : trail'.supply.drawn = trail.supply.drawn + d) :
    ∃ trail₁ trail₁' : Trail, trail₁'.supply.drawn = trail₁.supply.drawn + d ∧
      ((∃ e, outcome (act t) trail = (.error e, trail₁) ∧ outcome (act' t) trail' = (.error e, trail₁')) ∨
        ∃ a, outcome (act t) trail = (.ok a, trail₁) ∧ outcome (act' t) trail' = (.ok (f a), trail₁')) := by
  obtain ⟨hresult, hdrawn⟩ := h trail trail' hd
  refine ⟨_, _, hdrawn, ?_⟩
  rcases hr : outcome (act t) trail with ⟨e | a, trail₁⟩
  · exact .inl ⟨e, rfl, Prod.ext (by rw [hresult, hr]; rfl) rfl⟩
  · exact .inr ⟨a, rfl, Prod.ext (by rw [hresult, hr]; rfl) rfl⟩

theorem bind {g : γ → δ} {next : α → Reading γ} {next' : β → Reading δ} (h : Follows t d f act act')
    (hn : ∀ a, Follows t d g (next a) (next' (f a))) : Follows t d g (act >>= next) (act' >>= next') := by
  intro trail trail' hd
  obtain ⟨trail₁, trail₁', hdrawn, ⟨e, he, he'⟩ | ⟨a, ha, ha'⟩⟩ := h.outcomes hd
  · rw [outcome_reading_bind_error he, outcome_reading_bind_error he']
    exact ⟨rfl, hdrawn⟩
  · rw [outcome_reading_bind_ok ha, outcome_reading_bind_ok ha']
    exact hn a trail₁ trail₁' hdrawn

theorem map (h : Follows t d id act act) (g : α → β) : Follows t d id (g <$> act) (g <$> act) := by
  rw [map_eq_pure_bind]
  exact h.bind fun a => pure (g a)

theorem tryCatch {handle : Fault → Reading α} {handle' : Fault → Reading β} (h : Follows t d f act act')
    (hh : ∀ e, Follows t d f (handle e) (handle' e)) :
    Follows t d f (MonadExcept.tryCatch act handle) (MonadExcept.tryCatch act' handle') := by
  intro trail trail' hd
  rw [outcome_reading_tryCatch, outcome_reading_tryCatch, outcome_tryCatch, outcome_tryCatch]
  obtain ⟨trail₁, trail₁', hdrawn, ⟨e, he, he'⟩ | ⟨a, ha, ha'⟩⟩ := h.outcomes hd
  · rw [he, he']
    exact hh e trail₁ trail₁' hdrawn
  · rw [ha, ha']
    exact ⟨rfl, hdrawn⟩

/-- Where something unreadable is passed over with a notice, and other faults stay. -/
theorem passOver (g : Fault) (note : Fault → Log.Notice) (a : α) {report : Reading α}
    (h : report = do
      if !g.isUnreadable then MonadExcept.throw g
      Reading.notify (note g)
      return a) : Follows t d id report report := by
  rw [h]
  cases g.isUnreadable with
  | false => exact (throw (f := id) g).bind fun _ => (notify (note g)).bind fun _ => pure a
  | true => exact (notify (note g)).bind fun _ => pure a

theorem mapM {ι : Type} {act : ι → Reading α} {act' : ι → Reading β} {l : List ι}
    (h : ∀ i ∈ l, Follows t d f (act i) (act' i)) : Follows t d (List.map f) (l.mapM act) (l.mapM act') := by
  induction l with
  | nil => exact pure []
  | cons i r ih =>
    rw [List.mapM_cons, List.mapM_cons]
    refine (h i List.mem_cons_self).bind fun a => ?_
    exact (ih fun j hj => h j (List.mem_cons_of_mem i hj)).bind fun as => pure (a :: as)

theorem about (h : Follows t d f act act') (machine : String) :
    Follows t d f (Reading.about machine act) (Reading.about machine act') :=
  fun trail trail' hd => h { trail with notices := [] } { trail' with notices := [] } hd

end Reading.Follows

/-! ## Loading -/

namespace Bundle

variable {states : List State} {bundle : Path} {b : Binding}

theorem stateAt?_renamed (σ : Ident → Ident) (states : List State) (position : Option Int) :
    stateAt? (states.map (State.renamed σ)) position = (stateAt? states position).map σ := by
  unfold stateAt?
  split
  · rw [List.getElem?_map, Option.map_map, Option.map_map]
    rfl
  · rfl

theorem targetOf_renamed (σ : Ident → Ident) (states : List State) (state : String) (index : Int) :
    targetOf b t bundle (states.map (State.renamed σ)) state index =
      (targetOf b t bundle states state index).map (Option.map σ) := by
  unfold targetOf
  cases checkIndex b t bundle state index with
  | error f => rfl
  | ok _ =>
    cases content? t bundle (Binding.stateHeaderFile state) with
    | error f => rfl
    | ok header =>
      dsimp only [bind, Except.bind]
      cases number? (b.targetPattern index) header with
      | error f => rfl
      | ok position => exact congrArg Except.ok (stateAt?_renamed σ states _)

theorem suspendState_renamed (σ : Ident → Ident) (states : List State) :
    suspendState b t bundle (states.map (State.renamed σ)) = (suspendState b t bundle states).map (Option.map σ) := by
  unfold suspendState
  cases content? t bundle (b.implementationFile bundle.stem) with
  | error f => rfl
  | ok implementation =>
    dsimp only [bind, Except.bind]
    cases number? b.suspendPattern implementation with
    | error f => rfl
    | ok position => exact congrArg Except.ok (stateAt?_renamed σ states _)

theorem guardOf_follows (state : String) (index : Int) :
    Reading.Follows t d id (guardOf b bundle state index) (guardOf b bundle state index) := by
  refine (Reading.Follows.query_self _).bind fun _ => ((Reading.Follows.query_self _).map _).tryCatch fun f => ?_
  exact .passOver f (unreadableGuard b bundle _) defaultGuard rfl

theorem bindingOrDefault_follows : Reading.Follows t d id (bindingOrDefault bundle) (bindingOrDefault bundle) := by
  have hrecord : Reading.Follows t d id (languageRecord? bundle) (languageRecord? bundle) := by
    refine (Reading.Follows.query_self _).bind fun there => ?_
    cases there with
    | false => exact .pure none
    | true => exact ((Reading.Follows.query_self _).map some).tryCatch fun f => .passOver f (unreadableLanguage bundle) none rfl
  have hbinding : Reading.Follows t d id (binding? bundle) (binding? bundle) := hrecord.bind fun _ => .pure _
  exact hbinding.bind fun _ => .pure _

end Bundle

theorem Graph.ofRecords_renamed (hσ : Injective σ) (states : List State) (transitions : List Transition)
    (suspend : Option Ident) :
    (ofRecords states transitions suspend).renamed σ =
      ofRecords (states.map (State.renamed σ)) (transitions.map (Transition.renamed σ)) (suspend.map σ) := by
  simp only [Graph.renamed, ofRecords, Table.map_ofEntries hσ, List.map_map]
  rfl

namespace Machine

variable {b : Binding} {bundle : Path} {binding : Option Binding}

theorem gridLayout_renamed (hσ : Injective σ) (states : List State) :
    (gridLayout states).map (Prod.map σ id) = gridLayout (states.map (State.renamed σ)) := by
  rw [gridLayout, gridLayout, Table.map_ofEntries hσ]
  congr 1
  apply List.ext_getElem?
  intro i
  rw [List.getElem?_map, List.getElem?_mapIdx, List.getElem?_mapIdx, List.getElem?_map, Option.map_map, Option.map_map]
  rfl

theorem freshState_follows (name : String) :
    Reading.Follows t d (State.renamed (Ident.later d)) (freshState name) (freshState name) :=
  Reading.Follows.draw.bind fun i => .pure (State.mk i name)

theorem readTransition_follows (states : List State) (s : State) (index : Nat) :
    Reading.Follows t d (Transition.renamed (Ident.later d)) (readTransition b bundle states s index)
      (readTransition b bundle (states.map (State.renamed (Ident.later d))) (s.renamed (Ident.later d)) index) := by
  refine (Bundle.guardOf_follows s.name index).bind fun label => ?_
  refine (Reading.Follows.query (Bundle.targetOf_renamed _ states s.name index)).bind fun target => ?_
  exact Reading.Follows.draw.bind fun i => .pure (Transition.mk i s.id label target)

theorem readTransitions_follows (states : List State) (s : State) :
    Reading.Follows t d (List.map (Transition.renamed (Ident.later d))) (readTransitions b bundle states s)
      (readTransitions b bundle (states.map (State.renamed (Ident.later d))) (s.renamed (Ident.later d))) :=
  (Reading.Follows.query_self _).bind fun _ => .mapM fun index _ => readTransition_follows states s index

theorem readGraph_follows :
    Reading.Follows t d (Prod.map (List.map (State.renamed (Ident.later d))) (Graph.renamed (Ident.later d)))
      (readGraph b bundle) (readGraph b bundle) := by
  refine (Reading.Follows.query_self _).bind fun names => ?_
  refine (Reading.Follows.mapM fun name _ => freshState_follows name).bind fun states => ?_
  rw [List.mapM_map]
  refine (Reading.Follows.mapM fun s _ => readTransitions_follows states s).bind fun rows => ?_
  refine (Reading.Follows.query (Bundle.suspendState_renamed _ states)).bind fun suspend => ?_
  rw [← List.map_flatten, ← Graph.ofRecords_renamed (Ident.earlier_later d).injective]
  exact .pure (states, Graph.ofRecords states rows.flatten suspend)

theorem readParts_follows :
    Reading.Follows t d (Machine.renamed (Ident.later d)) (readParts b bundle) (readParts b bundle) := by
  have hσ := (Ident.earlier_later d).injective
  refine readGraph_follows.bind fun (states, graph) => ?_
  refine (Reading.Follows.query_self _).bind fun boilerplate => ?_
  rw [List.mapM_map]
  refine (Reading.Follows.mapM (f := Prod.map (Ident.later d) id) fun s _ =>
    (Reading.Follows.query_self _).bind fun code => .pure (s.id, code)).bind fun codes => ?_
  refine (Reading.Follows.query_self _).bind fun layout => ?_
  rw [← Table.map_ofEntries hσ, ← gridLayout_renamed hσ]
  exact .pure (Machine.mk bundle.stem b graph boilerplate (.ofEntries codes) (gridLayout states) layout)

/-- Loaded after `d` more identifiers have been drawn, a machine has identifiers that are later by `d`. -/
theorem load_follows (t : Tree) (d : Nat) (bundle : Path) (binding : Option Binding) :
    Reading.Follows t d (Machine.renamed (Ident.later d)) (load bundle binding) (load bundle binding) := by
  refine Reading.Follows.about ?_ bundle.stem
  cases binding with
  | some b => exact readParts_follows
  | none => exact Bundle.bindingOrDefault_follows.bind fun b => readParts_follows

/-- What has been noticed before has no part in what is loaded, and what is noticed now comes after it. -/
theorem load_of_supply (t : Tree) (bundle : Path) (binding : Option Binding) {trail trail' : Trail}
    (h : trail'.supply = trail.supply) :
    (outcome (load bundle binding t) trail').1 = (outcome (load bundle binding t) trail).1 ∧
      (outcome (load bundle binding t) trail').2.supply = (outcome (load bundle binding t) trail).2.supply ∧
      ∃ noticed, (outcome (load bundle binding t) trail).2.notices = trail.notices ++ noticed ∧
        (outcome (load bundle binding t) trail').2.notices = trail'.notices ++ noticed := by
  obtain ⟨supply, notices⟩ := trail
  obtain ⟨supply', notices'⟩ := trail'
  cases h
  exact ⟨rfl, rfl, _, rfl, rfl⟩

/-- Wherever a bundle is loaded from, the same fault comes up or the same machine up to identifiers. -/
theorem load_from_anywhere (t : Tree) (bundle : Path) (binding : Option Binding) (trail trail' : Trail) :
    (∃ f, (outcome (load bundle binding t) trail).1 = .error f ∧
      (outcome (load bundle binding t) trail').1 = .error f) ∨
    ∃ m m', (outcome (load bundle binding t) trail).1 = .ok m ∧ (outcome (load bundle binding t) trail').1 = .ok m' ∧
      m.SameButIds m' := by
  wlog hle : trail.supply.drawn ≤ trail'.supply.drawn generalizing trail trail'
  · rcases this trail' trail (Nat.le_of_not_le hle) with ⟨f, h', h⟩ | ⟨m', m, h', h, hsame⟩
    · exact .inl ⟨f, h, h'⟩
    · exact .inr ⟨m, m', h, h', hsame.symm⟩
  obtain ⟨d, hd⟩ := Nat.exists_eq_add_of_le hle
  obtain ⟨_, _, -, ⟨f, h, h'⟩ | ⟨m, h, h'⟩⟩ := (load_follows t d bundle binding).outcomes hd
  · exact .inl ⟨f, by rw [h], by rw [h']⟩
  · have hsame : m.SameButIds (m.renamed (Ident.later d)) :=
      ⟨_, Ident.earlier d, rfl, (renamed_leftInverse (Ident.earlier_later d) m).symm⟩
    exact .inr ⟨m, _, by rw [h], by rw [h'], hsame⟩

end Machine

end MachineBundle
