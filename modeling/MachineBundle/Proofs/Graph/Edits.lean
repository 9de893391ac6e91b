import MachineBundle.Proofs.Graph.Records

/-!
# Edits of graphs

The sequence of states and their records are edited apart from each other. They stay consistent as long as only
states that have a record, and no other place in the sequence, are made initial.
-/

namespace MachineBundle

/-- An edit of a graph through its operations. -/
inductive Edit where
  | initial (id : Ident)
  | name (name : String) (id : Ident)
  | label (label : String) (id : Ident)
  deriving DecidableEq, Repr

namespace Edit

def apply : Edit → Graph × Supply → Graph × Supply
  | .initial id, (g, supply) => (g.setInitial id, supply)
  | .name n id, (g, supply) => (g.setName n id, supply)
  | .label l id, (g, supply) => g.setLabel l id supply

/-- A graph after some edits, and the supply of identifiers that is left. -/
def run (edits : List Edit) (start : Graph × Supply) : Graph × Supply :=
  edits.foldl (fun s e => e.apply s) start

/-- A state that is made initial has a record, and no place in the sequence after the first. -/
def Fits : Edit → Graph → Prop
  | .initial id, g => (g.state? id).isSome = true ∧ id ∉ g.states.tail
  | .name .., _ => True
  | .label .., _ => True

end Edit

namespace Graph

/-- No state is listed twice, and each one that is listed has a record. -/
structure Consistent (g : Graph) : Prop where
  nodup : g.states.Nodup
  record : ∀ id ∈ g.states, (g.state? id).isSome = true

/-- The empty graph, and graphs of records with different identifiers. -/
def IsStart (g : Graph) : Prop :=
  g = .empty ∨ ∃ states transitions suspend, (states.map State.id).Nodup ∧
    (transitions.map Transition.id).Nodup ∧ g = .ofRecords states transitions suspend

theorem consistent_empty : Graph.empty.Consistent :=
  ⟨List.nodup_nil, by simp [empty]⟩

theorem consistent_ofRecords {states : List State} (hn : (states.map State.id).Nodup) (transitions : List Transition)
    (suspend : Option Ident) : (ofRecords states transitions suspend).Consistent := by
  refine ⟨hn, fun id hid => ?_⟩
  obtain ⟨s, hs, rfl⟩ := List.mem_map.mp hid
  rw [state?_ofRecords hn hs]
  rfl

theorem IsStart.consistent {g : Graph} (h : g.IsStart) : g.Consistent := by
  rcases h with rfl | ⟨states, transitions, suspend, hn, -, rfl⟩
  · exact consistent_empty
  · exact consistent_ofRecords hn transitions suspend

variable {g : Graph}

/-! ## One edit -/

theorem setInitial_consistent_iff (h : g.Consistent) (id : Ident) :
    (g.setInitial id).Consistent ↔ (g.state? id).isSome = true ∧ id ∉ g.states.tail := by
  obtain ⟨states, transitions, stateRecords, transitionRecords, suspend⟩ := g
  cases states with
  | nil =>
    constructor
    · intro hc
      exact ⟨hc.record id List.mem_cons_self, List.not_mem_nil⟩
    · rintro ⟨hr, -⟩
      refine ⟨List.nodup_singleton id, ?_⟩
      intro i hi
      cases List.mem_singleton.mp hi
      exact hr
  | cons first rest =>
    have hrest : rest.Nodup := (List.nodup_cons.mp h.nodup).2
    constructor
    · intro hc
      exact ⟨hc.record id List.mem_cons_self, (List.nodup_cons.mp hc.nodup).1⟩
    · rintro ⟨hr, hnew⟩
      refine ⟨List.nodup_cons.mpr ⟨hnew, hrest⟩, ?_⟩
      intro i hi
      rcases List.mem_cons.mp hi with rfl | hi
      · exact hr
      · exact h.record i (List.mem_cons_of_mem first hi)

/-- A state with a record has it under any edit that sets a record. -/
theorem isSome_get?_set {records : Table Ident State} {i id : Ident} {s : State}
    (h : (records.get? i).isSome = true ∨ i = id) : ((records.set id s).get? i).isSome = true := by
  rw [Table.get?_set]
  split
  · rfl
  · rename_i hne
    rcases h with h | rfl
    · exact h
    · exact absurd rfl hne

theorem setName_consistent (h : g.Consistent) (name : String) (id : Ident) : (g.setName name id).Consistent := by
  cases hid : (g.state? id).isSome with
  | true =>
    have hstates : (g.setName name id).states = g.states := by simp [setName, hid]
    refine ⟨by rw [hstates]; exact h.nodup, fun i hi => ?_⟩
    rw [hstates] at hi
    exact isSome_get?_set (.inl (h.record i hi))
  | false =>
    have hstates : (g.setName name id).states = g.states ++ [id] := by simp [setName, hid]
    have hnew : id ∉ g.states := by
      intro hmem
      rw [h.record id hmem] at hid
      cases hid
    refine ⟨?_, fun i hi => ?_⟩
    · rw [hstates]
      exact List.Nodup.append h.nodup (List.nodup_singleton id) (by simpa using hnew)
    · rw [hstates, List.mem_append, List.mem_singleton] at hi
      exact isSome_get?_set (hi.imp_left (h.record i))

theorem lastState_consistent (h : g.Consistent) (supply : Supply) : (g.lastState supply).2.1.Consistent := by
  unfold lastState
  split
  · exact h
  · refine ⟨List.nodup_singleton _, fun i hi => ?_⟩
    exact isSome_get?_set (.inr (List.mem_singleton.mp hi))

theorem setLabel_consistent (h : g.Consistent) (label : String) (id : Ident) (supply : Supply) :
    (g.setLabel label id supply).1.Consistent := by
  unfold setLabel
  split
  · exact ⟨h.nodup, h.record⟩
  · have hlast := lastState_consistent h supply
    exact ⟨hlast.nodup, hlast.record⟩

end Graph

namespace Edit

theorem apply_consistent_iff {g : Graph} (h : g.Consistent) (e : Edit) (supply : Supply) :
    (e.apply (g, supply)).1.Consistent ↔ e.Fits g := by
  cases e with
  | initial id => exact Graph.setInitial_consistent_iff h id
  | name n id => exact iff_of_true (Graph.setName_consistent h n id) trivial
  | label l id => exact iff_of_true (Graph.setLabel_consistent h l id supply) trivial

/-! ## Runs -/

theorem run_take_succ {edits : List Edit} {k : Nat} {e : Edit} (h : edits[k]? = some e) (start : Graph × Supply) :
    run (edits.take (k + 1)) start = e.apply (run (edits.take k) start) := by
  rw [List.take_add_one, h, run, List.foldl_append]
  rfl

theorem run_take_of_length_le {edits : List Edit} {k : Nat} (h : edits[k]? = none) (start : Graph × Supply) :
    run (edits.take (k + 1)) start = run (edits.take k) start := by
  rw [List.take_add_one, h, Option.toList_none, List.append_nil]

theorem run_consistent_iff {start : Graph × Supply} (h : start.1.Consistent) (edits : List Edit) :
    (∀ k, (run (edits.take k) start).1.Consistent) ↔
      ∀ (k : Nat) (e : Edit), edits[k]? = some e → e.Fits (run (edits.take k) start).1 := by
  constructor
  · intro hall k e he
    have hnext := hall (k + 1)
    rw [run_take_succ he] at hnext
    exact (apply_consistent_iff (hall k) e _).mp hnext
  · intro hfits k
    induction k with
    | zero => exact h
    | succ k ih =>
      cases he : edits[k]? with
      | none =>
        rw [run_take_of_length_le he]
        exact ih
      | some e =>
        rw [run_take_succ he]
        exact (apply_consistent_iff ih e _).mpr (hfits k e he)

/-- Along a run, states and records are consistent at every point if and only if every state that is made initial has
a record and no other place at that point. -/
theorem edits_consistent_iff (g : Graph) (supply : Supply) (edits : List Edit) (h : g.IsStart) :
    (∀ k, (run (edits.take k) (g, supply)).1.Consistent) ↔
      ∀ (k : Nat) (e : Edit), edits[k]? = some e → e.Fits (run (edits.take k) (g, supply)).1 :=
  run_consistent_iff h.consistent edits

/-- Two states and a transition between them. -/
def pair : Graph :=
  .ofRecords [⟨.generated 1, "A"⟩, ⟨.generated 2, "B"⟩]
    [⟨.generated 3, .generated 1, "true", some (.generated 2)⟩] none

theorem pair_isStart : pair.IsStart :=
  .inr ⟨_, _, _, by decide, by decide, rfl⟩

theorem pair_stays_consistent :
    pair.IsStart ∧ ∀ k, (run ([Edit.initial (.generated 1), .name "C" (.generated 4), .label "x" (.generated 3)].take k)
      (pair, ⟨4⟩)).1.Consistent := by
  refine ⟨pair_isStart, (edits_consistent_iff pair ⟨4⟩ _ pair_isStart).mpr fun k e he => ?_⟩
  rcases k with _ | _ | _ | k
  · cases he
    exact ⟨rfl, by decide⟩
  · cases he
    trivial
  · cases he
    trivial
  · cases he

/-- A state that is made initial keeps its former place too, and an unknown one gets no record. -/
theorem initial_state_is_repeated :
    pair.IsStart ∧ ¬ (run [.initial (.generated 2)] (pair, ⟨4⟩)).1.states.Nodup ∧
      ¬ ∀ id ∈ (run [.initial (.generated 4)] (pair, ⟨4⟩)).1.states,
        ((run [.initial (.generated 4)] (pair, ⟨4⟩)).1.state? id).isSome = true :=
  ⟨pair_isStart, by decide, by decide⟩

end Edit

end MachineBundle
