import MachineBundle.Proofs.Graph.Edits

/-!
# Transitions under edits

Editing adds transitions at the end and changes nothing else about them than their labels. So the transitions that leave
a state only grow in number, and keep their order.
-/

namespace MachineBundle

namespace Table

variable {κ ν : Type} [DecidableEq κ]

theorem mem_keys_iff {key : κ} {t : Table κ ν} : key ∈ keys t ↔ (get? key t).isSome = true := by
  induction t with
  | nil => simp [keys, get?]
  | cons e r ih =>
    obtain ⟨k, v⟩ := e
    by_cases hk : k = key
    · simp [keys, get?, hk]
    · simpa [keys, get?, hk, Ne.symm hk] using ih

theorem get?_eq_none_of_not_mem {key : κ} {t : Table κ ν} (h : key ∉ keys t) : get? key t = none := by
  rwa [mem_keys_iff, Option.not_isSome_iff_eq_none] at h

theorem mem_of_get? {key : κ} {value : ν} {t : Table κ ν} (h : get? key t = some value) : (key, value) ∈ t := by
  induction t with
  | nil => cases h
  | cons e r ih =>
    obtain ⟨k, v⟩ := e
    unfold get? at h
    split at h
    · rename_i hk
      cases h
      rw [hk]
      exact List.mem_cons_self
    · exact List.mem_cons_of_mem _ (ih h)

theorem mem_set {key : κ} {value : ν} {t : Table κ ν} {e : κ × ν} (h : e ∈ set key value t) :
    e = (key, value) ∨ e ∈ t := by
  induction t with
  | nil => exact .inl (List.mem_singleton.mp h)
  | cons d r ih =>
    obtain ⟨k, v⟩ := d
    unfold set at h
    split at h
    · rename_i hk
      rcases List.mem_cons.mp h with rfl | h
      · exact .inl (by rw [hk])
      · exact .inr (List.mem_cons_of_mem _ h)
    · rcases List.mem_cons.mp h with rfl | h
      · exact .inr List.mem_cons_self
      · exact (ih h).imp_right (List.mem_cons_of_mem _)

theorem mem_foldl_set {es : List (κ × ν)} {t : Table κ ν} {e : κ × ν}
    (h : e ∈ es.foldl (fun t (k, v) => set k v t) t) : e ∈ es ∨ e ∈ t := by
  induction es generalizing t with
  | nil => exact .inr h
  | cons d r ih =>
    rcases ih h with h | h
    · exact .inl (List.mem_cons_of_mem _ h)
    · rcases mem_set h with rfl | h
      · exact .inl List.mem_cons_self
      · exact .inr h

theorem mem_of_mem_ofEntries {es : List (κ × ν)} {e : κ × ν} (h : e ∈ ofEntries es) : e ∈ es :=
  (mem_foldl_set h).resolve_right List.not_mem_nil

end Table

namespace Graph

/-- Different transitions are listed, in the order of their records, which are filed under their own identifiers. -/
structure Filed (g : Graph) : Prop where
  nodup : g.transitions.Nodup
  keys : g.transitions = g.transitionRecords.keys
  id : ∀ e ∈ g.transitionRecords, e.2.id = e.1

/-- A later graph has the transitions of an earlier one in front, with the same sources and targets. -/
structure Extends (earlier later : Graph) : Prop where
  transitions : earlier.transitions <+: later.transitions
  record : ∀ id t, earlier.transition? id = some t → ∃ label, later.transition? id = some { t with label := label }

variable {g g' g'' : Graph}

namespace Extends

theorem refl (g : Graph) : g.Extends g :=
  ⟨List.prefix_refl _, fun _ t h => ⟨t.label, h⟩⟩

theorem trans (h : g.Extends g') (h' : g'.Extends g'') : g.Extends g'' := by
  refine ⟨h.transitions.trans h'.transitions, fun id t ht => ?_⟩
  obtain ⟨label, hr⟩ := h.record id t ht
  obtain ⟨label', hr'⟩ := h'.record id _ hr
  exact ⟨label', hr'⟩

/-- What leaves a state stays in front of what leaves it later. -/
theorem transitionsFrom (h : g.Extends g') (hg : g.Filed) (id : Ident) :
    g.transitionsFrom id <+: g'.transitionsFrom id := by
  have hsame : g.transitionsFrom id = ({ g' with transitions := g.transitions } : Graph).transitionsFrom id := by
    refine List.filter_congr fun i hi => ?_
    rw [hg.keys, Table.mem_keys_iff, Option.isSome_iff_exists] at hi
    obtain ⟨t, ht⟩ := hi
    obtain ⟨label, hr⟩ := h.record i t ht
    have ht' : g.transition? i = some t := ht
    have hr' : ({ g' with transitions := g.transitions } : Graph).transition? i = some { t with label := label } := hr
    rw [ht', hr']
  rw [hsame]
  exact h.transitions.filter _

end Extends

/-! ## One edit -/

theorem Filed.id_of_transition? (h : g.Filed) {id : Ident} {t : Transition} (ht : g.transition? id = some t) :
    t.id = id :=
  h.id (id, t) (Table.mem_of_get? ht)

/-- A transition has got a label, and was added if it was not there. -/
structure Relabels (g : Graph) (id : Ident) (label : String) (g' : Graph) : Prop where
  transitions : g'.transitions = if id ∈ g.transitionRecords.keys then g.transitions else g.transitions ++ [id]
  record : ∃ t, g'.transitionRecords = g.transitionRecords.set id t ∧ t.id = id ∧ t.label = label ∧
    ∀ t₀, g.transition? id = some t₀ → t = { t₀ with label := label }

theorem lastState_transitions (g : Graph) (supply : Supply) :
    (g.lastState supply).2.1.transitions = g.transitions ∧
      (g.lastState supply).2.1.transitionRecords = g.transitionRecords := by
  unfold lastState
  split <;> exact ⟨rfl, rfl⟩

theorem setLabel_relabels (h : g.Filed) (label : String) (id : Ident) (supply : Supply) :
    g.Relabels id label (g.setLabel label id supply).1 := by
  unfold setLabel
  cases ht : g.transition? id with
  | some t =>
    have hid : t.id = id := h.id_of_transition? ht
    refine ⟨?_, { t with label := label }, rfl, hid, rfl, fun t₀ ht₀ => ?_⟩
    · rw [if_pos (Table.mem_keys_iff.mpr (by rw [← transition?, ht]; rfl))]
    · rw [ht, Option.some.injEq] at ht₀
      rw [ht₀]
  | none =>
    obtain ⟨hl, hr⟩ := g.lastState_transitions supply
    refine ⟨?_, ⟨id, (g.lastState supply).1, label, none⟩, ?_, rfl, rfl, fun t₀ ht₀ => ?_⟩
    · rw [if_neg fun hmem => ?_]
      · exact congrArg (· ++ [id]) hl
      · rw [Table.mem_keys_iff, ← transition?, ht] at hmem
        cases hmem
    · exact congrArg (Table.set id _) hr
    · rw [ht] at ht₀
      cases ht₀

namespace Relabels

variable {id : Ident} {label : String}

theorem transition? (h : g.Relabels id label g') : ∃ t, t.label = label ∧
    (∀ t₀, g.transition? id = some t₀ → t = { t₀ with label := label }) ∧
    ∀ i, g'.transition? i = if id = i then some t else g.transition? i := by
  obtain ⟨t, hr, -, hl, ht⟩ := h.record
  refine ⟨t, hl, ht, fun i => ?_⟩
  rw [Graph.transition?, hr, Table.get?_set]
  rfl

theorem filed (h : g.Relabels id label g') (hg : g.Filed) : g'.Filed := by
  obtain ⟨t, hr, hid, -, -⟩ := h.record
  have hkeys : g'.transitions = g'.transitionRecords.keys := by
    rw [h.transitions, hr, Table.keys_set, ← hg.keys]
  refine ⟨?_, hkeys, fun e he => ?_⟩
  · rw [h.transitions]
    split
    · exact hg.nodup
    · rename_i hnew
      rw [← hg.keys] at hnew
      exact List.Nodup.append hg.nodup (List.nodup_singleton id) (by simpa using hnew)
  · rw [hr] at he
    rcases Table.mem_set he with rfl | he
    · exact hid
    · exact hg.id e he

theorem grows (h : g.Relabels id label g') : g.Extends g' := by
  obtain ⟨t, -, ht, hget⟩ := h.transition?
  refine ⟨?_, fun i r hr => ?_⟩
  · rw [h.transitions]
    split
    · exact List.prefix_refl _
    · exact List.prefix_append _ _
  · rw [hget]
    split
    · rename_i hi
      subst hi
      exact ⟨label, congrArg some (ht r hr)⟩
    · exact ⟨r.label, hr⟩

theorem label? (h : g.Relabels id label g') (i : Ident) :
    g'.label? i = if id = i then some label else g.label? i := by
  obtain ⟨t, hl, -, hget⟩ := h.transition?
  rw [Graph.label?, hget]
  split
  · exact congrArg some hl
  · rfl

end Relabels

end Graph

namespace Edit

/-- The text that an edit sets for a transition. -/
def labelFor? (id : Ident) : Edit → Option String
  | .initial _ => none
  | .name _ _ => none
  | .label l i => if i = id then some l else none

/-- The text that edits set last for a transition. -/
def lastLabel? (id : Ident) (edits : List Edit) : Option String :=
  (edits.filterMap (labelFor? id)).getLast?

variable {g : Graph}

/-- An edit keeps transitions filed, adds at the end at most, and sets the label that it gives. -/
theorem apply_keeps (h : g.Filed) (e : Edit) (supply : Supply) :
    (e.apply (g, supply)).1.Filed ∧ g.Extends (e.apply (g, supply)).1 ∧
      ∀ id, (e.apply (g, supply)).1.label? id = (e.labelFor? id).or (g.label? id) := by
  cases e with
  | initial i => exact ⟨⟨h.nodup, h.keys, h.id⟩, ⟨List.prefix_refl _, fun _ t ht => ⟨t.label, ht⟩⟩, fun _ => rfl⟩
  | name n i => exact ⟨⟨h.nodup, h.keys, h.id⟩, ⟨List.prefix_refl _, fun _ t ht => ⟨t.label, ht⟩⟩, fun _ => rfl⟩
  | label l i =>
    have hl := Graph.setLabel_relabels h l i supply
    refine ⟨hl.filed h, hl.grows, fun id => ?_⟩
    rw [apply, hl.label?, labelFor?]
    split <;> rfl

/-! ## Runs -/

variable {start : Graph × Supply}

theorem lastLabel?_cons (id : Ident) (e : Edit) (edits : List Edit) :
    lastLabel? id (e :: edits) = (lastLabel? id edits).or (e.labelFor? id) := by
  rw [lastLabel?, List.filterMap_cons]
  cases e.labelFor? id with
  | none => rw [Option.or_none, lastLabel?]
  | some l =>
    rw [List.getLast?_cons, lastLabel?]
    cases (edits.filterMap (labelFor? id)).getLast? <;> rfl

theorem run_filed (h : start.1.Filed) (edits : List Edit) : (run edits start).1.Filed := by
  induction edits generalizing start with
  | nil => exact h
  | cons e edits ih => exact ih (apply_keeps h e start.2).1

theorem run_label? (h : start.1.Filed) (edits : List Edit) (id : Ident) :
    (run edits start).1.label? id = (lastLabel? id edits).or (start.1.label? id) := by
  induction edits generalizing start with
  | nil => rfl
  | cons e edits ih =>
    obtain ⟨hfiled, -, hlabel⟩ := apply_keeps h e start.2
    rw [lastLabel?_cons, Option.or_assoc, ← hlabel]
    exact ih hfiled

theorem run_extends (h : start.1.Filed) (edits : List Edit) : start.1.Extends (run edits start).1 := by
  induction edits generalizing start with
  | nil => exact .refl _
  | cons e edits ih =>
    obtain ⟨hfiled, hext, -⟩ := apply_keeps h e start.2
    exact hext.trans (ih hfiled)

/-- A run up to some point goes on from every point before it. -/
theorem run_take_of_le (edits : List Edit) {j k : Nat} (hjk : j ≤ k) (start : Graph × Supply) :
    run (edits.take k) start = run ((edits.take k).drop j) (run (edits.take j) start) := by
  have hsplit := List.take_append_drop j (edits.take k)
  rw [List.take_take, Nat.min_eq_left hjk] at hsplit
  rw [run, run, run, ← List.foldl_append, hsplit]

end Edit

namespace Graph

/-- The empty graph without transitions, and a graph of transitions with different identifiers. -/
def StartsWith (g : Graph) (transitions : List Transition) : Prop :=
  g = .empty ∧ transitions = [] ∨
    (transitions.map Transition.id).Nodup ∧ ∃ states suspend, g = .ofRecords states transitions suspend

theorem filed_empty : empty.Filed :=
  ⟨List.nodup_nil, rfl, fun e he => by cases he⟩

theorem filed_ofRecords {transitions : List Transition} (h : (transitions.map Transition.id).Nodup)
    (states : List State) (suspend : Option Ident) : (ofRecords states transitions suspend).Filed := by
  refine ⟨h, ?_, fun e he => ?_⟩
  · exact (Table.keys_ofEntries (by rw [List.map_map]; rfl) h).symm
  · obtain ⟨t, -, rfl⟩ := List.mem_map.mp (Table.mem_of_mem_ofEntries he)
    rfl

theorem label?_ofRecords {transitions : List Transition} (h : (transitions.map Transition.id).Nodup)
    (states : List State) (suspend : Option Ident) (id : Ident) :
    (ofRecords states transitions suspend).label? id =
      (transitions.find? (·.id = id)).map Transition.label := by
  cases hf : transitions.find? (·.id = id) with
  | some t =>
    have hid : t.id = id := by simpa using List.find?_some hf
    rw [label?, ← hid, transition?_ofRecords h (List.mem_of_find?_eq_some hf)]
  | none =>
    have hnone : (ofRecords states transitions suspend).transition? id = none := by
      refine Table.get?_eq_none_of_not_mem fun hid => ?_
      rw [← (filed_ofRecords h states suspend).keys] at hid
      obtain ⟨t, ht, hid⟩ := List.mem_map.mp hid
      exact absurd hid (by simpa using List.find?_eq_none.mp hf t ht)
    rw [label?, hnone]

theorem StartsWith.filed {g : Graph} {transitions : List Transition} (h : g.StartsWith transitions) : g.Filed := by
  rcases h with ⟨rfl, -⟩ | ⟨hn, states, suspend, rfl⟩
  · exact filed_empty
  · exact filed_ofRecords hn states suspend

theorem StartsWith.label? {g : Graph} {transitions : List Transition} (h : g.StartsWith transitions) (id : Ident) :
    g.label? id = (transitions.find? (·.id = id)).map Transition.label := by
  rcases h with ⟨rfl, rfl⟩ | ⟨hn, states, suspend, rfl⟩
  · rfl
  · exact label?_ofRecords hn states suspend id

end Graph

namespace Edit

/-- Along a run, the transitions are at every point filed in the order in which they are listed, each with the label that
was set for it last; and between two points, transitions are added at the end only, so that those that leave a state
stay in front, with their sources and targets. -/
theorem edits_keep_transitions (g : Graph) (transitions : List Transition) (supply : Supply) (edits : List Edit)
    (h : g.StartsWith transitions) :
    (∀ k, (run (edits.take k) (g, supply)).1.Filed ∧
      ∀ id, (run (edits.take k) (g, supply)).1.label? id =
        (lastLabel? id (edits.take k)).or ((transitions.find? (·.id = id)).map Transition.label)) ∧
    ∀ j k, j ≤ k →
      (run (edits.take j) (g, supply)).1.Extends (run (edits.take k) (g, supply)).1 ∧
      ∀ s, (run (edits.take j) (g, supply)).1.transitionsFrom s <+:
        (run (edits.take k) (g, supply)).1.transitionsFrom s := by
  have hg : (g, supply).1.Filed := h.filed
  refine ⟨fun k => ⟨run_filed hg (edits.take k), fun id => ?_⟩, fun j k hjk => ?_⟩
  · rw [run_label? hg, h.label?]
  · have hj := run_filed hg (edits.take j)
    rw [run_take_of_le edits hjk]
    have hext := run_extends hj ((edits.take k).drop j)
    exact ⟨hext, hext.transitionsFrom hj⟩

/-- A run that gives a transition a new label, in between a change of the initial state and a new transition. -/
def relabelling : List Edit :=
  [.initial (.generated 2), .label "x" (.generated 3), .label "y" (.generated 5)]

theorem relabelling_keeps_transition :
    pair.StartsWith [⟨.generated 3, .generated 1, "true", some (.generated 2)⟩] ∧
      (run relabelling (pair, ⟨4⟩)).1.label? (.generated 3) = some "x" ∧
      [.generated 3] <+: (run relabelling (pair, ⟨4⟩)).1.transitionsFrom (.generated 1) := by
  have h : pair.StartsWith [⟨.generated 3, .generated 1, "true", some (.generated 2)⟩] :=
    .inr ⟨by decide, _, _, rfl⟩
  obtain ⟨hpoints, hpairs⟩ := edits_keep_transitions pair _ ⟨4⟩ relabelling h
  exact ⟨h, (hpoints 3).2 (.generated 3), (hpairs 0 3 (by decide)).2 (.generated 1)⟩

end Edit

end MachineBundle
