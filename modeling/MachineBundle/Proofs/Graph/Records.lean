import Mathlib.Data.List.Nodup
import MachineBundle.Graph.Basic

/-!
# Graphs from records

A graph that is put together from records with different identifiers has exactly these records, and the transitions
that leave a state are the ones that were listed for it.
-/

namespace MachineBundle

/-! ## Tables -/

namespace Table

variable {κ ν : Type} [DecidableEq κ]

theorem get?_foldl_set_of_not_mem {es : List (κ × ν)} {t : Table κ ν} {k : κ} (h : k ∉ es.map Prod.fst) :
    get? k (es.foldl (fun t (k, v) => set k v t) t) = get? k t := by
  induction es generalizing t with
  | nil => rfl
  | cons e r ih =>
    rw [List.map_cons, List.mem_cons, not_or] at h
    rw [List.foldl_cons, ih h.2, get?_set, if_neg (Ne.symm h.1)]

theorem get?_foldl_set_of_mem {es : List (κ × ν)} (hn : (es.map Prod.fst).Nodup) {t : Table κ ν} {k : κ} {v : ν}
    (h : (k, v) ∈ es) : get? k (es.foldl (fun t (k, v) => set k v t) t) = some v := by
  induction es generalizing t with
  | nil => cases h
  | cons e r ih =>
    rw [List.map_cons, List.nodup_cons] at hn
    rw [List.foldl_cons]
    rcases List.mem_cons.mp h with rfl | h
    · rw [get?_foldl_set_of_not_mem hn.1, get?_set, if_pos rfl]
    · exact ih hn.2 h

theorem get?_ofEntries {es : List (κ × ν)} (hn : (es.map Prod.fst).Nodup) {k : κ} {v : ν} (h : (k, v) ∈ es) :
    (ofEntries es).get? k = some v :=
  get?_foldl_set_of_mem hn h

theorem keys_foldl_set (es : List (κ × ν)) (t : Table κ ν)
    (hn : (t.keys ++ es.map Prod.fst).Nodup) :
    keys (es.foldl (fun t (k, v) => set k v t) t) = t.keys ++ es.map Prod.fst := by
  induction es generalizing t with
  | nil => simp
  | cons e r ih =>
    obtain ⟨k, v⟩ := e
    have hk : k ∉ t.keys := by
      intro hk
      exact (List.nodup_append.mp hn).2.2 k hk k (by simp) rfl
    have hset : (set k v t).keys = t.keys ++ [k] := by rw [keys_set, if_neg hk]
    rw [List.foldl_cons, ih, hset, List.append_assoc]
    · rfl
    · rw [hset, List.append_assoc]
      exact hn

/-- A table of entries with different keys has these keys. -/
theorem keys_ofEntries {es : List (κ × ν)} {ks : List κ} (hks : es.map Prod.fst = ks)
    (hn : ks.Nodup) : (ofEntries es).keys = ks := by
  subst hks
  exact keys_foldl_set es [] hn

end Table

namespace Graph

variable {states : List State} {transitions : List Transition} {suspend : Option Ident}

theorem state?_ofRecords (hn : (states.map State.id).Nodup) {s : State} (h : s ∈ states) :
    (ofRecords states transitions suspend).state? s.id = some s := by
  refine Table.get?_ofEntries ?_ (List.mem_map.mpr ⟨s, h, rfl⟩)
  rw [List.map_map]
  exact hn

theorem transition?_ofRecords (hn : (transitions.map Transition.id).Nodup) {t : Transition} (h : t ∈ transitions) :
    (ofRecords states transitions suspend).transition? t.id = some t := by
  refine Table.get?_ofEntries ?_ (List.mem_map.mpr ⟨t, h, rfl⟩)
  rw [List.map_map]
  exact hn

theorem stateNames_ofRecords (hn : (states.map State.id).Nodup) (hne : ∀ s ∈ states, s.name ≠ "") :
    (ofRecords states transitions suspend).stateNames = states.map State.name := by
  unfold stateNames
  rw [ofRecords, List.map_map]
  refine List.map_congr_left fun s hs => ?_
  have hr : (ofRecords states transitions suspend).state? s.id = some s := state?_ofRecords hn hs
  rw [ofRecords] at hr
  have he : s.name.isEmpty = false := by
    rw [Bool.eq_false_iff, ne_eq, String.isEmpty_iff]
    exact hne s hs
  simp [displayName, stateName?, hr, he]

theorem transitionsFrom_ofRecords (hn : (transitions.map Transition.id).Nodup) (id : Ident) :
    (ofRecords states transitions suspend).transitionsFrom id =
      (transitions.filter fun t => t.source = id).map Transition.id := by
  unfold transitionsFrom
  have ht : (ofRecords states transitions suspend).transitions = transitions.map Transition.id := rfl
  rw [ht, List.filter_map]
  refine congrArg (List.map Transition.id) (List.filter_congr fun t ht => ?_)
  have hr : (ofRecords states transitions suspend).transition? t.id = some t := transition?_ofRecords hn ht
  simp [hr]

/-- Transitions listed by state, each leaving the state that it is listed for. -/
def Listed : List State → List (List Transition) → Prop :=
  List.Forall₂ fun s ts => ∀ t ∈ ts, t.source = s.id

theorem Listed.source_mem {tss : List (List Transition)} (h : Listed states tss) :
    ∀ t ∈ tss.flatten, t.source ∈ states.map State.id := by
  unfold Listed at h
  induction h with
  | nil => simp
  | cons h₀ _ ih =>
    intro t ht
    rw [List.flatten_cons, List.mem_append] at ht
    rw [List.map_cons, List.mem_cons]
    rcases ht with ht | ht
    · exact .inl (h₀ t ht)
    · exact .inr (ih t ht)

theorem filter_flatten {tss : List (List Transition)} (h : Listed states tss)
    (hn : (states.map State.id).Nodup) {k : Nat} {s : State} {ts : List Transition} (hs : states[k]? = some s)
    (ht : tss[k]? = some ts) : tss.flatten.filter (fun t => t.source = s.id) = ts := by
  have hall : ∀ {ts : List Transition} {s : State}, (∀ t ∈ ts, t.source = s.id) →
      ts.filter (fun t => t.source = s.id) = ts := fun h => List.filter_eq_self.mpr fun t ht => by simp [h t ht]
  have hnone : ∀ {ts : List Transition} {s s' : State}, (∀ t ∈ ts, t.source = s.id) → s.id ≠ s'.id →
      ts.filter (fun t => t.source = s'.id) = [] := fun h hne => List.filter_eq_nil_iff.mpr fun t ht => by
    simpa [h t ht] using hne
  unfold Listed at h
  induction h generalizing k with
  | nil => cases hs
  | @cons s₀ ts₀ states tss h₀ hrest ih =>
    rw [List.map_cons, List.nodup_cons] at hn
    rw [List.flatten_cons, List.filter_append]
    cases k with
    | zero =>
      obtain rfl : s₀ = s := by simpa using hs
      obtain rfl : ts₀ = ts := by simpa using ht
      have hlater : tss.flatten.filter (fun t => t.source = s₀.id) = [] := by
        rw [List.filter_eq_nil_iff]
        intro t ht hts
        obtain ⟨ts', hts', ht⟩ := List.mem_flatten.mp ht
        obtain ⟨i, hi, rfl⟩ := List.getElem_of_mem hts'
        have hlen := hrest.length_eq
        have hsrc := (List.forall₂_iff_get.mp hrest).2 i (by omega) hi t ht
        refine hn.1 (List.mem_map.mpr ⟨states.get ⟨i, by omega⟩, List.getElem_mem _, ?_⟩)
        rw [← of_decide_eq_true hts]
        exact hsrc.symm
      rw [hall h₀, hlater, List.append_nil]
    | succ k =>
      rw [List.getElem?_cons_succ] at hs ht
      have hne : s₀.id ≠ s.id := fun he => hn.1 (List.mem_map.mpr ⟨s, List.mem_of_getElem? hs, he.symm⟩)
      rw [hnone h₀ hne, List.nil_append]
      exact ih hn.2 hs ht

/-- The transitions that leave a state are the ones listed for it. -/
theorem transitionsFrom_listed {tss : List (List Transition)} (h : Listed states tss)
    (hn : (states.map State.id).Nodup) (hnt : (tss.flatten.map Transition.id).Nodup) {k : Nat} {s : State}
    {ts : List Transition} (hs : states[k]? = some s) (ht : tss[k]? = some ts) :
    (ofRecords states tss.flatten suspend).transitionsFrom s.id = ts.map Transition.id := by
  rw [transitionsFrom_ofRecords hnt, filter_flatten h hn hs ht]

end Graph

end MachineBundle
