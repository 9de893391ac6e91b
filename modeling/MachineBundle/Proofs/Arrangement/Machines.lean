import MachineBundle.Arrangement
import MachineBundle.Proofs.Bundle.Load

/-!
# Machines of an arrangement

Machines are told apart by their bundles when they are loaded, and by their names when they are written.
-/

namespace MachineBundle.Arrangement

/-! ## The first of each name -/

section FirstOf

variable {α β κ : Type} [DecidableEq κ] {key : α → κ} {seen : List κ} {xs : List α}

/-- The first of those with the same key, unless the key has been seen before. -/
def firstOf (key : α → κ) (seen : List κ) : List α → List α
  | [] => []
  | x :: r => if key x ∈ seen then firstOf key seen r else x :: firstOf key (key x :: seen) r

theorem firstOfEachName_eq (seen : List String) (ms : List Machine) :
    firstOfEachName seen ms = firstOf Machine.name seen ms := by
  induction ms generalizing seen with
  | nil => rfl
  | cons m r ih => rw [firstOfEachName, firstOf, ih, ih]

theorem map_firstOf (key : α → κ) (f : β → α) (seen : List κ) (ys : List β) :
    (firstOf (key ∘ f) seen ys).map f = firstOf key seen (ys.map f) := by
  induction ys generalizing seen with
  | nil => rfl
  | cons y r ih =>
    rw [List.map_cons, firstOf, firstOf, ← ih, ← ih]
    by_cases h : key (f y) ∈ seen <;> simp [h]

theorem mem_firstOf {x : α} (h : x ∈ firstOf key seen xs) : x ∈ xs ∧ key x ∉ seen := by
  induction xs generalizing seen with
  | nil => cases h
  | cons y r ih =>
    unfold firstOf at h
    split at h
    · exact ⟨List.mem_cons_of_mem y (ih h).1, (ih h).2⟩
    · rename_i hy
      rcases List.mem_cons.mp h with rfl | h
      · exact ⟨List.mem_cons_self, hy⟩
      · exact ⟨List.mem_cons_of_mem y (ih h).1, fun hs => (ih h).2 (List.mem_cons_of_mem _ hs)⟩

theorem nodup_firstOf (key : α → κ) (seen : List κ) (xs : List α) :
    ((firstOf key seen xs).map key).Nodup := by
  induction xs generalizing seen with
  | nil => exact List.nodup_nil
  | cons y r ih =>
    unfold firstOf
    split
    · exact ih seen
    · rw [List.map_cons, List.nodup_cons]
      refine ⟨fun hm => ?_, ih (key y :: seen)⟩
      obtain ⟨x, hx, he⟩ := List.mem_map.mp hm
      exact (mem_firstOf hx).2 (by rw [he]; exact List.mem_cons_self)

/-- No key is left out. -/
theorem exists_firstOf {x : α} (hx : x ∈ xs) (hs : key x ∉ seen) : ∃ y ∈ firstOf key seen xs, key y = key x := by
  induction xs generalizing seen with
  | nil => cases hx
  | cons y r ih =>
    unfold firstOf
    rcases List.mem_cons.mp hx with rfl | hx
    · rw [if_neg hs]
      exact ⟨x, List.mem_cons_self, rfl⟩
    · split
      · exact ih hx hs
      · by_cases he : key x = key y
        · exact ⟨y, List.mem_cons_self, he.symm⟩
        · have hs' : key x ∉ key y :: seen := by simp [he, hs]
          obtain ⟨z, hz, hname⟩ := ih hx hs'
          exact ⟨z, List.mem_cons_of_mem y hz, hname⟩

end FirstOf

/-! ## Loaded machines -/

variable {t : Tree} {directory : Path} {binding : Option Binding}

section LoadFrom

variable {loaded : Table Path Machine} {bundle : Path} {m : Machine} {trail trail' : Trail} {es : List (Path × Machine)}

/-- A machine is one of those loaded, or it is loaded now. -/
theorem loadOnce_eq_ok (h : outcome (loadOnce binding loaded bundle t) trail = (.ok m, trail')) :
    (loaded.get? bundle = some m ∧ trail' = trail) ∨
      (loaded.get? bundle = none ∧ outcome (Machine.load bundle binding t) trail = (.ok m, trail')) := by
  unfold loadOnce at h
  cases hm : loaded.get? bundle with
  | none =>
    rw [hm] at h
    exact .inr ⟨rfl, h⟩
  | some m' =>
    rw [hm] at h
    cases h
    exact .inl ⟨rfl, rfl⟩

/-- What the first name comes to where the machines of all names are loaded: it is passed over with a notice, or its
machine comes first and is among those loaded from then on. -/
theorem loadFrom_cons_eq_ok {name : String} {rest : List String}
    (h : outcome (loadFrom directory binding loaded (name :: rest) t) trail = (.ok es, trail')) :
    (bundle? t directory name = .ok none ∧
      outcome (loadFrom directory binding loaded rest t)
        { trail with notices := trail.notices ++ [missingNotice directory name] } = (.ok es, trail')) ∨
    ∃ bundle m more trail₁, bundle? t directory name = .ok (some bundle) ∧
      outcome (loadOnce binding loaded bundle t) trail = (.ok m, trail₁) ∧
      outcome (loadFrom directory binding (loaded.set bundle m) rest t) trail₁ = (.ok more, trail') ∧
      es = (bundle, m) :: more := by
  unfold loadFrom at h
  obtain ⟨found, trail₁, hfound, h⟩ := outcome_reading_bind_eq_ok h
  rw [outcome_reading_query, Prod.mk.injEq] at hfound
  obtain ⟨hfound, rfl⟩ := hfound
  cases found with
  | none =>
    obtain ⟨_, trail₂, hnotify, h⟩ := outcome_reading_bind_eq_ok h
    cases hnotify
    exact .inl ⟨hfound, h⟩
  | some bundle =>
    obtain ⟨m, trail₂, hm, h⟩ := outcome_reading_bind_eq_ok h
    obtain ⟨more, trail₃, hmore, h⟩ := outcome_reading_bind_eq_ok h
    cases h
    exact .inr ⟨bundle, m, more, trail₂, hfound, hm, hmore, rfl⟩

/-- Each bundle is loaded once, and names its machine. -/
theorem loadFrom_ok {names : List String}
    (h : outcome (loadFrom directory binding loaded names t) trail = (.ok es, trail'))
    (hl : ∀ p m, loaded.get? p = some m → m.name = p.stem) :
    ∃ table : Table Path Machine, (∀ p m, loaded.get? p = some m → table.get? p = some m) ∧
      ∀ e ∈ es, table.get? e.1 = some e.2 ∧ e.2.name = e.1.stem := by
  induction names generalizing loaded trail es with
  | nil =>
    cases h
    exact ⟨loaded, fun _ _ hm => hm, by simp⟩
  | cons name rest ih =>
    obtain ⟨-, hrest⟩ | ⟨bundle, m, more, trail₁, -, hm, hrest, rfl⟩ := loadFrom_cons_eq_ok h
    · exact ih hrest hl
    · have hfirst : m.name = bundle.stem ∧ ∀ m', loaded.get? bundle = some m' → m' = m := by
        obtain ⟨hg, -⟩ | ⟨hg, hload⟩ := loadOnce_eq_ok hm
        · exact ⟨hl bundle m hg, fun m' hm' => Option.some.inj (hm'.symm.trans hg)⟩
        · exact ⟨(Bundle.load_ok hload).1, fun m' hm' => by rw [hg] at hm'; cases hm'⟩
      obtain ⟨table, hextends, hall⟩ := ih hrest (Table.forall_get?_set hfirst.1 hl)
      have hbundle : table.get? bundle = some m := hextends bundle m (Table.get?_set_self bundle m loaded)
      refine ⟨table, fun p m' hp => ?_, List.forall_mem_cons.mpr ⟨⟨hbundle, hfirst.1⟩, hall⟩⟩
      by_cases he : bundle = p
      · subst he
        rw [hbundle, hfirst.2 m' hp]
      · exact hextends p m' (by rw [Table.get?_set, if_neg he, hp])

end LoadFrom

end MachineBundle.Arrangement
