/-!
# Tables in order of insertion

A table maps keys to values and lists its entries in the order in which their keys first came in.
-/

namespace MachineBundle

abbrev Table (κ ν : Type) := List (κ × ν)

namespace Table

variable {κ ν : Type} [DecidableEq κ]

def get? (key : κ) : Table κ ν → Option ν
  | [] => none
  | (k, v) :: r => if k = key then some v else get? key r

/-- Sets a key to a value. A key that is there keeps its place, a new one comes last. -/
def set (key : κ) (value : ν) : Table κ ν → Table κ ν
  | [] => [(key, value)]
  | (k, v) :: r => if k = key then (k, value) :: r else (k, v) :: set key value r

def keys (t : Table κ ν) : List κ :=
  t.map Prod.fst

/-- The table of some entries; of two with the same key the later value stays. -/
def ofEntries (entries : List (κ × ν)) : Table κ ν :=
  entries.foldl (fun t (k, v) => set k v t) []

theorem get?_set (k j : κ) (v : ν) (t : Table κ ν) :
    get? j (set k v t) = if k = j then some v else get? j t := by
  induction t with
  | nil => by_cases h : k = j <;> simp [set, get?, h]
  | cons e r ih =>
    obtain ⟨i, w⟩ := e
    by_cases hi : i = k
    · subst hi
      by_cases hj : i = j <;> simp [set, get?, hj]
    · by_cases hj : i = j
      · subst hj
        simp [set, get?, hi, Ne.symm hi]
      · simp [set, get?, hi, hj, ih]

theorem get?_set_self (k : κ) (v : ν) (t : Table κ ν) : get? k (set k v t) = some v := by
  rw [get?_set, if_pos rfl]

/-- What holds of all that is in a table and of what is set holds of all that is in the table then. -/
theorem forall_get?_set {P : κ → ν → Prop} {k : κ} {v : ν} {t : Table κ ν} (hv : P k v)
    (ht : ∀ j w, get? j t = some w → P j w) : ∀ j w, get? j (set k v t) = some w → P j w := by
  intro j w h
  by_cases hj : k = j
  · subst hj
    rw [get?_set_self, Option.some.injEq] at h
    exact h ▸ hv
  · rw [get?_set, if_neg hj] at h
    exact ht j w h

theorem keys_set (k : κ) (v : ν) (t : Table κ ν) :
    keys (set k v t) = if k ∈ keys t then keys t else keys t ++ [k] := by
  induction t with
  | nil => simp [set, keys]
  | cons e r ih =>
    obtain ⟨i, w⟩ := e
    by_cases hi : i = k
    · simp [set, keys, hi]
    · simp only [keys, List.map_cons, List.mem_cons] at ih ⊢
      by_cases hm : k ∈ r.map Prod.fst <;> simp_all [set, Ne.symm hi]

end Table

end MachineBundle
