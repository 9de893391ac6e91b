import MachineBundle.Proofs.Scan.Anchor
import MachineBundle.Proofs.Text.Records

/-!
# Tame text

Text without numbers of its own: no digit comes first or follows a blank. Sources in C are tame around the numbers that
are recorded there.
-/

namespace MachineBundle.Source

open Scan

/-- Whether no digit comes first or follows a blank, and no line ends in a carriage return. -/
def tame (s : List Char) : Bool :=
  s.head?.all (!isDigit ·) && lacksNumber s && !s.contains '\r'

/-- Whether a text ends in something else than a blank. -/
def endsInk (s : List Char) : Bool :=
  s.getLast?.any (!Text.isBlank ·)

theorem tame_iff {s : List Char} :
    tame s = true ↔ (∀ c ∈ s.head?, isDigit c = false) ∧ lacksNumber s = true ∧ '\r' ∉ s := by
  cases h : s.head? <;> simp [tame, h, and_assoc]

theorem endsInk_iff {s : List Char} : endsInk s = true ↔ ∃ c, s.getLast? = some c ∧ Text.isBlank c = false := by
  cases h : s.getLast? <;> simp [endsInk, h]

theorem endsInk_append (a : List Char) {b : List Char} (h : endsInk b = true) : endsInk (a ++ b) = true := by
  obtain ⟨c, hc, hi⟩ := endsInk_iff.mp h
  exact endsInk_iff.mpr ⟨c, by simp [List.getLast?_append, hc], hi⟩

theorem tame_append {a b : List Char} (ha : tame a = true) (hb : tame b = true) : tame (a ++ b) = true := by
  rw [tame_iff] at ha hb ⊢
  refine ⟨?_, lacksNumber_append ha.2.1 hb.2.1 (Or.inr hb.1), ?_⟩
  · cases a with
    | nil => exact hb.1
    | cons c a => exact ha.1
  · rw [List.mem_append, not_or]
    exact ⟨ha.2.2, hb.2.2⟩

/-- A name after a text that ends in something else than a blank. -/
theorem tame_append_plain {a : List Char} {s : String} (ha : tame a = true) (he : endsInk a = true)
    (hs : Text.PlainText s) : tame (a ++ s.toList) = true := by
  rw [tame_iff] at ha ⊢
  obtain ⟨c, hc, hi⟩ := endsInk_iff.mp he
  refine ⟨?_, lacksNumber_append ha.2.1 (lacksNumber_of_not_blank hs.isBlank) (Or.inl ?_), ?_⟩
  · cases a with
    | nil => cases hc
    | cons d a => exact ha.1
  · intro d hd
    rw [hc] at hd
    cases hd
    exact hi
  · rw [List.mem_append, not_or]
    exact ⟨ha.2.2, hs.not_mem (by decide)⟩

theorem tame_unlines {ls : List String} (h : ∀ l ∈ ls, tame l.toList = true) : tame (unlines ls).toList = true := by
  rw [Text.toList_unlines]
  induction ls with
  | nil => rfl
  | cons l r ih =>
    rw [List.flatMap_cons]
    refine tame_append (tame_append (h l List.mem_cons_self) (by decide)) (ih fun m hm => ?_)
    exact h m (List.mem_cons_of_mem l hm)

theorem forall_mem_onlyIf {P : String → Prop} {c : Bool} {ls : List String} :
    (∀ l ∈ onlyIf c ls, P l) ↔ (c = true → ∀ l ∈ ls, P l) := by
  cases c <;> simp [onlyIf]

/-! ## Lines with names -/

theorem tame_ofList (cs : List Char) (h : tame cs = true) : tame (String.ofList cs).toList = true :=
  of_ofList (P := fun l => tame l = true) cs h

/-- A tame line that can go on with a name. -/
def Tidy (l : String) : Prop :=
  tame l.toList = true ∧ endsInk l.toList = true

theorem tidy_ofList (cs : List Char) (h : tame cs = true ∧ endsInk cs = true) : Tidy (String.ofList cs) := by
  rw [Tidy, String.toList_ofList]
  exact h

theorem tame_of_tidy {l : String} (h : Tidy l) : tame l.toList = true :=
  h.1

theorem tidy_append {a b : String} (ha : tame a.toList = true) (hb : Tidy b) : Tidy (a ++ b) := by
  rw [Tidy, String.toList_append]
  exact ⟨tame_append ha hb.1, endsInk_append _ hb.2⟩

theorem Tidy.after {l : String} (h : Tidy l) {w : List Char} (hw : lacksNumber w = true) :
    lacksNumber (w ++ l.toList) = true ∧ ∀ c ∈ (w ++ l.toList).getLast?, Text.isBlank c = false := by
  have ht := tame_iff.mp h.1
  refine ⟨lacksNumber_append hw ht.2.1 (Or.inr ht.1), fun c hc => ?_⟩
  obtain ⟨d, hd, hi⟩ := endsInk_iff.mp (endsInk_append w h.2)
  rw [hd] at hc
  cases hc
  exact hi

theorem tidy_append_plain {a n : String} (ha : Tidy a) (hn : Text.PlainText n) : Tidy (a ++ n) := by
  rw [Tidy, String.toList_append]
  refine ⟨tame_append_plain ha.1 ha.2 hn, ?_⟩
  cases h : n.toList.getLast? with
  | none =>
    rw [List.getLast?_eq_none_iff] at h
    rw [h, List.append_nil]
    exact ha.2
  | some c =>
    refine endsInk_append _ (endsInk_iff.mpr ⟨c, h, ?_⟩)
    exact hn.isBlank c (List.mem_of_getLast? h)

/-! ## Lines without certain characters -/

/-- Whether a line holds none of some characters. -/
def Free (cs : List Char) (l : String) : Prop :=
  ∀ c ∈ cs, c ∉ l.toList

theorem Free.of_subset {cs ds : List Char} {l : String} (h : Free cs l) (hsub : ds ⊆ cs) : Free ds l :=
  fun c hc => h c (hsub hc)

theorem free_ofList {cs : List Char} (ds : List Char) (h : cs.all (fun c => !ds.contains c) = true) :
    Free cs (String.ofList ds) := by
  intro c hc
  rw [String.toList_ofList]
  simpa using List.all_eq_true.mp h c hc

theorem free_append {cs : List Char} {a b : String} (ha : Free cs a) (hb : Free cs b) : Free cs (a ++ b) := by
  intro c hc
  rw [String.toList_append, List.mem_append, not_or]
  exact ⟨ha c hc, hb c hc⟩

theorem free_plain {cs : List Char} {n : String} (hn : Text.PlainText n)
    (hcs : cs.all (fun c => !Text.isPlain c) = true) : Free cs n :=
  fun c hc => hn.not_mem (by simpa using List.all_eq_true.mp hcs c hc)

theorem not_mem_unlines {c : Char} {ls : List String} (hc : c ≠ '\n') (h : ∀ l ∈ ls, c ∉ l.toList) :
    c ∉ (unlines ls).toList := by
  rw [Text.toList_unlines, List.mem_flatMap]
  rintro ⟨l, hl, hm⟩
  rw [List.mem_append, List.mem_singleton] at hm
  exact hm.elim (h l hl) hc

theorem toList_unlines_append (a b : List String) :
    (unlines (a ++ b)).toList = (unlines a).toList ++ (unlines b).toList := by
  simp [Text.toList_unlines]

theorem toList_unlines_cons (l : String) (r : List String) :
    (unlines (l :: r)).toList = l.toList ++ '\n' :: (unlines r).toList := by
  simp [Text.toList_unlines]

/-- The names of a plan can be a part of identifiers. -/
structure PlainPlan (m : MachinePlan) : Prop where
  name : Text.PlainText m.name
  states : ∀ s ∈ m.states, Text.PlainText s.name

/-- The target of the first transition with an index. -/
def targetAt (k : Nat) (ts : List TransitionPlan) : Option Nat :=
  ts.findSome? fun t => if t.index = k then t.target else none

theorem targetAt_cons (k : Nat) (t : TransitionPlan) (ts : List TransitionPlan) :
    targetAt k (t :: ts) = (if t.index = k then t.target else none).or (targetAt k ts) := by
  unfold targetAt
  rw [List.findSome?_cons]
  cases (if t.index = k then t.target else none) <;> rfl

theorem targetAt_of_not_mem {ts : List TransitionPlan} {k : Nat} (h : k ∉ ts.map TransitionPlan.index) : targetAt k ts = none := by
  unfold targetAt
  rw [List.findSome?_eq_none_iff]
  intro t ht
  rw [if_neg]
  rintro rfl
  exact h (List.mem_map.mpr ⟨t, ht, rfl⟩)

/-- Where indices differ, each transition has its own target. -/
theorem targetAt_of_mem {ts : List TransitionPlan} (hn : (ts.map TransitionPlan.index).Nodup) {p : TransitionPlan}
    (hp : p ∈ ts) : targetAt p.index ts = p.target := by
  induction ts with
  | nil => cases hp
  | cons q r ih =>
    rw [List.map_cons, List.nodup_cons] at hn
    rw [targetAt_cons]
    rcases List.mem_cons.mp hp with rfl | hp
    · rw [if_pos rfl, targetAt_of_not_mem hn.1, Option.or_none]
    · have hne : q.index ≠ p.index := fun he => hn.1 (he ▸ List.mem_map.mpr ⟨p, hp, rfl⟩)
      rw [if_neg hne, ih hn.2 hp]
      rfl

/-- A search through what is written for some transitions finds the target of the first one with an index, if it is found
in what is written for this one and goes on past all others. What is passed over keeps a property, and with it nothing is
found after the last transition. -/
theorem search_transitions {k : Nat} {p : Pattern} {lines : TransitionPlan → List String} {P : List Char → Prop}
    {tail : List Char}
    (hin : ∀ t n w tail, t.index = k → t.target = some n → P w →
      search p (w ++ (unlines (lines t)).toList ++ tail) = some (toString n).toList)
    (hpast : ∀ t w tail, (t.index = k → t.target = none) → P w →
      ∃ w', P w' ∧ search p (w ++ (unlines (lines t)).toList ++ tail) = search p (w' ++ tail))
    (hend : ∀ w, P w → search p (w ++ tail) = none) (ts : List TransitionPlan) {w : List Char} (hw : P w) :
    search p (w ++ (unlines (ts.flatMap lines)).toList ++ tail) = (targetAt k ts).map fun n => (toString n).toList := by
  induction ts generalizing w with
  | nil =>
    have hnone := hend w hw
    simpa [unlines, targetAt] using hnone
  | cons t ts ih =>
    have hsplit : w ++ (unlines ((t :: ts).flatMap lines)).toList ++ tail =
        w ++ (unlines (lines t)).toList ++ ((unlines (ts.flatMap lines)).toList ++ tail) := by
      rw [List.flatMap_cons, toList_unlines_append]
      simp
    rw [hsplit, targetAt_cons]
    cases ht : if t.index = k then t.target else none with
    | none =>
      have hk : t.index = k → t.target = none := fun he => by rwa [if_pos he] at ht
      obtain ⟨w', hw', h⟩ := hpast t w ((unlines (ts.flatMap lines)).toList ++ tail) hk hw
      rw [Option.none_or, h, ← List.append_assoc]
      exact ih hw'
    | some n =>
      obtain ⟨hk, htarget⟩ : t.index = k ∧ t.target = some n := by simpa using ht
      rw [hin t n w _ hk htarget hw]
      rfl

/-- Characters that no file name holds. -/
def offNames (cs : List Char) : Bool :=
  cs.all fun c => !Text.isPlain c && c != '.'

theorem offNames_plain {cs : List Char} (h : offNames cs = true) : cs.all (fun c => !Text.isPlain c) = true := by
  rw [List.all_eq_true]
  intro c hc
  have := List.all_eq_true.mp h c hc
  simp only [Bool.and_eq_true] at this
  exact this.1

theorem free_suffix {cs : List Char} (h : offNames cs = true) {ds : List Char}
    (hd : ds.all (fun c => Text.isPlain c || c == '.') = true) : Free cs (String.ofList ds) := by
  intro c hc hm
  rw [String.toList_ofList] at hm
  have h₁ := List.all_eq_true.mp h c hc
  have h₂ := List.all_eq_true.mp hd c hm
  cases hp : Text.isPlain c <;> simp_all

theorem free_stem {cs : List Char} (h : offNames cs = true) {n : String} (hn : Text.PlainText n) (b : Binding) :
    Free cs (b.stem n) := by
  cases b with
  | c => exact free_append (free_suffix h (by decide)) (free_plain hn (offNames_plain h))
  | objectiveCpp => exact free_plain hn (offNames_plain h)

theorem free_headerFile {cs : List Char} (h : offNames cs = true) {m : MachinePlan} (hm : Text.PlainText m.name) :
    Free cs m.headerFile :=
  free_append (free_stem h hm m.binding) (free_suffix h (by decide))

theorem free_implementationFile {cs : List Char} (h : offNames cs = true) {m : MachinePlan}
    (hm : Text.PlainText m.name) : Free cs m.implementationFile := by
  refine free_append (free_stem h hm m.binding) ?_
  cases m.binding with
  | c => exact free_suffix h (by decide)
  | objectiveCpp => exact free_suffix h (by decide)

end MachineBundle.Source
