import MachineBundle.Proofs.Source.C
import MachineBundle.Proofs.Source.ObjectiveCpp

/-!
# Headers that record targets only

In a header with one entry for each transition, line by line, every scan skips the entries of other transitions. Nothing
depends on their order, or on what the numbers of some transitions have in common.
-/

namespace MachineBundle.Source

open Scan

/-- What a header records of a transition. In C, its name comes after a stem. -/
structure Entry where
  stem : String
  index : Nat
  target : Nat
  plain : Text.PlainText stem
  readable : target < 10 ^ digitLimit

namespace Entry

/-- The line of an entry. -/
def line : Binding → Entry → String
  | .c, e => "#define " ++ e.stem ++ "_TRANSITION_" ++ toString e.index ++ "_TARGET " ++ toString e.target
  | .objectiveCpp, e =>
    "Transition_" ++ toString e.index ++ "(int toState = " ++ toString e.target ++ "): CLTransition(toState) \x7b\x7d"

/-- The target of the first entry for an index. -/
def targetOf? (index : Nat) (es : List Entry) : Option Nat :=
  (es.find? (·.index = index)).map Entry.target

variable {e : Entry} {es : List Entry} {index : Nat}

theorem targetOf?_of_mem (hd : (es.map Entry.index).Nodup) (he : e ∈ es) : targetOf? e.index es = some e.target := by
  induction es with
  | nil => cases he
  | cons d es ih =>
    rw [List.map_cons, List.nodup_cons] at hd
    rcases List.mem_cons.mp he with rfl | he
    · simp [targetOf?]
    · have hne : d.index ≠ e.index := fun h => hd.1 (h ▸ List.mem_map_of_mem he)
      simpa [targetOf?, hne] using ih hd.2 he

theorem targetOf?_of_not_mem (h : index ∉ es.map Entry.index) : targetOf? index es = none := by
  rw [targetOf?, Option.map_eq_none_iff, List.find?_eq_none]
  intro e he hi
  exact h (List.mem_map.mpr ⟨e, he, by simpa using hi⟩)

/-! ## C -/

theorem toList_line_c (e : Entry) :
    (e.line .c).toList = "#define".toList ++ ' ' :: ((e.stem ++ "_").toList ++ (C.targetLabel e.index).toList ++
      ' ' :: (toString e.target).toList) := by
  simp [line, C.targetLabel]

theorem plain_constant (e : Entry) :
    ∀ c ∈ (e.stem ++ "_").toList ++ (C.targetLabel e.index).toList, Text.isBlank c = false := by
  rw [← String.toList_append]
  refine ((e.plain.append ?_).append (C.plain_targetLabel e.index)).isBlank
  exact of_ofList (P := fun l => ∀ c ∈ l, Text.isPlain c = true) _ (by decide)

/-- A word in front of a blank is passed over unless it ends in the label. -/
theorem search_past_word {l u v : List Char} {b : Char} (hl : ∀ c ∈ l, Text.isBlank c = false)
    (hu : ∀ c ∈ u, Text.isBlank c = false) (hb : Text.isBlank b = true) (hn : ¬l <:+ u) :
    search (labelled l) (u ++ b :: v) = search (labelled l) v :=
  search_past_number hl hb (lacksNumber_of_not_blank hu) (fun c hc => hu c (List.mem_of_getLast? hc)) hn

theorem search_after_define (index : Nat) (v : List Char) :
    search (labelled (C.targetLabel index).toList) ("#define".toList ++ ' ' :: v) =
      search (labelled (C.targetLabel index).toList) v := by
  refine search_past_word (C.plain_targetLabel index).isBlank (by decide) (by decide) fun hs => ?_
  have h := getLast?_of_suffix hs (C.targetLabel_last index)
  simp at h

theorem search_line_c_of_eq (e : Entry) (v : List Char) :
    search (Binding.targetPattern e.index .c) ((e.line .c).toList ++ '\n' :: v) = some (toString e.target).toList := by
  have hplain := e.plain_constant
  have hfound : search (labelled (C.targetLabel e.index).toList) ((e.stem ++ "_").toList ++
      (C.targetLabel e.index).toList ++ ' ' :: ((toString e.target).toList ++ '\n' :: v)) =
        some (toString e.target).toList :=
    search_labelled (C.plain_targetLabel e.index).isBlank (by decide) (lacksNumber_of_not_blank hplain)
      (fun c hc => hplain c (List.mem_of_getLast? hc)) (Text.toString_ne_nil e.target)
      (fun c hc => isDigit_toString hc) (by simp; decide)
  have hp : Binding.targetPattern e.index .c = labelled (C.targetLabel e.index).toList := rfl
  rw [hp, toList_line_c, List.append_assoc, List.cons_append, search_after_define, List.append_assoc, List.cons_append]
  exact hfound

theorem search_line_c_of_ne (h : e.index ≠ index) (v : List Char) :
    search (Binding.targetPattern index .c) ((e.line .c).toList ++ '\n' :: v) =
      search (Binding.targetPattern index .c) v := by
  have hl := (C.plain_targetLabel index).isBlank
  have hp : Binding.targetPattern index .c = labelled (C.targetLabel index).toList := rfl
  have hlabel : ¬(C.targetLabel index).toList <:+ (e.stem ++ "_").toList ++ (C.targetLabel e.index).toList := by
    have hn := C.targetLabel_not_suffix h e.stem.toList
    rw [String.toList_append]
    simpa using hn
  have hnumber : ¬(C.targetLabel index).toList <:+ (toString e.target).toList := by
    intro hs
    have hlast := getLast?_of_suffix hs (C.targetLabel_last index)
    exact absurd (isDigit_toString (List.mem_of_getLast? hlast)) (by decide)
  rw [hp, toList_line_c, List.append_assoc, List.cons_append, search_after_define, List.append_assoc, List.cons_append,
    search_past_word hl e.plain_constant (by decide) hlabel,
    search_past_word hl (Text.PlainText.ofNat e.target).isBlank (by decide) hnumber]

/-! ## Objective-C++ -/

theorem toList_line_objectiveCpp (e : Entry) :
    (e.line .objectiveCpp).toList = parameterStart e.index ++ ' ' :: '=' :: ' ' ::
      ((toString e.target).toList ++ "): CLTransition(toState) \x7b\x7d".toList) := by
  simp [line, parameterStart, className]

theorem search_line_objectiveCpp_of_eq (e : Entry) (v : List Char) :
    search (Binding.targetPattern e.index .objectiveCpp) ((e.line .objectiveCpp).toList ++ '\n' :: v) =
      some (toString e.target).toList := by
  have hmatch := matchHere_parameter (k := e.index) (r := v) (Text.toString_ne_nil e.target)
    (fun c hc => isDigit_toString hc) (by decide) (by decide) (ObjectiveCpp.closes_constructor e.target)
  rw [toList_line_objectiveCpp, search_of_matchHere hmatch, List.reverse_reverse]

/-- No other transition is named in the line of an entry. -/
theorem eq_index_of_line {x z : List Char} (hz : ∀ c ∈ z.head?, Text.isWordChar c = false)
    (h : (e.line .objectiveCpp).toList = x ++ (className index ++ z)) : e.index = index := by
  have hname : ∀ k : Nat, className k = "Transition".toList ++ '_' :: (toString k).toList := fun k => by
    simp [className]
  have hdigits : ∀ n : Nat, '_' ∉ (toString n).toList := fun n hm => absurd (isDigit_toString hm) (by decide)
  have hrest : '_' ∉ (toString e.index).toList ++
      ("(int toState = ".toList ++ ((toString e.target).toList ++ "): CLTransition(toState) \x7b\x7d".toList)) := by
    simp only [List.mem_append, not_or]
    exact ⟨hdigits _, by decide, hdigits _, by decide⟩
  have h' : "Transition".toList ++ '_' :: ((toString e.index).toList ++ ("(int toState = ".toList ++
      ((toString e.target).toList ++ "): CLTransition(toState) \x7b\x7d".toList))) =
        (x ++ "Transition".toList) ++ '_' :: ((toString index).toList ++ z) := by
    rw [toList_line_objectiveCpp, parameterStart, hname, hname] at h
    simpa using h
  obtain ⟨_, _, hnumber⟩ := (List.append_cons_inj_of_notMem (by decide) hrest).mp h'
  exact toString_append_inj (by simp; decide) (fun c hc => isDigit_of_not_wordChar (hz c hc)) hnumber

theorem search_line_objectiveCpp_of_ne (h : e.index ≠ index) (v : List Char) :
    search (Binding.targetPattern index .objectiveCpp) ((e.line .objectiveCpp).toList ++ '\n' :: v) =
      search (Binding.targetPattern index .objectiveCpp) v := by
  have hskip := search_append (p := Binding.targetPattern index .objectiveCpp)
    (u := (e.line .objectiveCpp).toList ++ ['\n']) (v := v) fun x y hxy hy => by
      cases hm : matchHere [] (Binding.targetPattern index .objectiveCpp) (y ++ v) with
      | none => rfl
      | some ds =>
        obtain ⟨a, bs, z, he, hf⟩ := exists_target hm
        obtain ⟨y', rfl, hline⟩ := eq_concat_of_suffix hxy hy
        have hname : '\n' ∉ className index ++ a := by
          rw [List.mem_append, not_or]
          exact ⟨className_sameLine index, hf.sameLine⟩
        -- the name and what comes right after it are in the line
        obtain ⟨w, rfl⟩ := prefix_of_not_mem (x := y') (y := v) hname (by simpa using he)
        have hends : ∀ c ∈ (a ++ w).head?, Text.isWordChar c = false := by
          rw [List.head?_append_of_ne_nil _ hf.ne]
          exact hf.wordEnds
        exact absurd (eq_index_of_line hends (by rw [hline, List.append_assoc])) h
  simpa using hskip

/-! ## Headers -/

theorem search_line_of_eq (b : Binding) (e : Entry) (v : List Char) :
    search (b.targetPattern e.index) ((e.line b).toList ++ '\n' :: v) = some (toString e.target).toList := by
  cases b with
  | c => exact e.search_line_c_of_eq v
  | objectiveCpp => exact e.search_line_objectiveCpp_of_eq v

theorem search_line_of_ne (b : Binding) (h : e.index ≠ index) (v : List Char) :
    search (b.targetPattern index) ((e.line b).toList ++ '\n' :: v) = search (b.targetPattern index) v := by
  cases b with
  | c => exact search_line_c_of_ne h v
  | objectiveCpp => exact search_line_objectiveCpp_of_ne h v

theorem targetPattern_getLast? (b : Binding) (index : Nat) : (b.targetPattern index).getLast? = some .digits := by
  cases b <;> rfl

/-- The first entry for an index is found. -/
theorem search_entries (b : Binding) (index : Nat) (es : List Entry) :
    search (b.targetPattern index) (unlines (es.map (line b))).toList =
      (targetOf? index es).map fun n => (toString n).toList := by
  induction es with
  | nil =>
    have hnil : matchHere [] (b.targetPattern index) [] = none :=
      matchHere_nil (List.mem_of_getLast? (targetPattern_getLast? b index))
    change search (b.targetPattern index) [] = none
    rw [search, hnil]
    rfl
  | cons e es ih =>
    rw [List.map_cons, toList_unlines_cons]
    by_cases hi : e.index = index
    · subst hi
      rw [search_line_of_eq]
      simp [targetOf?]
    · rw [search_line_of_ne b hi, ih]
      simp [targetOf?, hi]

/-- Scanning a header for the target of a transition finds its own entry, or nothing if it has none; the last line may
be without an end. -/
theorem entries_told_apart (b : Binding) (es : List Entry) (hd : (es.map Entry.index).Nodup) (text : String)
    (ht : text = unlines (es.map (line b)) ∨ text ++ "\n" = unlines (es.map (line b))) :
    (∀ e ∈ es, firstNumber (b.targetPattern e.index) text = .ok (some e.target)) ∧
      ∀ index : Nat, index ∉ es.map Entry.index → firstNumber (b.targetPattern index) text = .ok none := by
  have hsearch : ∀ index : Nat, search (b.targetPattern index) text.toList =
      (targetOf? index es).map fun n => (toString n).toList := fun index => by
    rw [← search_entries]
    rcases ht with rfl | ht
    · rfl
    · rw [← ht, String.toList_append]
      exact (search_concat_lineEnd (targetPattern_getLast? b index) text.toList).symm
  refine ⟨fun e he => ?_, fun index hi => ?_⟩
  · have h := hsearch e.index
    rw [targetOf?_of_mem hd he] at h
    exact firstNumber_of_search h e.readable
  · have h := hsearch index
    rw [targetOf?_of_not_mem hi] at h
    exact firstNumber_of_search_none h

/-- Indices that begin or end alike, and a stem that looks like an entry. -/
def lookalikes : List Entry :=
  [⟨"TRANSITION_1_TARGET", 10, 7, by decide, by decide +kernel⟩, ⟨"", 1, 2, by decide, by decide +kernel⟩,
    ⟨"10", 21, 1, by decide, by decide +kernel⟩]

theorem lookalikes_told_apart :
    (lookalikes.map Entry.index).Nodup ∧
      (∀ e ∈ lookalikes, firstNumber (Binding.c.targetPattern e.index) (unlines (lookalikes.map (line .c))) =
        .ok (some e.target)) ∧
      firstNumber (Binding.objectiveCpp.targetPattern 2) (unlines (lookalikes.map (line .objectiveCpp))) = .ok none :=
  ⟨by decide, (entries_told_apart .c lookalikes (by decide) _ (.inl rfl)).1,
    (entries_told_apart .objectiveCpp lookalikes (by decide) _ (.inl rfl)).2 2 (by decide)⟩

end Entry

end MachineBundle.Source
