import MachineBundle.Bundle.Query
import MachineBundle.Proofs.Text.Plain

/-!
# Text that is read back

Text without carriage returns is read as it was written. A list of plain names and a guard come back from their
files, the guard without the blanks around it.
-/

namespace MachineBundle.Text

theorem unifyBreaks_of_not_mem {cs : List Char} (h : '\r' ∉ cs) : unifyBreaks cs = cs := by
  induction cs with
  | nil => rfl
  | cons c r ih =>
    obtain ⟨hc, hr⟩ := List.ne_and_not_mem_of_not_mem_cons h
    rw [unifyBreaks, ih hr]
    · rintro _ rfl
      exact absurd rfl hc
    · rintro rfl
      exact absurd rfl hc

theorem textOf_encode {s : String} (h : '\r' ∉ s.toList) : Tree.textOf (encode s) = .ok s := by
  simp [Tree.textOf, decode_encode, unifyBreaks_of_not_mem h]

/-! ## Blanks -/

theorem dropWhile_isBlank {cs : List Char} (h : ∀ c ∈ cs, isBlank c = false) : cs.dropWhile isBlank = cs := by
  cases cs with
  | nil => rfl
  | cons c r => simp [h c List.mem_cons_self]

theorem trimBlanks_of_not_blank {cs : List Char} (h : ∀ c ∈ cs, isBlank c = false) : trimBlanks cs = cs := by
  have hr : ∀ c ∈ cs.reverse, isBlank c = false := fun c hc => h c (List.mem_reverse.mp hc)
  rw [trimBlanks, dropWhile_isBlank h, dropWhile_isBlank hr, List.reverse_reverse]

theorem trimBlanks_subset (cs : List Char) : trimBlanks cs ⊆ cs := by
  intro c hc
  have h₁ := List.mem_reverse.mp hc
  have h₂ := List.mem_reverse.mp ((List.dropWhile_sublist _).mem h₁)
  exact (List.dropWhile_sublist _).mem h₂

/-- What is left when blanks are dropped does not begin with one. -/
theorem dropWhile_isBlank_of_head {cs : List Char} (h : ∀ c ∈ cs.head?, isBlank c = false) :
    cs.dropWhile isBlank = cs := by
  cases cs with
  | nil => rfl
  | cons c r => simp [h c rfl]

theorem isBlank_head?_dropWhile (cs : List Char) : ∀ c ∈ (cs.dropWhile isBlank).head?, isBlank c = false := by
  induction cs with
  | nil => simp
  | cons c r ih =>
    rw [List.dropWhile_cons]
    split
    · exact ih
    · rename_i hc
      intro d hd
      cases hd
      simpa using hc

theorem trimBlanks_trimBlanks (cs : List Char) : trimBlanks (trimBlanks cs) = trimBlanks cs := by
  have hback : ∀ c ∈ (trimBlanks cs).reverse.head?, isBlank c = false := by
    unfold trimBlanks
    rw [List.reverse_reverse]
    exact isBlank_head?_dropWhile _
  have hfront : ∀ c ∈ (trimBlanks cs).head?, isBlank c = false := by
    intro c hc
    obtain ⟨dropped, hd⟩ := List.dropWhile_suffix isBlank (l := (cs.dropWhile isBlank).reverse)
    have hcut : cs.dropWhile isBlank = trimBlanks cs ++ dropped.reverse := by
      rw [trimBlanks, ← List.reverse_append, hd, List.reverse_reverse]
    refine isBlank_head?_dropWhile cs c ?_
    rw [hcut]
    cases ht : trimBlanks cs with
    | nil =>
      rw [ht] at hc
      cases hc
    | cons d r =>
      rw [ht] at hc
      exact hc
  rw [trimBlanks, dropWhile_isBlank_of_head hfront, dropWhile_isBlank_of_head hback, List.reverse_reverse]

/-- A line feed at the end is trimmed with all the other blanks there. -/
theorem trimBlanks_concat_newline (cs : List Char) : trimBlanks (cs ++ ['\n']) = trimBlanks cs := by
  unfold trimBlanks
  induction cs with
  | nil => rfl
  | cons c r ih =>
    rw [List.cons_append, List.dropWhile_cons, List.dropWhile_cons]
    split
    · exact ih
    · have hb : isBlank '\n' = true := by decide
      rw [← List.cons_append, List.reverse_append, List.reverse_singleton, List.singleton_append,
        List.dropWhile_cons_of_pos hb]

theorem trimmed_append_newline (s : String) : trimmed (s ++ "\n") = trimmed s := by
  have h : (s ++ "\n").toList = s.toList ++ ['\n'] := String.toList_append
  rw [trimmed, trimmed, h, trimBlanks_concat_newline]

/-! ## Lines -/

theorem toList_unlines (ls : List String) :
    (Source.unlines ls).toList = ls.flatMap fun l => l.toList ++ ['\n'] := by
  unfold Source.unlines
  induction ls with
  | nil => rfl
  | cons l r ih =>
    rw [List.map_cons, String.join_cons, String.toList_append, ih, String.toList_append, List.flatMap_cons]
    rfl

theorem lines_cons_of_unbroken {cs : List Char} (h : ∀ c ∈ cs, isLineBoundary c = false) (rest : List Char) :
    lines (cs ++ '\n' :: rest) = cs :: lines rest := by
  induction cs with
  | nil => simp [lines, isLineBoundary]
  | cons c r ih =>
    have hc := h c List.mem_cons_self
    have hr : c ≠ '\r' := by
      rintro rfl
      exact absurd hc (by decide)
    rw [List.cons_append, lines]
    · simp [hc, ih fun d hd => h d (List.mem_cons_of_mem c hd), consFirst]
    · rintro _ rfl
      exact absurd rfl hr

theorem mem_consFirst {c d : Char} {ls : List (List Char)} {l : List Char} (h : l ∈ consFirst c ls) (hd : d ∈ l) :
    d = c ∨ ∃ l' ∈ ls, d ∈ l' := by
  cases ls with
  | nil =>
    cases List.mem_singleton.mp h
    exact .inl (List.mem_singleton.mp hd)
  | cons k ks =>
    rcases List.mem_cons.mp h with rfl | h
    · rcases List.mem_cons.mp hd with rfl | hd
      · exact .inl rfl
      · exact .inr ⟨k, List.mem_cons_self, hd⟩
    · exact .inr ⟨l, List.mem_cons_of_mem k h, hd⟩

/-- No line has the end of a line in it. -/
theorem isLineBoundary_of_mem_lines (cs : List Char) : ∀ l ∈ lines cs, ∀ c ∈ l, isLineBoundary c = false := by
  fun_induction lines cs with
  | case1 => simp
  | case2 r ih =>
    intro l hl
    rcases List.mem_cons.mp hl with rfl | hl
    · simp
    · exact ih l hl
  | case3 c r _ hc ih =>
    intro l hl
    rcases List.mem_cons.mp hl with rfl | hl
    · simp
    · exact ih l hl
  | case4 c r _ hc ih =>
    intro l hl d hd
    rcases mem_consFirst hl hd with rfl | ⟨l', hl', hd⟩
    · simpa using hc
    · exact ih l' hl' d hd

theorem entries_append {cs : List Char} (h : '\n' ∉ cs) (rest : List Char) :
    entries (cs ++ '\n' :: rest) = cs :: entries rest := by
  induction cs with
  | nil => rfl
  | cons c r ih =>
    obtain ⟨hc, hr⟩ := List.ne_and_not_mem_of_not_mem_cons h
    rw [List.cons_append, entries, if_neg hc.symm, ih hr]
    rfl

theorem entries_unlines {names : List String} (h : ∀ n ∈ names, '\n' ∉ n.toList) :
    entries (Source.unlines names).toList = names.map String.toList ++ [[]] := by
  rw [toList_unlines]
  induction names with
  | nil => rfl
  | cons n r ih =>
    rw [List.flatMap_cons, List.append_assoc, List.singleton_append, entries_append (h n List.mem_cons_self),
      ih fun m hm => h m (List.mem_cons_of_mem n hm)]
    rfl

/-! ## Lists of names -/

/-- A name that stands on a line of its own as it is. -/
structure IsListed (n : String) : Prop where
  nonempty : n ≠ ""
  unbroken : ∀ c ∈ n.toList, isLineBoundary c = false
  trimmed : trimBlanks n.toList = n.toList

theorem IsListed.ofPlain {n : String} (h : PlainText n) (hne : n ≠ "") : IsListed n where
  nonempty := hne
  unbroken := fun c hc => isLineBoundary_of_isPlain (h c hc)
  trimmed := trimBlanks_of_not_blank h.isBlank

/-- The names that are read from a list can be listed. -/
theorem isListed_of_mem_namesIn {text n : String} (h : n ∈ Bundle.namesIn text) : IsListed n := by
  unfold Bundle.namesIn at h
  obtain ⟨name, hname, hn⟩ := List.mem_filterMap.mp h
  obtain ⟨line, hline, rfl⟩ := List.mem_map.mp hname
  cases he : (trimBlanks line).isEmpty with
  | true =>
    rw [he] at hn
    cases hn
  | false =>
    rw [he] at hn
    cases hn
    refine ⟨?_, ?_, ?_⟩
    · intro hempty
      rw [String.ofList_eq_empty_iff.mp hempty] at he
      cases he
    · intro c hc
      rw [String.toList_ofList] at hc
      exact isLineBoundary_of_mem_lines _ line hline c (trimBlanks_subset line hc)
    · rw [String.toList_ofList, trimBlanks_trimBlanks]

/-- A list of names is read as it was written. -/
theorem namesIn_unlines {names : List String} (h : ∀ n ∈ names, IsListed n) :
    Bundle.namesIn (Source.unlines names) = names := by
  have hl : lines (Source.unlines names).toList = names.map String.toList := by
    rw [toList_unlines]
    induction names with
    | nil => rfl
    | cons n r ih =>
      rw [List.flatMap_cons, List.append_assoc, List.singleton_append,
        lines_cons_of_unbroken (h n List.mem_cons_self).unbroken, ih fun m hm => h m (List.mem_cons_of_mem n hm),
        List.map_cons]
  unfold Bundle.namesIn
  rw [hl, List.map_map]
  clear hl
  induction names with
  | nil => rfl
  | cons n r ih =>
    have hn := h n List.mem_cons_self
    have hr := ih fun m hm => h m (List.mem_cons_of_mem n hm)
    rw [List.map_cons, List.filterMap_cons, hr]
    simp [hn.trimmed, hn.nonempty]

end MachineBundle.Text
