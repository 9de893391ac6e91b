import MachineBundle.Proofs.Tree.Filing
import MachineBundle.Proofs.Tree.Names

/-!
# The location that a path spells out

There are no links in the tree. So a path that leads somewhere leads to the location that its components spell out,
and that location depends on the working directory alone.
-/

namespace MachineBundle

/-- Where components lead by their names: two dots lead one level up. -/
def climb (here : Location) : List String → Location
  | [] => here
  | part :: rest => if part = ".." then climb here.dropLast rest else climb (here ++ [part]) rest

theorem climb_append (here : Location) (ps qs : List String) : climb here (ps ++ qs) = climb (climb here ps) qs := by
  induction ps generalizing here with
  | nil => rfl
  | cons part rest ih =>
    rw [List.cons_append, climb, climb]
    split
    · exact ih here.dropLast
    · exact ih (here ++ [part])

theorem climb_concat (here : Location) (ps : List String) {name : String} (h : name ≠ "..") :
    climb here (ps ++ [name]) = climb here ps ++ [name] := by
  rw [climb_append, climb, if_neg h, climb]

theorem climb_of_no_dots {ps : List String} (h : ".." ∉ ps) (here : Location) : climb here ps = here ++ ps := by
  induction ps generalizing here with
  | nil => rw [climb, List.append_nil]
  | cons part rest ih =>
    obtain ⟨hp, hr⟩ := List.ne_and_not_mem_of_not_mem_cons h
    rw [climb, if_neg hp.symm, ih hr, List.append_assoc]
    rfl

namespace Tree

/-- The location that a path spells out, whatever stands there. -/
def locate (t : Tree) (p : Path) : Location :=
  climb (t.start p) p.parts

theorem locate_congr {t t' : Tree} (h : t'.home = t.home) (p : Path) : t'.locate p = t.locate p := by
  unfold locate start
  rw [h]

/-- Where nothing leads upwards, a path leads below the place that it starts from. -/
theorem locate_append (t : Tree) (p : Path) {ps : List String} (h : ".." ∉ ps) :
    t.locate (p.append ⟨.none, ps⟩) = t.locate p ++ ps := by
  have hclimb : t.locate (p.append ⟨.none, ps⟩) = climb (t.locate p) ps := climb_append _ _ _
  rw [hclimb, climb_of_no_dots h]

theorem reach_eq_climb {t : Tree} {ps : List String} {here l : Location} (h : t.reach here ps = some l) :
    l = climb here ps := by
  induction ps generalizing here with
  | nil =>
    simp only [reach] at h
    split at h
    · cases h
      rfl
    · cases h
  | cons part rest ih =>
    simp only [reach] at h
    rw [climb]
    split at h
    · cases h
    · split at h
      · rename_i hp
        rw [if_pos hp]
        exact ih h
      · rename_i hp
        rw [if_neg hp]
        split at h
        · cases h
        · exact ih h

theorem directory?_eq_locate {t : Tree} {p : Path} {d : Location} (h : t.directory? p = some d) : d = t.locate p :=
  reach_eq_climb h

/-- A file that is written to a path comes to stand at the location that the path spells out. -/
theorem slot?_eq_locate {t : Tree} {p : Path} {l : Location} (h : t.slot? p = some l) : l = t.locate p := by
  obtain ⟨hp, d, hd, _, rfl⟩ := slot?_eq_some.mp h
  have hparts := parts_eq_concat hp.1
  have hd := directory?_eq_locate hd
  unfold locate at hd ⊢
  rw [hparts, climb_concat _ _ hp.2.1, hd]
  rfl

/-- A directory that is made at a path comes to stand at the location that the path spells out. -/
theorem place_free_eq_locate {t : Tree} {p : Path} {d : Location} {name : String} (h : t.place p = .ok (.free d name)) :
    d ++ [name] = t.locate p := by
  rw [place_eq] at h
  split at h
  · cases h
  · obtain ⟨init, hi, hne, _, hr, _⟩ := follow_free h
    unfold locate
    rw [hi, climb_concat _ _ hne, reach_eq_climb hr]

end Tree

/-! ## The ends of names -/

namespace Path

/-- What a text is continued with continues its last piece, unless there is a slash in it. -/
theorem pieces_continued (cs : List Char) :
    ∃ init last, ∀ suffix, '/' ∉ suffix → pieces (cs ++ suffix) = init ++ [last ++ suffix] := by
  induction cs with
  | nil => exact ⟨[], [], fun suffix h => pieces_of_not_mem h⟩
  | cons d r ih =>
    obtain ⟨init, last, hr⟩ := ih
    by_cases hd : d = '/'
    · exact ⟨[] :: init, last, fun suffix h => by rw [List.cons_append, pieces, hr suffix h, if_pos hd]; rfl⟩
    · cases init with
      | nil => exact ⟨[], d :: last, fun suffix h => by rw [List.cons_append, pieces, hr suffix h, if_neg hd]; rfl⟩
      | cons p init =>
        exact ⟨(d :: p) :: init, last, fun suffix h => by rw [List.cons_append, pieces, hr suffix h, if_neg hd]; rfl⟩

/-- Texts that go on alike up to a suffix without slashes lead to one directory. -/
theorem parts_ofText_append (s : String) :
    ∃ init last, ∀ suffix : String, '/' ∉ suffix.toList → isComponent (last ++ suffix.toList) = true →
      (ofText (s ++ suffix)).parts = init ++ [String.ofList (last ++ suffix.toList)] := by
  obtain ⟨init, last, hp⟩ := pieces_continued s.toList
  refine ⟨(init.filter isComponent).map String.ofList, last, fun suffix hs hc => ?_⟩
  simp [ofText, components, hp suffix.toList hs, hc]

theorem parts_ofText_concat {s : String} {c : Char} (hs : s.toList.getLast? = some c) (h₁ : c ≠ '/') (h₂ : c ≠ '.') :
    ∃ init n, (ofText s).parts = init ++ [n] ∧ n.toList.getLast? = some c := by
  obtain ⟨cs, hcs⟩ := List.getLast?_eq_some_iff.mp hs
  have hsplit : s = String.ofList cs ++ String.ofList [c] := by
    rw [← String.ofList_append, ← hcs, String.ofList_toList]
  obtain ⟨init, last, hp⟩ := parts_ofText_append (String.ofList cs)
  have hc : isComponent (last ++ [c]) = true := by
    cases last with
    | nil => simp [isComponent, h₂]
    | cons d r => simp [isComponent]
  refine ⟨init, String.ofList (last ++ [c]), ?_, by simp⟩
  rw [hsplit]
  simpa using hp (String.ofList [c]) (by simpa using h₁.symm) (by simpa using hc)

end Path

/-- A path to a name ends as the name does. -/
theorem Tree.locate_join (t : Tree) (p : Path) {s : String} {c : Char} (hs : s.toList.getLast? = some c) (h₁ : c ≠ '/')
    (h₂ : c ≠ '.') : ∃ d n, t.locate (p.join s) = d ++ [n] ∧ n.toList.getLast? = some c := by
  obtain ⟨init, n, hp, hn⟩ := Path.parts_ofText_concat hs h₁ h₂
  have hdots : n ≠ ".." := by
    rintro rfl
    exact h₂ (Option.some.inj hn).symm
  obtain ⟨before, hj⟩ : ∃ before, (p.join s).parts = before ++ [n] := by
    unfold Path.join Path.append
    split
    · exact ⟨p.parts ++ init, by rw [hp, List.append_assoc]⟩
    · exact ⟨init, hp⟩
  refine ⟨climb (t.start (p.join s)) before, n, ?_, hn⟩
  rw [Tree.locate, hj, climb_concat _ _ hdots]

/-- The name of a file leads to the location of this name in a directory. -/
theorem Tree.locate_join_fileName (t : Tree) (p : Path) {n : String} (h : FileName n) :
    t.locate (p.join n) = t.locate p ++ [n] := by
  rw [Path.join_name p h.isName]
  exact climb_concat _ _ h.ne_dots

/-- Names that end differently lead to different locations. -/
theorem Tree.locate_join_ne (t : Tree) (p : Path) {s s' : String} {c c' : Char} (hs : s.toList.getLast? = some c)
    (hs' : s'.toList.getLast? = some c') (h : c ≠ c') (h₁ : c ≠ '/') (h₂ : c ≠ '.') (h₁' : c' ≠ '/') (h₂' : c' ≠ '.') :
    t.locate (p.join s) ≠ t.locate (p.join s') := by
  obtain ⟨d, n, he, hn⟩ := t.locate_join p hs h₁ h₂
  obtain ⟨d', n', he', hn'⟩ := t.locate_join p hs' h₁' h₂'
  rw [he, he']
  intro heq
  have hnn : n = n' := by simpa using (List.append_inj' heq rfl).2
  rw [hnn, hn'] at hn
  exact h (Option.some.inj hn).symm

end MachineBundle
