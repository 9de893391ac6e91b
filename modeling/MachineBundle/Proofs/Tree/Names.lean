import MachineBundle.Proofs.Text.Plain
import MachineBundle.Tree.Basic

/-!
# Names of files

The files of a bundle are told apart by names of plain characters and dots. Such a name is one component of a path,
which leads from a directory straight to the file.
-/

namespace MachineBundle

/-! ## Components -/

namespace Path

theorem pieces_of_not_mem {cs : List Char} (h : '/' ∉ cs) : pieces cs = [cs] := by
  induction cs with
  | nil => rfl
  | cons c r ih =>
    obtain ⟨hc, hr⟩ := List.ne_and_not_mem_of_not_mem_cons h
    rw [pieces, if_neg hc.symm, ih hr]
    rfl

theorem pieces_append {a : List Char} (h : '/' ∉ a) (b : List Char) : pieces (a ++ '/' :: b) = a :: pieces b := by
  induction a with
  | nil => rfl
  | cons c r ih =>
    obtain ⟨hc, hr⟩ := List.ne_and_not_mem_of_not_mem_cons h
    rw [List.cons_append, pieces, if_neg hc.symm, ih hr]
    rfl

theorem anchorOf_of_head {cs : List Char} (h : cs.head? ≠ some '/') : anchorOf cs = .none := by
  unfold anchorOf
  split
  · exact absurd rfl h
  · exact absurd rfl h
  · exact absurd rfl h
  · rfl

/-- A text that is one component of a path. -/
structure IsName (n : String) : Prop where
  isComponent : isComponent n.toList = true
  noSlash : '/' ∉ n.toList

theorem IsName.head {n : String} (h : IsName n) : n.toList.head? ≠ some '/' := by
  intro hh
  exact h.noSlash (List.mem_of_mem_head? (Option.mem_def.mpr hh))

theorem ofText_name {n : String} (h : IsName n) : ofText n = ⟨.none, [n]⟩ := by
  unfold ofText components
  rw [anchorOf_of_head h.head, pieces_of_not_mem h.noSlash]
  simp [h.isComponent]

/-- A name inside a directory. -/
theorem ofText_pair {d n : String} (hd : IsName d) (hn : IsName n) : ofText (d ++ "/" ++ n) = ⟨.none, [d, n]⟩ := by
  have hl : (d ++ "/" ++ n).toList = d.toList ++ '/' :: n.toList := by simp
  have hh : (d.toList ++ '/' :: n.toList).head? ≠ some '/' := by
    have hc := hd.isComponent
    have hs := hd.head
    cases he : d.toList with
    | nil =>
      rw [he] at hc
      cases hc
    | cons c r =>
      rw [he] at hs
      exact hs
  unfold ofText components
  rw [hl, anchorOf_of_head hh, pieces_append hd.noSlash, pieces_of_not_mem hn.noSlash]
  simp [hd.isComponent, hn.isComponent]

theorem join_name (p : Path) {n : String} (h : IsName n) : p.join n = ⟨p.anchor, p.parts ++ [n]⟩ := by
  rw [join, ofText_name h]
  rfl

theorem join_pair (p : Path) {d n : String} (hd : IsName d) (hn : IsName n) :
    p.join (d ++ "/" ++ n) = (p.join d).join n := by
  rw [join, ofText_pair hd hn, join_name _ hd, join_name _ hn, append, if_pos rfl, List.append_assoc]
  rfl

theorem parent_join (p : Path) {n : String} (h : IsName n) : (p.join n).parent = p := by
  simp [join_name p h, parent]

theorem name_join (p : Path) {n : String} (h : IsName n) : (p.join n).name = n := by
  simp [join_name p h, name]

theorem hasNull_join (p : Path) {n : String} (h : IsName n) :
    Tree.hasNull (p.join n) = (Tree.hasNull p || n.toList.contains '\x00') := by
  simp [join_name p h, Tree.hasNull]

/-! ## The length of a path -/

theorem intercalate_concat (sep : String) (ps : List String) (hne : ps ≠ []) (n : String) :
    sep.intercalate (ps ++ [n]) = sep.intercalate ps ++ sep ++ n := by
  induction ps with
  | nil => exact absurd rfl hne
  | cons p ps ih =>
    cases ps with
    | nil => simp [String.intercalate_cons_cons]
    | cons q ps =>
      rw [List.cons_append, List.cons_append, String.intercalate_cons_cons, String.intercalate_cons_cons,
        ← List.cons_append, ih (by simp)]
      simp [String.append_assoc]

theorem text_join (p : Path) {n : String} (h : IsName n) :
    (p.join n).text = p.anchor.text ++ (if p.parts = [] then "" else "/".intercalate p.parts ++ "/") ++ n := by
  by_cases hp : p.parts = []
  · simp [join_name p h, text, bareText, hp]
  · simp [join_name p h, text, bareText, hp, intercalate_concat "/" p.parts hp n, String.append_assoc]

/-- Paths into one directory are as long as their last components make them. -/
theorem utf8ByteSize_text_join (p : Path) :
    ∃ k, ∀ n, IsName n → (p.join n).text.utf8ByteSize = k + n.utf8ByteSize :=
  ⟨_, fun n hn => by rw [text_join p hn, String.utf8ByteSize_append]⟩

theorem utf8ByteSize_text_join_of_ne {p : Path} (hp : p.parts ≠ []) {n : String} (h : IsName n) :
    (p.join n).text.utf8ByteSize = p.text.utf8ByteSize + 1 + n.utf8ByteSize := by
  have hs : "/".utf8ByteSize = 1 := by decide
  rw [text_join p h]
  simp only [text, bareText, hp, and_false, if_false, String.utf8ByteSize_append, hs]
  omega

theorem utf8ByteSize_text_join_le (p : Path) {n n' : String} (hn : IsName n) (hn' : IsName n')
    (h : n.utf8ByteSize ≤ n'.utf8ByteSize) : (p.join n).text.utf8ByteSize ≤ (p.join n').text.utf8ByteSize := by
  obtain ⟨k, hk⟩ := p.utf8ByteSize_text_join
  rw [hk n hn, hk n' hn']
  omega

/-! ## As seen from a base -/

theorem relativeTo?_append (base : Path) (ps : List String) :
    (base.append ⟨.none, ps⟩).relativeTo? base = some ⟨.none, ps⟩ := by
  simp [append, relativeTo?]

end Path

/-! ## Names of plain characters and dots -/

namespace Path

/-- A piece with a plain character is a component. -/
theorem isComponent_of_plain {cs : List Char} (h : ∃ c ∈ cs, Text.isPlain c = true) : isComponent cs = true := by
  obtain ⟨c, hc, hp⟩ := h
  unfold isComponent
  cases cs with
  | nil => cases hc
  | cons d r =>
    simp only [List.isEmpty_cons, Bool.not_false, Bool.true_and, bne_iff_ne, ne_eq]
    intro he
    rw [he, List.mem_singleton] at hc
    subst hc
    exact absurd hp (by decide)

theorem ne_dots_of_plain {n : String} (h : ∃ c ∈ n.toList, Text.isPlain c = true) : n ≠ ".." := by
  rintro rfl
  obtain ⟨c, hc, hp⟩ := h
  have hc' : c = '.' := by simpa using hc
  subst hc'
  exact absurd hp (by decide)

end Path

/-- A name of plain characters and dots, not of dots only. -/
structure FileName (n : String) : Prop where
  chars : ∀ c ∈ n.toList, Text.isPlain c = true ∨ c = '.'
  plain : ∃ c ∈ n.toList, Text.isPlain c = true

namespace FileName

variable {n : String}

theorem isName (h : FileName n) : Path.IsName n where
  isComponent := Path.isComponent_of_plain h.plain
  noSlash := by
    intro hm
    rcases h.chars _ hm with h | h <;> exact absurd h (by decide)

theorem noNull (h : FileName n) : n.toList.contains '\x00' = false := by
  rw [List.contains_eq_mem, decide_eq_false_iff_not]
  intro hm
  rcases h.chars _ hm with h | h <;> exact absurd h (by decide)

theorem ne_dots (h : FileName n) : n ≠ ".." :=
  Path.ne_dots_of_plain h.plain

theorem ne_empty (h : FileName n) : n ≠ "" := by
  rintro rfl
  obtain ⟨c, hc, -⟩ := h.plain
  cases hc

theorem ofPlain (h : Text.PlainText n) (hne : n ≠ "") : FileName n where
  chars c hc := Or.inl (h c hc)
  plain := by
    cases hn : n.toList with
    | nil => exact absurd (String.toList_eq_nil_iff.mp hn) hne
    | cons c r => exact ⟨c, List.mem_cons_self, h c (by rw [hn]; exact List.mem_cons_self)⟩

/-- More characters of the same kind at the end. -/
theorem append {s : String} (h : FileName n) (hs : ∀ c ∈ s.toList, Text.isPlain c = true ∨ c = '.') :
    FileName (n ++ s) where
  chars c hc := by
    rw [String.toList_append, List.mem_append] at hc
    exact hc.elim (h.chars c) (hs c)
  plain := by
    obtain ⟨c, hc, hp⟩ := h.plain
    exact ⟨c, by rw [String.toList_append]; exact List.mem_append_left _ hc, hp⟩

theorem append_plain {s : String} (h : FileName n) (hs : Text.PlainText s) : FileName (n ++ s) :=
  h.append fun c hc => Or.inl (hs c hc)

/-- A fixed part of a name. -/
theorem append_ofList (cs : List Char) (h : FileName n) (hs : cs.all (fun c => Text.isPlain c || c == '.') = true) :
    FileName (n ++ String.ofList cs) := by
  refine h.append fun c hc => ?_
  rw [String.toList_ofList] at hc
  simpa using List.all_eq_true.mp hs c hc

theorem ofList (cs : List Char)
    (h : cs.all (fun c => Text.isPlain c || c == '.') = true ∧ cs.any Text.isPlain = true) :
    FileName (String.ofList cs) where
  chars c hc := by
    rw [String.toList_ofList] at hc
    simpa using List.all_eq_true.mp h.1 c hc
  plain := by
    rw [String.toList_ofList]
    simpa using h.2

end FileName

end MachineBundle
