import MachineBundle.Proofs.Bundle.Inside

/-!
# Questions that are answered

A question to a bundle is answered whatever stands in the file that it is about, and without this file. There are three
exceptions: a state with a NUL character in its name, a recorded number with too many digits, and a path so long that
no window layout can be looked for.
-/

namespace MachineBundle

/-! ## NUL characters in paths -/

namespace Path

theorem exists_mem_pieces {c : Char} (hc : c ≠ '/') (cs : List Char) : (∃ piece ∈ pieces cs, c ∈ piece) ↔ c ∈ cs := by
  induction cs with
  | nil => simp [pieces]
  | cons d r ih =>
    by_cases hd : d = '/'
    · simp [pieces, hd, hc, ih]
    · rw [pieces, if_neg hd]
      cases hr : pieces r with
      | nil => simp_all [Text.consFirst]
      | cons piece more =>
        rw [hr, List.exists_mem_cons_iff] at ih
        rw [Text.consFirst, List.exists_mem_cons_iff, List.mem_cons, List.mem_cons, ← ih, or_assoc]

/-- A path that is given as a text has the NUL characters of the text. -/
theorem hasNull_ofText (s : String) : Tree.hasNull (ofText s) = s.toList.contains '\x00' := by
  have hcomponent : ∀ piece : List Char, '\x00' ∈ piece → isComponent piece = true := by
    intro piece hp
    unfold isComponent
    cases piece with
    | nil => cases hp
    | cons c r =>
      rw [List.isEmpty_cons, Bool.not_false, Bool.true_and, bne_iff_ne]
      intro he
      rw [he] at hp
      exact absurd hp (by decide)
  rw [Bool.eq_iff_iff, List.contains_iff_mem, ← exists_mem_pieces (by decide)]
  unfold Tree.hasNull ofText components
  simp only [List.any_eq_true, List.mem_map, List.mem_filter, List.contains_iff_mem]
  constructor
  · rintro ⟨_, ⟨piece, ⟨hp, -⟩, rfl⟩, hnull⟩
    rw [String.toList_ofList] at hnull
    exact ⟨piece, hp, hnull⟩
  · rintro ⟨piece, hp, hnull⟩
    exact ⟨_, ⟨piece, ⟨hp, hcomponent piece hnull⟩, rfl⟩, by rwa [String.toList_ofList]⟩

/-- A text as seen from a path has a NUL character if one of them has. -/
theorem hasNull_join_text {p : Path} (hp : Tree.hasNull p = false) (s : String) :
    Tree.hasNull (p.join s) = s.toList.contains '\x00' := by
  rw [← hasNull_ofText, join, append]
  split
  · unfold Tree.hasNull at hp ⊢
    rw [List.any_append, hp, Bool.false_or]
  · rfl

theorem noNull_stem {p : Path} (hp : Tree.hasNull p = false) : '\x00' ∉ p.stem.toList := by
  intro hnull
  rw [stem, String.toList_ofList] at hnull
  have hname := stemOf_subset _ hnull
  unfold name at hname
  cases hl : p.parts.getLast? with
  | none =>
    rw [hl] at hname
    cases hname
  | some last =>
    rw [hl, Option.getD_some] at hname
    have hlast := List.any_eq_false.mp hp last (List.mem_of_getLast? hl)
    exact hlast (List.contains_iff_mem.mpr hname)

end Path

/-! ## Texts of files -/

/-- A file that holds no text, or that cannot be read, is at fault for this alone. -/
theorem Tree.isUnreadable_of_readText {t : Tree} {p : Path} {f : Fault} (hp : hasNull p = false)
    (h : t.readText p = .error f) : f.isUnreadable = true :=
  readText_unreadable hp f h

namespace Scan

/-- The digits that a pattern finds in a text are few enough to be read as a number. -/
def Readable (p : Pattern) (text : String) : Prop :=
  ∀ ds ∈ search p text.toList, ds.length ≤ digitLimit

theorem firstNumber_isOk_iff (p : Pattern) (text : String) : (∃ n, firstNumber p text = .ok n) ↔ Readable p text := by
  unfold firstNumber Readable
  cases search p text.toList with
  | none => simp
  | some ds =>
    cases ds with
    | nil => simp
    | cons d ds =>
      by_cases hlong : digitLimit < (d :: ds).length
      · simp only [if_pos hlong, reduceCtorEq, exists_false, Option.mem_some_iff, forall_eq', Nat.not_le.mpr hlong]
      · simp only [if_neg hlong, Except.ok.injEq, exists_eq', Option.mem_some_iff, forall_eq', Nat.not_lt.mp hlong]

end Scan

namespace Bundle

variable {b : Binding} {t : Tree} {bundle : Path}

/-- The text of a file of a bundle, if it can be read. -/
def text? (t : Tree) (bundle : Path) (file : String) : Option String :=
  (t.readText (bundle.join file)).toOption

theorem content?_of_noNull (hb : Tree.hasNull bundle = false) {file : String} (hf : '\x00' ∉ file.toList) :
    content? t bundle file = .ok (text? t bundle file) := by
  have hnull : Tree.hasNull (bundle.join file) = false := by
    rw [Path.hasNull_join_text hb, ← Bool.not_eq_true, List.contains_iff_mem]
    exact hf
  unfold content? text?
  cases h : t.readText (bundle.join file) with
  | ok text => rfl
  | error f =>
    dsimp only
    rw [if_pos (Tree.isUnreadable_of_readText hnull h)]
    rfl

theorem content?_of_null (hb : Tree.hasNull bundle = false) {file : String} (hf : '\x00' ∈ file.toList) :
    content? t bundle file = .error .nullCharacter := by
  have hnull : Tree.hasNull (bundle.join file) = true := by
    rw [Path.hasNull_join_text hb]
    exact List.contains_iff_mem.mpr hf
  have hread : t.readText (bundle.join file) = .error .nullCharacter := by
    unfold Tree.readText Tree.readBytes
    rw [if_pos hnull]
    rfl
  unfold content?
  rw [hread]
  rfl

theorem number?_isOk_iff (p : Scan.Pattern) (text : Option String) :
    (∃ n, number? p text = .ok n) ↔ ∀ s ∈ text, Scan.Readable p s := by
  cases text with
  | none => simp [number?]
  | some s =>
    have hfirst := Scan.firstNumber_isOk_iff p s
    unfold number?
    cases hn : Scan.firstNumber p s with
    | ok n => simpa [hn] using hfirst
    | error long => simpa [hn] using hfirst

/-! ## Questions that are answered -/

theorem isOk_bind_pure {α β : Type} (r : Except Fault α) (g : α → β) :
    (∃ b, (r >>= fun a => pure (g a)) = .ok b) ↔ ∃ a, r = .ok a := by
  cases r <;> simp [bind, Except.bind, pure, Except.pure]

theorem noNull_stateFile {state suffix : String} (hs : '\x00' ∉ suffix.toList) :
    '\x00' ∉ (Binding.stateStem state ++ suffix).toList ↔ '\x00' ∉ state.toList := by
  have hstem : '\x00' ∉ "State_".toList := by decide
  simp only [Binding.stateStem, String.toList_append, List.mem_append, hstem, hs, false_or, or_false]

theorem noNull_stateHeaderFile (state : String) :
    '\x00' ∉ (Binding.stateHeaderFile state).toList ↔ '\x00' ∉ state.toList :=
  noNull_stateFile (by decide)

/-- The number of transitions is known unless the header cannot be named or has too long a number in it. -/
theorem transitionCount_isOk_iff (hb : Tree.hasNull bundle = false) (state : String) :
    (∃ count, transitionCount b t bundle state = .ok count) ↔ '\x00' ∉ state.toList ∧
      ∀ header ∈ text? t bundle (Binding.stateHeaderFile state), Scan.Readable b.countPattern header := by
  rw [← number?_isOk_iff, ← noNull_stateHeaderFile]
  unfold transitionCount
  by_cases hf : '\x00' ∈ (Binding.stateHeaderFile state).toList
  · rw [content?_of_null hb hf]
    simp [hf, bind, Except.bind]
  · rw [content?_of_noNull hb hf, and_iff_right hf]
    exact isOk_bind_pure _ _

theorem targetOf_isOk_iff (hb : Tree.hasNull bundle = false) {state : String} {count index : Nat}
    (hc : transitionCount b t bundle state = .ok count) (hi : index < count) (states : List State) :
    (∃ target, targetOf b t bundle states state index = .ok target) ↔
      ∀ header ∈ text? t bundle (Binding.stateHeaderFile state), Scan.Readable (b.targetPattern index) header := by
  have hf := (noNull_stateHeaderFile state).mpr ((transitionCount_isOk_iff hb state).mp ⟨count, hc⟩).1
  rw [← number?_isOk_iff]
  unfold targetOf
  rw [checkIndex_ok hc hi, content?_of_noNull hb hf]
  exact isOk_bind_pure _ _

theorem noNull_implementationFile (hb : Tree.hasNull bundle = false) :
    '\x00' ∉ (b.implementationFile bundle.stem).toList := by
  have hstem := Path.noNull_stem hb
  cases b with
  | c => simpa [Binding.implementationFile, Binding.stem, Binding.implementationSuffix] using hstem
  | objectiveCpp => simpa [Binding.implementationFile, Binding.stem, Binding.implementationSuffix] using hstem

theorem suspendState_isOk_iff (hb : Tree.hasNull bundle = false) (states : List State) :
    (∃ suspend, suspendState b t bundle states = .ok suspend) ↔
      ∀ source ∈ text? t bundle (b.implementationFile bundle.stem), Scan.Readable b.suspendPattern source := by
  rw [← number?_isOk_iff]
  unfold suspendState
  rw [content?_of_noNull hb (noNull_implementationFile hb)]
  exact isOk_bind_pure _ _

theorem addSections_isOk (hb : Tree.hasNull bundle = false) {files : List (Section × String)}
    (hf : ∀ f ∈ files, '\x00' ∉ f.2.toList) (p : Boilerplate) : ∃ code, addSections t bundle files p = .ok code := by
  induction files generalizing p with
  | nil => exact ⟨p, rfl⟩
  | cons f r ih =>
    rw [List.forall_mem_cons] at hf
    unfold addSections
    rw [content?_of_noNull hb hf.1]
    cases text? t bundle f.2 with
    | none => exact ih hf.2 p
    | some code => exact ih hf.2 (p.set f.1 code)

theorem boilerplate_isOk (hb : Tree.hasNull bundle = false) : ∃ code, boilerplate b t bundle = .ok code := by
  have hstem := Path.noNull_stem hb
  have hmachine : '\x00' ∉ (b.stem bundle.stem).toList := by
    cases b with
    | c => simpa [Binding.stem] using hstem
    | objectiveCpp => exact hstem
  refine addSections_isOk hb ?_ .blank
  simpa [Binding.sectionFiles] using hmachine

theorem stateBoilerplate_isOk (hb : Tree.hasNull bundle = false) {state : String} (hs : '\x00' ∉ state.toList) :
    ∃ code, stateBoilerplate t bundle state = .ok code := by
  refine addSections_isOk hb ?_ .blank
  simpa [Binding.stateSectionFiles, Binding.stateStem] using hs

/-- Where a file of a directory can be read there is this directory. -/
theorem directory?_of_readText {file text : String} (hf : FileName file) (h : t.readText (bundle.join file) = .ok text) :
    Tree.hasNull bundle = false ∧ (bundle.join file).text.utf8ByteSize < Tree.pathLimit ∧
      ∃ d, t.directory? bundle = some d := by
  obtain ⟨content, h, -⟩ := except_bind_eq_ok h
  have hempty : (bundle.join file).name ≠ "" := by
    rw [Path.name_join bundle hf.isName]
    exact hf.ne_empty
  have hdots : (bundle.join file).name ≠ ".." := by
    rw [Path.name_join bundle hf.isName]
    exact hf.ne_dots
  unfold Tree.readBytes at h
  split at h
  · cases h
  · rename_i hnull
    rw [Path.hasNull_join bundle hf.isName, Bool.not_eq_true, Bool.or_eq_false_iff] at hnull
    cases hq : t.place (bundle.join file) with
    | error r =>
      rw [hq] at h
      cases h
    | ok q =>
      obtain ⟨hnames, d, hd, -⟩ := Tree.place_ok hq hempty hdots
      rw [Path.parent_join bundle hf.isName] at hd
      exact ⟨hnull.1, hnames.2.2.2, d, hd⟩

/-- Where a list of states can be read there is a directory. -/
theorem directory?_of_stateNames {names : List String} (h : stateNames t bundle = .ok names) :
    Tree.hasNull bundle = false ∧ ∃ d, t.directory? bundle = some d := by
  obtain ⟨text, htext, -⟩ := except_bind_eq_ok h
  obtain ⟨hnull, -, hd⟩ := directory?_of_readText fileName_statesFile htext
  exact ⟨hnull, hd⟩

theorem windowLayout_isOk_iff {d : Location} (hd : t.directory? bundle = some d) (hb : Tree.hasNull bundle = false) :
    (∃ layout, windowLayout t bundle = .ok layout) ↔
      (bundle.join windowLayoutFile).text.utf8ByteSize < Tree.pathLimit := by
  by_cases hlimit : (bundle.join windowLayoutFile).text.utf8ByteSize < Tree.pathLimit
  · simp [windowLayout_of_look hd hb hlimit, hlimit]
  · simp [windowLayout_too_long hb (Nat.not_lt.mp hlimit), hlimit]

end Bundle

end MachineBundle
