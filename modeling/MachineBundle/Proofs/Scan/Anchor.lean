import MachineBundle.Proofs.Scan.Match

/-!
# Where matches can begin

A pattern passes over something that is rare in a text: a certain character, a number after a blank, or a word. The
text in front of such a place decides whether a match leads there.
-/

namespace MachineBundle.Scan

/-- What holds of the characters of a literal holds of its text. -/
theorem of_ofList {P : List Char → Prop} (cs : List Char) (h : P cs) : P (String.ofList cs).toList := by
  rwa [String.toList_ofList]

/-- Texts agree up to the first place of a character that both hold. -/
theorem append_cons_inj_of_first {c : Char} {x x' z z' : List Char} (hx : c ∉ x) (hx' : c ∉ x')
    (h : x ++ c :: z = x' ++ c :: z') : x = x' ∧ z = z' := by
  induction x generalizing x' with
  | nil =>
    cases x' with
    | nil => exact ⟨rfl, by simpa using h⟩
    | cons d x' =>
      simp only [List.nil_append, List.cons_append, List.cons.injEq] at h
      exact absurd (h.1 ▸ List.mem_cons_self) hx'
  | cons d x ih =>
    cases x' with
    | nil =>
      simp only [List.nil_append, List.cons_append, List.cons.injEq] at h
      exact absurd (h.1 ▸ List.mem_cons_self) hx
    | cons e x' =>
      simp only [List.cons_append, List.cons.injEq] at h
      obtain ⟨rfl, hz⟩ := ih (fun hm => hx (List.mem_cons_of_mem d hm)) (fun hm => hx' (List.mem_cons_of_mem e hm)) h.2
      exact ⟨by rw [h.1], hz⟩

/-- What comes in front of a character that it does not hold is a beginning of the text up to there. -/
theorem prefix_of_not_mem {c : Char} {a b x y : List Char} (ha : c ∉ a) (h : x ++ c :: y = a ++ b) : a <+: x := by
  rcases List.append_eq_append_iff.mp h with ⟨z, rfl, hz⟩ | ⟨z, rfl, _⟩
  · cases z with
    | nil => simp
    | cons d z =>
      rw [List.cons_append, List.cons.injEq] at hz
      exact absurd (by simp [hz.1]) ha
  · exact List.prefix_append a z

/-- A text that ends in some character leaves it at the end of every stretch at its end. -/
theorem eq_concat_of_suffix {c : Char} {u x y : List Char} (h : u ++ [c] = x ++ y) (hy : y ≠ []) :
    ∃ y', y = y' ++ [c] ∧ u = x ++ y' := by
  rcases List.eq_nil_or_concat y with rfl | ⟨y', d, rfl⟩
  · exact absurd rfl hy
  · rw [List.concat_eq_append, ← List.append_assoc] at h
    obtain ⟨hu, hc⟩ := List.append_inj' h rfl
    cases hc
    exact ⟨y', List.concat_eq_append, hu⟩

theorem getLast?_of_suffix {c : Char} {l a : List Char} (h : l <:+ a) (hl : l.getLast? = some c) :
    a.getLast? = some c := by
  obtain ⟨x, rfl⟩ := h
  simp [List.getLast?_append, hl]

/-! ## A certain character -/

/-- A match that passes over a character for the first time begins where the parts before it fit. -/
theorem exists_fit {before after : Pattern} {l u v x y held ds : List Char} {c : Char}
    (hb : ∀ a, Accepts before a → c ∉ a) (hl : c ∉ l) (hu : c ∉ u) (hxy : u ++ [c] = x ++ y) (hy : y ≠ [])
    (h : matchHere held (before ++ .literal (l ++ [c]) :: after) (y ++ v) = some ds) :
    ∃ a held', Accepts before a ∧ y = a ++ l ++ [c] ∧ matchHere held' after v = some ds := by
  obtain ⟨a, rest, held', hr, ha, h₁⟩ := matchHere_append h
  obtain ⟨rest', rfl, h₂⟩ := matchHere_literal_eq_some h₁
  obtain ⟨y', rfl, rfl⟩ := eq_concat_of_suffix hxy hy
  have hy' : c ∉ y' := fun hm => hu (List.mem_append_right x hm)
  have hal : c ∉ a ++ l := by
    rw [List.mem_append, not_or]
    exact ⟨hb a ha, hl⟩
  obtain ⟨rfl, rfl⟩ := append_cons_inj_of_first hy' hal (by simpa using hr)
  exact ⟨a, held', ha, rfl, h₂⟩

/-- The text up to a character is passed over unless the parts before it fit and the parts after it match. -/
theorem search_past_char {p q : Pattern} {l u v : List Char} {c : Char}
    (hb : ∀ a, Accepts p a → c ∉ a) (hl : c ∉ l) (hu : c ∉ u)
    (hn : ∀ a held, Accepts p a → a ++ l <:+ u → matchHere held q v = none) :
    search (p ++ .literal (l ++ [c]) :: q) (u ++ c :: v) =
      search (p ++ .literal (l ++ [c]) :: q) v := by
  have h := search_append (p := p ++ .literal (l ++ [c]) :: q) (u := u ++ [c]) (v := v) fun x y hxy hy => by
    cases hm : matchHere [] (p ++ .literal (l ++ [c]) :: q) (y ++ v) with
    | none => rfl
    | some ds =>
      obtain ⟨a, held, ha, rfl, hv⟩ := exists_fit hb hl hu hxy hy hm
      rw [← List.append_assoc] at hxy
      have hs : a ++ l <:+ u := ⟨x, (List.append_cancel_right hxy).symm⟩
      rw [hn a held ha hs] at hv
      cases hv
  simpa using h

/-- The text before the parts that lead to a character is passed over. -/
theorem search_up_to_char {p q : Pattern} {l w a v : List Char} {c : Char}
    (hb : ∀ a, Accepts p a → c ∉ a) (hl : c ∉ l) (hu : c ∉ w ++ a ++ l)
    (hn : ∀ a', Accepts p a' → a' ++ l <:+ w ++ a ++ l → a' = a) :
    search (p ++ .literal (l ++ [c]) :: q) (w ++ (a ++ l ++ c :: v)) =
      search (p ++ .literal (l ++ [c]) :: q) (a ++ l ++ c :: v) := by
  refine search_append fun x y hxy hy => ?_
  cases hm : matchHere [] (p ++ .literal (l ++ [c]) :: q) (y ++ (a ++ l ++ c :: v)) with
  | none => rfl
  | some ds =>
    have hm' : matchHere [] (p ++ .literal (l ++ [c]) :: q) ((y ++ a ++ l ++ [c]) ++ v) = some ds := by
      simpa using hm
    obtain ⟨a', held, ha, he, _⟩ := exists_fit (x := x) hb hl hu (by simp [hxy]) (by simp) hm'
    have he' : y ++ a ++ l = a' ++ l := List.append_cancel_right he
    have hs : a' ++ l <:+ w ++ a ++ l := ⟨x, by rw [← he', hxy]; simp⟩
    have hya : y ++ a = a := by
      rw [List.append_cancel_right he', hn a' ha hs]
    simp only [List.append_left_eq_self] at hya
    exact absurd hya hy

/-- Nothing is found where the character does not occur. -/
theorem search_without_char {p q : Pattern} {l u : List Char} {c : Char} (hu : c ∉ u) :
    search (p ++ .literal (l ++ [c]) :: q) u = none := by
  refine search_eq_none fun x y hxy => ?_
  cases hm : matchHere [] (p ++ .literal (l ++ [c]) :: q) y with
  | none => rfl
  | some ds =>
    obtain ⟨a, rest, held', rfl, _, h⟩ := matchHere_append hm
    obtain ⟨rest', rfl, _⟩ := matchHere_literal_eq_some h
    exact absurd (by simp [hxy]) hu

/-! ## A number after a blank -/

/-- Whether no digit comes right after a blank. -/
def lacksNumber : List Char → Bool
  | a :: b :: r => !(Text.isBlank a && isDigit b) && lacksNumber (b :: r)
  | _ => true

theorem lacksNumber_append {a b : List Char} (ha : lacksNumber a = true) (hb : lacksNumber b = true)
    (h : (∀ c ∈ a.getLast?, Text.isBlank c = false) ∨ ∀ c ∈ b.head?, isDigit c = false) :
    lacksNumber (a ++ b) = true := by
  induction a with
  | nil => exact hb
  | cons c a ih =>
    cases a with
    | nil =>
      cases b with
      | nil => rfl
      | cons d b =>
        rcases h with h | h
        · have hc := h c rfl
          simp [lacksNumber, hc, hb]
        · have hd := h d rfl
          simp [lacksNumber, hd, hb]
    | cons d a =>
      simp only [lacksNumber, Bool.and_eq_true] at ha
      simp only [List.cons_append, lacksNumber, Bool.and_eq_true]
      exact ⟨ha.1, ih ha.2 (by simpa using h)⟩

theorem lacksNumber_of_not_blank {a : List Char} (h : ∀ c ∈ a, Text.isBlank c = false) : lacksNumber a = true := by
  induction a with
  | nil => rfl
  | cons c a ih =>
    cases a with
    | nil => rfl
    | cons d a => simp [lacksNumber, h c List.mem_cons_self, ih fun e he => h e (List.mem_cons_of_mem c he)]

theorem lacksNumber_elim {x y : List Char} {b d : Char} (h : lacksNumber (x ++ b :: d :: y) = true)
    (hb : Text.isBlank b = true) (hd : isDigit d = true) : False := by
  induction x with
  | nil => simp [lacksNumber, hb, hd] at h
  | cons c x ih =>
    cases x with
    | nil =>
      simp only [List.cons_append, List.nil_append, lacksNumber, Bool.and_eq_true] at h
      simp [hb, hd] at h
    | cons e x =>
      simp only [List.cons_append, lacksNumber, Bool.and_eq_true] at h
      exact ih h.2

/-- A number with a label in front. -/
def labelled (l : List Char) : Pattern :=
  [.literal l, .someBlanks, .digits]

theorem matchHere_labelled_eq_some {l input held ds : List Char} (h : matchHere held (labelled l) input = some ds) :
    ∃ b bs d r, input = l ++ b :: bs ++ d :: r ∧ (∀ c ∈ b :: bs, Text.isBlank c = true) ∧ isDigit d = true := by
  obtain ⟨a, r, held', rfl, ⟨_, _, rfl, rfl, bs, _, rfl, ⟨hne, hb⟩, rfl⟩, h'⟩ :=
    matchHere_append (p := [.literal l, .someBlanks]) h
  obtain ⟨x, y, rfl, hx, hd, _⟩ := capture_eq_some h'
  cases bs with
  | nil => exact absurd rfl hne
  | cons b bs =>
    cases x with
    | nil => exact absurd rfl hx
    | cons d x => exact ⟨b, bs, d, x ++ y, by simp, hb, hd d List.mem_cons_self⟩

/-- Blanks and a digit make a number after a blank. -/
theorem lacksNumber_blanks {x bs y : List Char} {b d : Char} (h : lacksNumber (x ++ b :: bs ++ d :: y) = true)
    (hbs : ∀ c ∈ b :: bs, Text.isBlank c = true) (hd : isDigit d = true) : False := by
  rcases List.eq_nil_or_concat bs with rfl | ⟨bs', e, rfl⟩
  · exact lacksNumber_elim (x := x) (y := y) (by simpa using h) (hbs b List.mem_cons_self) hd
  · rw [List.concat_eq_append] at h hbs
    exact lacksNumber_elim (x := x ++ b :: bs') (y := y) (by simpa using h) (hbs e (by simp)) hd

/-- Before the first number after a blank, a match can only begin with a label right in front of that blank. -/
theorem eq_label {l u v x y held ds : List Char} {b : Char} (hl : ∀ c ∈ l, Text.isBlank c = false)
    (hb : Text.isBlank b = true) (hu : lacksNumber u = true) (hlast : ∀ c ∈ u.getLast?, Text.isBlank c = false)
    (hxy : u ++ [b] = x ++ y) (hy : y ≠ []) (h : matchHere held (labelled l) (y ++ v) = some ds) : y = l ++ [b] := by
  obtain ⟨b₀, bs, d, r, he, hbs, hd⟩ := matchHere_labelled_eq_some h
  obtain ⟨y', rfl, rfl⟩ := eq_concat_of_suffix hxy hy
  rw [List.append_assoc, List.append_assoc] at he
  rcases List.append_eq_append_iff.mp he with ⟨z, rfl, hz⟩ | ⟨z, rfl, hz⟩
  · -- the blank would be a part of the label, or come right after it
    cases z with
    | nil => simp
    | cons c z =>
      simp only [List.cons_append, List.cons.injEq] at hz
      have hc := hl c (by simp)
      rw [← hz.1, hb] at hc
      cases hc
  · -- the blank would come after other blanks, or after a number
    cases z with
    | nil => simp
    | cons c z =>
      have hblank : ¬∀ e ∈ c :: z, Text.isBlank e = true := by
        intro hall
        obtain ⟨e, he⟩ : ∃ e, (c :: z).getLast? = some e := ⟨_, List.getLast?_eq_some_getLast (by simp)⟩
        have hmem : e ∈ c :: z := List.mem_of_getLast? he
        have hlast' := hlast e (by simp [List.getLast?_append, he])
        rw [hall e hmem] at hlast'
        cases hlast'
      simp only [List.cons_append, List.cons.injEq] at hz
      obtain ⟨rfl, hz⟩ := hz
      rcases List.append_eq_append_iff.mp hz with ⟨w, rfl, hw⟩ | ⟨w, rfl, hw⟩
      · cases w with
        | nil => exact absurd (by simpa using hbs) hblank
        | cons e w =>
          simp only [List.cons_append, List.cons.injEq] at hw
          obtain ⟨rfl, _⟩ := hw
          exact (lacksNumber_blanks (x := x ++ l) (y := w) (by simpa using hu) hbs hd).elim
      · refine absurd (fun e he => hbs e ?_) hblank
        rcases List.mem_cons.mp he with rfl | he
        · exact List.mem_cons_self
        · exact List.mem_cons_of_mem _ (List.mem_append_left w he)

/-- A number whose label is another one is passed over. -/
theorem search_past_number {l u v : List Char} {b : Char} (hl : ∀ c ∈ l, Text.isBlank c = false)
    (hb : Text.isBlank b = true) (hu : lacksNumber u = true) (hlast : ∀ c ∈ u.getLast?, Text.isBlank c = false)
    (hn : ¬l <:+ u) : search (labelled l) (u ++ b :: v) = search (labelled l) v := by
  have h := search_append (p := labelled l) (u := u ++ [b]) (v := v) fun x y hxy hy => by
    cases hm : matchHere [] (labelled l) (y ++ v) with
    | none => rfl
    | some ds =>
      have hlab := eq_label hl hb hu hlast hxy hy hm
      rw [hlab, ← List.append_assoc] at hxy
      exact absurd ⟨x, (List.append_cancel_right hxy).symm⟩ hn
  simpa using h

/-- The first number with a label is found. -/
theorem search_labelled {l w n rest : List Char} {b : Char} (hl : ∀ c ∈ l, Text.isBlank c = false)
    (hb : Text.isBlank b = true) (hu : lacksNumber (w ++ l) = true)
    (hlast : ∀ c ∈ (w ++ l).getLast?, Text.isBlank c = false) (hn : n ≠ []) (hd : ∀ c ∈ n, isDigit c = true)
    (hr : ∀ c ∈ rest.head?, isDigit c = false) : search (labelled l) (w ++ l ++ b :: (n ++ rest)) = some n := by
  have h : search (labelled l) (w ++ (l ++ b :: (n ++ rest))) = search (labelled l) (l ++ b :: (n ++ rest)) := by
    refine search_append fun x y hxy hy => ?_
    cases hm : matchHere [] (labelled l) (y ++ (l ++ b :: (n ++ rest))) with
    | none => rfl
    | some ds =>
      have hm' : matchHere [] (labelled l) ((y ++ l ++ [b]) ++ (n ++ rest)) = some ds := by simpa using hm
      have he := eq_label (x := x) hl hb hu hlast (by simp [hxy]) (by simp) hm'
      have he' := List.append_cancel_right he
      simp only [List.append_left_eq_self] at he'
      exact absurd he' hy
  rw [List.append_assoc, h]
  have hdig : matchHere [] [.digits] (n ++ rest) = some n.reverse := matchHere_digits hn hd hr rfl
  have hmb : matchHere [] (.someBlanks :: [.digits]) ([b] ++ (n ++ rest)) = some n.reverse :=
    matchHere_someBlanks (by simpa using hb) (notBlank_head_of_digits hn hd rest) hdig
  have hm : matchHere [] (labelled l) (l ++ b :: (n ++ rest)) = some n.reverse := by
    rw [labelled, matchHere_literal]
    exact hmb
  rw [search_of_matchHere hm, List.reverse_reverse]

theorem search_labelled_none {l u : List Char} (hu : lacksNumber u = true) : search (labelled l) u = none := by
  refine search_eq_none fun x y hxy => ?_
  cases hm : matchHere [] (labelled l) y with
  | none => rfl
  | some ds =>
    obtain ⟨b, bs, d, r, rfl, hbs, hd⟩ := matchHere_labelled_eq_some hm
    exact (lacksNumber_blanks (x := x ++ l) (y := r) (by simpa [hxy] using hu) hbs hd).elim

/-! ## A word -/

theorem not_infix_append {l a b : List Char} (ha : ¬l <:+: a) (hb : ¬l <:+: b)
    (h : (∀ c ∈ a.getLast?, c ∉ l) ∨ ∀ c ∈ b.head?, c ∉ l) : ¬l <:+: a ++ b := by
  rintro ⟨x, y, he⟩
  rw [List.append_assoc] at he
  rcases List.append_eq_append_iff.mp he with ⟨z, rfl, hz⟩ | ⟨z, rfl, hz⟩
  · rcases List.append_eq_append_iff.mp hz with ⟨w, rfl, _⟩ | ⟨w, rfl, rfl⟩
    · exact ha ⟨x, w, by simp⟩
    · -- the word begins in the first text and ends in the second
      cases z with
      | nil => exact hb ⟨[], y, by simp⟩
      | cons c z =>
        cases w with
        | nil => exact ha ⟨x, [], by simp⟩
        | cons d w =>
          rcases h with h | h
          · obtain ⟨e, hlast⟩ : ∃ e, (c :: z).getLast? = some e := ⟨_, List.getLast?_eq_some_getLast (by simp)⟩
            exact h e (by simp [List.getLast?_append, hlast]) (List.mem_append_left _ (List.mem_of_getLast? hlast))
          · exact h d rfl (by simp)
  · exact hb ⟨z, y, by rw [List.append_assoc, hz]⟩

/-- The text in front of the first place of a word is passed over. -/
theorem search_up_to_word {l u v : List Char} {p : Pattern} (hu : ¬l <:+: u) (hlast : ∀ c ∈ u.getLast?, c ∉ l) :
    search (.literal l :: p) (u ++ v) = search (.literal l :: p) v := by
  refine search_append fun x y hxy hy => ?_
  cases hm : matchHere [] (.literal l :: p) (y ++ v) with
  | none => rfl
  | some ds =>
    obtain ⟨rest, he, _⟩ := matchHere_literal_eq_some hm
    rcases List.append_eq_append_iff.mp he with ⟨z, rfl, _⟩ | ⟨z, rfl, _⟩
    · obtain ⟨e, hy'⟩ : ∃ e, y.getLast? = some e := ⟨_, List.getLast?_eq_some_getLast hy⟩
      have hmem : e ∈ y := List.mem_of_getLast? hy'
      exact absurd (List.mem_append_left z hmem) (hlast e (by simp [hxy, List.getLast?_append, hy']))
    · exact absurd ⟨x, z, by rw [hxy, List.append_assoc]⟩ hu

/-! ## The end of a text -/

section TextEnd

variable {α : Type} {c : Char}

theorem giveBack_concat {rest : List Char → Option α} (h : ∀ s, rest (s ++ [c]) = rest s) (passed s : List Char) :
    giveBack rest passed (s ++ [c]) = giveBack rest passed s := by
  induction passed generalizing s with
  | nil => exact h s
  | cons d passed ih =>
    have hs := ih (d :: s)
    rw [List.cons_append] at hs
    rw [giveBack, giveBack, h s, hs]

theorem many_concat {p : Char → Bool} {rest : List Char → Option α} (h : ∀ s, rest (s ++ [c]) = rest s)
    (hnil : rest [] = none) (s : List Char) : many p rest (s ++ [c]) = many p rest s := by
  obtain ⟨run, after, rfl, hr, ha⟩ := exists_run p s
  rw [many, many, List.append_assoc, takeRun_append hr, takeRun_append hr, List.append_nil, takeRun_stop ha]
  cases after with
  | nil =>
    -- if the run goes on with the last character, this is given back at once
    have hback := giveBack_concat h run.reverse []
    cases hc : p c <;> simpa [takeRun, hc, giveBack, hnil] using hback
  | cons d after =>
    rw [takeRun_stop (by simpa using ha)]
    exact giveBack_concat h _ _

theorem giveBackTo1_concat {rest : List Char → List Char → Option α} (h : ∀ kept s, rest kept (s ++ [c]) = rest kept s)
    (passed s : List Char) : giveBackTo1 rest passed (s ++ [c]) = giveBackTo1 rest passed s := by
  induction passed generalizing s with
  | nil => rfl
  | cons d passed ih =>
    have hs := ih (d :: s)
    rw [List.cons_append] at hs
    rw [giveBackTo1, giveBackTo1, h _ s, hs]

theorem capture_concat {rest : List Char → List Char → Option α} (h : ∀ kept s, rest kept (s ++ [c]) = rest kept s)
    (hc : isDigit c = false) (s : List Char) : capture rest (s ++ [c]) = capture rest s := by
  obtain ⟨run, after, rfl, hr, ha⟩ := exists_run isDigit s
  have hstop : ∀ d ∈ (after ++ [c]).head?, isDigit d = false := by
    cases after with
    | nil => simpa using hc
    | cons d after => exact ha
  rw [capture, capture, List.append_assoc, takeRun_append hr, takeRun_append hr, List.append_nil, takeRun_stop ha,
    takeRun_stop hstop]
  exact giveBackTo1_concat h _ _

/-- A line end after the text does not change what is matched, since the digits come last. -/
theorem matchHere_concat_lineEnd {ps : Pattern} (h : ps.getLast? = some .digits) (held s : List Char) :
    matchHere held ps (s ++ ['\n']) = matchHere held ps s := by
  induction ps generalizing held s with
  | nil => cases h
  | cons part ps ih =>
    cases ps with
    | nil =>
      rw [List.getLast?_singleton, Option.some.injEq] at h
      subst h
      exact capture_concat (fun _ _ => rfl) (by decide) s
    | cons part' ps =>
      rw [List.getLast?_cons_cons] at h
      have hnil : ∀ held, matchHere held (part' :: ps) [] = none := fun _ => matchHere_nil (List.mem_of_getLast? h)
      have hrest := ih h
      cases part with
      | literal cs =>
        refine Option.ext fun ds => ⟨fun hm => ?_, fun hm => ?_⟩
        · obtain ⟨r, hr, hm'⟩ := matchHere_literal_eq_some hm
          have hne : r ≠ [] := by
            rintro rfl
            rw [hnil] at hm'
            cases hm'
          obtain ⟨r', rfl, rfl⟩ := eq_concat_of_suffix hr hne
          rwa [matchHere_literal, ← hrest]
        · obtain ⟨r, rfl, hm'⟩ := matchHere_literal_eq_some hm
          rwa [List.append_assoc, matchHere_literal, hrest]
      | blanks => exact many_concat (hrest held) (hnil held) s
      | someBlanks =>
        cases s with
        | nil => simp [matchHere, many1, many, takeRun, giveBack, hnil]
        | cons d s =>
          rw [List.cons_append, matchHere, matchHere, many1, many1, many_concat (hrest held) (hnil held) s]
      | restOfLine => exact many_concat (hrest held) (hnil held) s
      | wordEnd =>
        rw [matchHere, matchHere, hrest]
        cases s with
        | nil => simp [hnil]
        | cons d s => rfl
      | digits => exact capture_concat (fun kept s => hrest kept s) (by decide) s

theorem search_concat_lineEnd {ps : Pattern} (h : ps.getLast? = some .digits) (s : List Char) :
    search ps (s ++ ['\n']) = search ps s := by
  induction s with
  | nil =>
    have hm := matchHere_concat_lineEnd h [] []
    rw [matchHere_nil (List.mem_of_getLast? h), List.nil_append] at hm
    simp [search, hm, matchHere_nil (List.mem_of_getLast? h)]
  | cons c s ih =>
    have hm := matchHere_concat_lineEnd h [] (c :: s)
    rw [List.cons_append] at hm ⊢
    rw [search, search, hm, ih]

end TextEnd

end MachineBundle.Scan
