import MachineBundle.Binding
import MachineBundle.Proofs.Scan.Anchor

/-!
# Targets as defaults of parameters

In Objective-C++ the target of a transition is the default of a parameter. The match begins in the line of the
parameter, since only one blank stretch of it may go beyond a line, right before the equals sign.
-/

namespace MachineBundle.Scan

/-- The name of the class of a transition. -/
def className (k : Nat) : List Char :=
  ("Transition_" ++ toString k).toList

/-- The parts up to the name of the parameter. -/
def parameterParts : Pattern :=
  [.restOfLine, .literal "int".toList, .restOfLine, .literal "toState".toList]

theorem targetPattern_eq (k : Nat) :
    Binding.targetPattern k .objectiveCpp =
      .literal (className k) :: .wordEnd :: (parameterParts ++ [.blanks, .literal ['='], .blanks, .digits]) := rfl

/-- What a match passes over between the name of the class and the equals sign. -/
structure Fits (k : Nat) (a bs : List Char) : Prop where
  ne : a ≠ []
  sameLine : '\n' ∉ a
  wordEnds : ∀ c ∈ a.head?, Text.isWordChar c = false
  parameter : "toState".toList <:+ a
  blank : ∀ c ∈ bs, Text.isBlank c = true

theorem exists_target {k : Nat} {held input ds : List Char}
    (h : matchHere held (Binding.targetPattern k .objectiveCpp) input = some ds) :
    ∃ a bs z, input = className k ++ a ++ bs ++ '=' :: z ∧ Fits k a bs := by
  rw [targetPattern_eq] at h
  obtain ⟨rest, rfl, h₁⟩ := matchHere_literal_eq_some h
  rw [matchHere] at h₁
  split at h₁
  · cases h₁
  · rename_i hw
    obtain ⟨a, r, held', rfl, ⟨y₁, _, rfl, hn₁, _, _, rfl, rfl, y₂, _, rfl, hn₂, _, _, rfl, rfl, rfl⟩, h₃⟩ :=
      matchHere_append h₁
    obtain ⟨_, r', held'', rfl, ⟨bs, _, rfl, hb, rfl⟩, h₄⟩ :=
      matchHere_append (p := [.blanks]) (q := [.literal ['='], .blanks, .digits]) h₃
    obtain ⟨z, rfl, _⟩ := matchHere_literal_eq_some h₄
    refine ⟨y₁ ++ "int".toList ++ y₂ ++ "toState".toList, _, z, by simp, ⟨?_, ?_, ?_, ?_, hb⟩⟩
    · simp
    · have hn₁ : '\n' ∉ y₁ := hn₁
      have hn₂ : '\n' ∉ y₂ := hn₂
      simp [hn₁, hn₂]
    · intro c hc
      have hc' : (y₁ ++ ("int".toList ++ (y₂ ++ ("toState".toList ++ []))) ++ (bs ++ [] ++ (['='] ++ z))).head? =
          some c := by
        cases y₁ <;> simpa using hc
      rw [hc'] at hw
      simpa using hw
    · exact List.suffix_append _ _

/-! ## The place of the equals sign -/

/-- The part of a line after an equals sign neither goes on with another one nor ends like the name of the
parameter. -/
structure Closes (g : List Char) : Prop where
  noEquals : '=' ∉ g
  last : ∀ c ∈ g.getLast?, Text.isBlank c = false ∧ c ≠ 'e'

theorem Fits.last {k : Nat} {a bs : List Char} (h : Fits k a bs) : a.getLast? = some 'e' :=
  getLast?_of_suffix h.parameter rfl

theorem className_noEquals (k : Nat) : '=' ∉ className k := by
  have hk : '=' ∉ (toString k).toList := Text.PlainText.not_mem (.ofNat k) (by decide)
  rw [className, String.toList_append, List.mem_append, not_or]
  exact ⟨by simp, hk⟩

theorem className_sameLine (k : Nat) : '\n' ∉ className k := by
  have hk : '\n' ∉ (toString k).toList := Text.PlainText.not_mem (.ofNat k) (by decide)
  rw [className, String.toList_append, List.mem_append, not_or]
  exact ⟨by simp, hk⟩

/-- No line that ends otherwise than the name of the parameter leads to an equals sign further down. -/
theorem Closes.not_past {g rest a bs z : List Char} (hg : Closes g) (ha : '\n' ∉ a) (hlast : a.getLast? = some 'e')
    (hb : ∀ c ∈ bs, Text.isBlank c = true) : g ++ '\n' :: rest ≠ a ++ (bs ++ '=' :: z) := by
  intro he
  rcases List.append_eq_append_iff.mp he with ⟨w, rfl, hw⟩ | ⟨w, rfl, hw⟩
  · cases w with
    | nil => exact (hg.last 'e' (by simpa using hlast)).2 rfl
    | cons c w =>
      simp only [List.cons_append, List.cons.injEq] at hw
      exact ha (by simp [← hw.1])
  · rcases List.append_eq_append_iff.mp hw with ⟨v, rfl, hv⟩ | ⟨v, hv, hr⟩
    · cases v with
      | nil =>
        simp at hv
      | cons c v =>
        simp only [List.cons_append, List.cons.injEq] at hv
        obtain ⟨rfl, _⟩ := hv
        exact hg.noEquals (by simp)
    · cases hwl : w.getLast? with
      | none =>
        rw [List.getLast?_eq_none_iff] at hwl
        subst hwl
        exact (hg.last 'e' (by simpa using hlast)).2 rfl
      | some c =>
        have hc := (hg.last c (by simp [List.getLast?_append, hwl])).1
        rw [hb c (by rw [hv]; exact List.mem_append_left _ (List.mem_of_getLast? hwl))] at hc
        cases hc

/-- A stretch of a line and blanks in front of an equals sign go up to the first one. -/
theorem eq_before_equals {u g r a bs z : List Char} (hu : '=' ∉ u) (hg : Closes g) (ha : '\n' ∉ a)
    (hlast : a.getLast? = some 'e') (hb : ∀ c ∈ bs, Text.isBlank c = true)
    (h : u ++ '=' :: (g ++ '\n' :: r) = a ++ bs ++ '=' :: z) : u = a ++ bs := by
  have hbs : '=' ∉ bs := fun hm => absurd (hb _ hm) (by decide)
  by_cases hm : '=' ∈ a
  · obtain ⟨a₁, a₂, rfl, ha₁⟩ := List.eq_append_cons_of_mem hm
    have h' : u ++ '=' :: (g ++ '\n' :: r) = a₁ ++ '=' :: (a₂ ++ (bs ++ '=' :: z)) := by simpa using h
    obtain ⟨_, hrest⟩ := append_cons_inj_of_first hu ha₁ h'
    have hline : '\n' ∉ a₂ := fun hm => ha (by simp [hm])
    cases a₂ with
    | nil => simp at hlast
    | cons c a₂ =>
      have hlast' : (c :: a₂).getLast? = some 'e' := by simpa [List.getLast?_append] using hlast
      exact absurd hrest (hg.not_past hline hlast' hb)
  · have hab : '=' ∉ a ++ bs := by
      rw [List.mem_append, not_or]
      exact ⟨hm, hbs⟩
    exact (append_cons_inj_of_first hu hab h).1

/-- A match that begins in front of an equals sign leads to it. -/
theorem exists_fits {k : Nat} {u g r x y ds : List Char} (hu : '=' ∉ u) (hg : Closes g)
    (hxy : u ++ ['='] = x ++ y) (hy : y ≠ [])
    (h : matchHere [] (Binding.targetPattern k .objectiveCpp) (y ++ (g ++ '\n' :: r)) = some ds) :
    ∃ a bs, y = className k ++ a ++ bs ++ ['='] ∧ Fits k a bs := by
  obtain ⟨a, bs, z, he, hf⟩ := exists_target h
  obtain ⟨y', rfl, rfl⟩ := eq_concat_of_suffix hxy hy
  have hy' : '=' ∉ y' := fun hm => hu (List.mem_append_right x hm)
  have hline : '\n' ∉ className k ++ a := by
    rw [List.mem_append, not_or]
    exact ⟨className_sameLine k, hf.sameLine⟩
  have hlast : (className k ++ a).getLast? = some 'e' := by rw [List.getLast?_append, hf.last]; rfl
  have hu' := eq_before_equals hy' hg hline hlast hf.blank (by simpa using he)
  exact ⟨a, bs, by rw [hu'], hf⟩

/-- The text up to an equals sign is passed over unless a class and its parameter come right before it. -/
theorem search_past_equals {k : Nat} {u g r : List Char} (hu : '=' ∉ u) (hg : Closes g)
    (hn : ∀ a bs, Fits k a bs → ¬className k ++ a ++ bs <:+ u) :
    search (Binding.targetPattern k .objectiveCpp) (u ++ '=' :: (g ++ '\n' :: r)) =
      search (Binding.targetPattern k .objectiveCpp) (g ++ '\n' :: r) := by
  have h := search_append (p := Binding.targetPattern k .objectiveCpp) (u := u ++ ['=']) (v := g ++ '\n' :: r)
    fun x y hxy hy => by
      cases hm : matchHere [] (Binding.targetPattern k .objectiveCpp) (y ++ (g ++ '\n' :: r)) with
      | none => rfl
      | some ds =>
        obtain ⟨a, bs, rfl, hf⟩ := exists_fits hu hg hxy hy hm
        rw [← List.append_assoc] at hxy
        exact absurd ⟨x, (List.append_cancel_right hxy).symm⟩ (hn a bs hf)
  simpa using h

/-! ## The line of a parameter -/

/-- A parameter with a default, up to the equals sign. -/
def parameterStart (j : Nat) : List Char :=
  className j ++ "(int toState".toList

theorem isDigit_of_not_wordChar {c : Char} (h : Text.isWordChar c = false) : isDigit c = false := by
  cases hd : isDigit c with
  | false => rfl
  | true =>
    rw [Text.isWordChar_of_isPlain (Text.isPlain_of_isDigit hd)] at h
    cases h

theorem className_append_inj {j k : Nat} {a b : List Char} (ha : ∀ c ∈ a.head?, Text.isWordChar c = false)
    (hb : ∀ c ∈ b.head?, Text.isWordChar c = false) (h : className j ++ a = className k ++ b) : j = k := by
  unfold className at h
  rw [String.toList_append, String.toList_append, List.append_assoc, List.append_assoc] at h
  exact toString_append_inj (fun c hc => isDigit_of_not_wordChar (ha c hc))
    (fun c hc => isDigit_of_not_wordChar (hb c hc)) (List.append_cancel_left h)

theorem className_eq (k : Nat) : className k = 'T' :: ("ransition_" ++ toString k).toList := by
  simp [className]

/-- Only the class in the line of a parameter comes right before its equals sign. -/
theorem eq_of_fits_parameter {j k : Nat} {w sp x a bs : List Char} (hf : Fits k a bs) (hsp : 'T' ∉ sp)
    (h : w ++ '\n' :: (sp ++ parameterStart j ++ [' ']) = x ++ (className k ++ a ++ bs)) :
    x = w ++ '\n' :: sp ∧ j = k := by
  have hlast : (parameterStart j).getLast? = some 'e' := getLast?_of_suffix (List.suffix_append _ _) rfl
  -- the blank at the end is all that comes after the parameter
  have h₁ : w ++ '\n' :: (sp ++ parameterStart j) = x ++ (className k ++ a) := by
    have hw : (w ++ '\n' :: (sp ++ parameterStart j)).getLast? = some 'e' := by
      simp [List.getLast?_append, List.getLast?_cons, hlast]
    have hx : (x ++ (className k ++ a)).getLast? = some 'e' := by
      simp [List.getLast?_append, hf.last]
    have he : Text.isBlank 'e' = false := by decide
    refine (append_blanks_inj (s := [' ']) (t := bs) ?_ ?_ (by decide) hf.blank (by simpa using h)).1
    · simpa [hw] using he
    · simpa only [hx, Option.mem_def, Option.some.injEq, forall_eq'] using he
  -- and the class begins in the same line
  have hline : '\n' ∉ className k ++ a := by
    rw [List.mem_append, not_or]
    exact ⟨className_sameLine k, hf.sameLine⟩
  obtain ⟨z, rfl, hz⟩ : ∃ z, x = w ++ '\n' :: z ∧ sp ++ parameterStart j = z ++ (className k ++ a) := by
    rcases List.append_eq_append_iff.mp h₁ with ⟨z, rfl, hz⟩ | ⟨z, rfl, hz⟩
    · cases z with
      | nil =>
        rw [List.nil_append] at hz
        exact absurd (by rw [← hz]; simp) hline
      | cons c z =>
        simp only [List.cons_append, List.cons.injEq] at hz
        exact ⟨z, by rw [hz.1], hz.2⟩
    · exact absurd (by rw [hz]; simp) hline
  have hT : 'T' ∉ ("ransition_" ++ toString j).toList ++ "(int toState".toList := by
    have hj : 'T' ∉ (toString j).toList := fun hm => absurd (Text.isDigit_of_mem_toString hm) (by decide)
    rw [String.toList_append, List.mem_append, List.mem_append, not_or, not_or]
    exact ⟨⟨by simp, hj⟩, by simp⟩
  have hz' : sp ++ 'T' :: (("ransition_" ++ toString j).toList ++ "(int toState".toList) =
      z ++ 'T' :: (("ransition_" ++ toString k).toList ++ a) := by
    simpa only [parameterStart, className_eq, List.cons_append] using hz
  obtain ⟨rfl, _, hr⟩ := (List.append_cons_inj_of_notMem hsp hT).mp hz'
  have hc : className j ++ "(int toState".toList = className k ++ a := by
    rw [className_eq, className_eq, List.cons_append, List.cons_append, hr]
  have hp : ∀ c ∈ ("(int toState".toList).head?, Text.isWordChar c = false := by
    intro c hc
    simp only [String.reduceToList, List.head?_cons, Option.mem_def, Option.some.injEq] at hc
    subst hc
    decide
  exact ⟨rfl, className_append_inj hp hf.wordEnds hc⟩

/-- The parts after the name of the parameter. -/
def defaultParts : Pattern :=
  [.blanks, .literal ['='], .blanks, .digits]

theorem exists_default {held input ds : List Char}
    (h : matchHere held (.literal "toState".toList :: defaultParts) input = some ds) :
    ∃ bs z, input = "toState".toList ++ bs ++ '=' :: z ∧ ∀ c ∈ bs, Text.isBlank c = true := by
  obtain ⟨_, r, held', rfl, ⟨_, _, rfl, rfl, bs, _, rfl, hb, rfl⟩, h₁⟩ :=
    matchHere_append (p := [.literal "toState".toList, .blanks]) (q := [.literal ['='], .blanks, .digits]) h
  obtain ⟨z, rfl, _⟩ := matchHere_literal_eq_some h₁
  exact ⟨bs, z, by simp, hb⟩

theorem exists_typed_default {held input ds : List Char}
    (h : matchHere held (.literal "int".toList :: .restOfLine :: .literal "toState".toList :: defaultParts) input =
      some ds) :
    ∃ a bs z, input = "int".toList ++ a ++ "toState".toList ++ bs ++ '=' :: z ∧ '\n' ∉ a ∧
      ∀ c ∈ bs, Text.isBlank c = true := by
  obtain ⟨_, r, held', rfl, ⟨_, _, rfl, rfl, a, _, rfl, ha, rfl⟩, h₁⟩ :=
    matchHere_append (p := [.literal "int".toList, .restOfLine]) (q := .literal "toState".toList :: defaultParts) h
  obtain ⟨bs, z, rfl, hb⟩ := exists_default h₁
  exact ⟨a, bs, z, by simp, ha, hb⟩

theorem getLast?_parameterName (v : List Char) : (v ++ "toState".toList).getLast? = some 'e' :=
  getLast?_of_suffix (List.suffix_append _ _) rfl

/-- A number as the default of a parameter, with the rest of its line and the lines below. -/
def defaultText (n g r : List Char) : List Char :=
  ' ' :: '=' :: ' ' :: (n ++ (g ++ '\n' :: r))

theorem matchHere_default {n g r : List Char} (hn : n ≠ []) (hd : ∀ c ∈ n, isDigit c = true)
    (hg : ∀ c ∈ g.head?, isDigit c = false) (hne : g ≠ []) :
    matchHere [] (.literal "toState".toList :: defaultParts) ("toState".toList ++ defaultText n g r) =
      some n.reverse := by
  have hhead : ∀ c ∈ (g ++ '\n' :: r).head?, isDigit c = false := by
    cases g with
    | nil => exact absurd rfl hne
    | cons c g => exact hg
  have hblank : ∀ c ∈ [' '], Text.isBlank c = true := by decide
  have hequals : matchHere [] [.literal ['='], .blanks, .digits] (['='] ++ ([' '] ++ (n ++ (g ++ '\n' :: r)))) =
      some n.reverse := by
    rw [matchHere_literal]
    exact matchHere_number hblank hn hd hhead rfl
  rw [matchHere_literal]
  exact matchHere_blanks hblank (by simp; decide) hequals

/-- The name of the parameter occurs once before the equals sign. -/
theorem no_later_name {n g r v w : List Char} (hc : Closes (' ' :: (n ++ g)))
    (h : "toState".toList ++ defaultText n g r = v ++ w) (hv : v ≠ []) (hline : '\n' ∉ v) :
    matchHere [] (.literal "toState".toList :: defaultParts) w = none := by
  cases hm : matchHere [] (.literal "toState".toList :: defaultParts) w with
  | none => rfl
  | some ds =>
    obtain ⟨bs, z, rfl, hb⟩ := exists_default hm
    have he := eq_before_equals (u := "toState ".toList) (a := v ++ "toState".toList) (by simp) hc (by simp [hline])
      (getLast?_parameterName v) hb (z := z) (r := r) (by simpa [defaultText] using h)
    cases v with
    | nil => exact absurd rfl hv
    | cons c v =>
      cases bs with
      | nil =>
        have hlast := congrArg List.getLast? he
        rw [List.append_nil, getLast?_parameterName] at hlast
        simp at hlast
      | cons b bs =>
        have hlength := congrArg List.length he
        simp at hlength
        omega

theorem matchHere_typed_default {n g r : List Char} (hn : n ≠ []) (hd : ∀ c ∈ n, isDigit c = true)
    (hg : ∀ c ∈ g.head?, isDigit c = false) (hne : g ≠ []) (hc : Closes (' ' :: (n ++ g))) :
    matchHere [] (.literal "int".toList :: .restOfLine :: .literal "toState".toList :: defaultParts)
      ("int".toList ++ ([' '] ++ ("toState".toList ++ defaultText n g r))) = some n.reverse := by
  rw [matchHere_literal]
  exact matchHere_restOfLine (by decide) (matchHere_default hn hd hg hne) fun v w => no_later_name hc

/-- And so does its type. -/
theorem no_later_type {n g r v w : List Char} (hc : Closes (' ' :: (n ++ g)))
    (h : "int".toList ++ ([' '] ++ ("toState".toList ++ defaultText n g r)) = v ++ w) (hv : v ≠ []) (hline : '\n' ∉ v) :
    matchHere [] (.literal "int".toList :: .restOfLine :: .literal "toState".toList :: defaultParts) w = none := by
  cases hm : matchHere [] (.literal "int".toList :: .restOfLine :: .literal "toState".toList :: defaultParts) w with
  | none => rfl
  | some ds =>
    obtain ⟨a, bs, z, rfl, ha, hb⟩ := exists_typed_default hm
    have he := eq_before_equals (u := "int toState ".toList) (a := v ++ "int".toList ++ a ++ "toState".toList)
      (by simp) hc (by simp [hline, ha]) (getLast?_parameterName _) hb (z := z) (r := r)
      (by simpa [defaultText] using h)
    cases v with
    | nil => exact absurd rfl hv
    | cons c v =>
      have htail : "nt toState ".toList = v ++ "int".toList ++ a ++ "toState".toList ++ bs := by
        simpa using congrArg List.tail he
      have hmem : 'i' ∈ "nt toState ".toList := by
        rw [htail]
        simp
      simp at hmem

/-- A parameter with a default is matched, up to its number. -/
theorem matchHere_parameter {k : Nat} {n g r : List Char} (hn : n ≠ []) (hd : ∀ c ∈ n, isDigit c = true)
    (hg : ∀ c ∈ g.head?, isDigit c = false) (hne : g ≠ []) (hc : Closes (' ' :: (n ++ g))) :
    matchHere [] (Binding.targetPattern k .objectiveCpp)
      (parameterStart k ++ ' ' :: '=' :: ' ' :: (n ++ g) ++ '\n' :: r) = some n.reverse := by
  have hinput : parameterStart k ++ ' ' :: '=' :: ' ' :: (n ++ g) ++ '\n' :: r =
      className k ++ (['('] ++ ("int".toList ++ ([' '] ++ ("toState".toList ++ defaultText n g r)))) := by
    simp [parameterStart, defaultText]
  rw [hinput, targetPattern_eq, matchHere_literal, matchHere]
  exact matchHere_restOfLine (by decide) (matchHere_typed_default hn hd hg hne hc) fun v w => no_later_type hc

theorem parameterStart_noEquals (k : Nat) : '=' ∉ parameterStart k := by
  rw [parameterStart, List.mem_append, not_or]
  exact ⟨className_noEquals k, by simp⟩

/-- The first parameter of a class with the number of the pattern is found. -/
theorem search_parameter {k : Nat} {w s n g r : List Char} (hw : '=' ∉ w) (hsp : '=' ∉ s) (hT : 'T' ∉ s)
    (hn : n ≠ []) (hd : ∀ c ∈ n, isDigit c = true) (hg : ∀ c ∈ g.head?, isDigit c = false) (hne : g ≠ [])
    (hc : Closes (' ' :: (n ++ g))) :
    search (Binding.targetPattern k .objectiveCpp)
      (w ++ '\n' :: (s ++ (parameterStart k ++ ' ' :: '=' :: ' ' :: (n ++ g) ++ '\n' :: r))) = some n := by
  have hmatch := matchHere_parameter (k := k) (r := r) hn hd hg hne hc
  have hu : '=' ∉ w ++ '\n' :: (s ++ parameterStart k ++ [' ']) := by
    simp [hw, hsp, parameterStart_noEquals]
  have h := search_append (p := Binding.targetPattern k .objectiveCpp) (u := w ++ '\n' :: s)
    (v := parameterStart k ++ ' ' :: '=' :: ' ' :: (n ++ g) ++ '\n' :: r) fun x y hxy hy => by
      cases hm : matchHere [] (Binding.targetPattern k .objectiveCpp)
          (y ++ (parameterStart k ++ ' ' :: '=' :: ' ' :: (n ++ g) ++ '\n' :: r)) with
      | none => rfl
      | some ds =>
        have hx : (w ++ '\n' :: (s ++ parameterStart k ++ [' '])) ++ ['='] =
            x ++ (y ++ parameterStart k ++ [' ', '=']) := by
          have hxy' : w ++ '\n' :: (s ++ parameterStart k ++ [' ']) ++ ['='] =
              (w ++ '\n' :: s) ++ (parameterStart k ++ [' ', '=']) := by simp
          rw [hxy', hxy]
          simp
        obtain ⟨a, bs, he, hf⟩ := exists_fits hu hc (y := y ++ parameterStart k ++ [' ', '=']) hx (by simp)
          (r := r) (by simpa using hm)
        have hx' : w ++ '\n' :: (s ++ parameterStart k ++ [' ']) = x ++ (className k ++ a ++ bs) := by
          rw [he, ← List.append_assoc] at hx
          exact List.append_cancel_right hx
        have hxw := (eq_of_fits_parameter hf hT hx').1
        rw [hxw] at hxy
        exact absurd (List.append_right_eq_self.mp hxy.symm) hy
  have hassoc : w ++ '\n' :: (s ++ (parameterStart k ++ ' ' :: '=' :: ' ' :: (n ++ g) ++ '\n' :: r)) =
      w ++ '\n' :: s ++ (parameterStart k ++ ' ' :: '=' :: ' ' :: (n ++ g) ++ '\n' :: r) := by simp
  rw [hassoc, h, search_of_matchHere hmatch, List.reverse_reverse]

/-- The parameter of another class is passed over. -/
theorem search_past_parameter {j k : Nat} {w s g r : List Char} (hw : '=' ∉ w) (hsp : '=' ∉ s) (hT : 'T' ∉ s)
    (hjk : j ≠ k) (hc : Closes g) :
    search (Binding.targetPattern k .objectiveCpp)
      (w ++ '\n' :: (s ++ (parameterStart j ++ ' ' :: '=' :: g ++ '\n' :: r))) =
        search (Binding.targetPattern k .objectiveCpp) (g ++ '\n' :: r) := by
  have hu : '=' ∉ w ++ '\n' :: (s ++ parameterStart j ++ [' ']) := by
    simp [hw, hsp, parameterStart_noEquals]
  rw [← search_past_equals (u := w ++ '\n' :: (s ++ parameterStart j ++ [' '])) hu hc fun a bs hf hs => ?_]
  · simp
  · obtain ⟨x, hx⟩ := hs
    exact hjk (eq_of_fits_parameter hf hT hx.symm).2

theorem search_without_equals {k : Nat} {u : List Char} (hu : '=' ∉ u) :
    search (Binding.targetPattern k .objectiveCpp) u = none := by
  refine search_eq_none fun x y hxy => ?_
  cases hm : matchHere [] (Binding.targetPattern k .objectiveCpp) y with
  | none => rfl
  | some ds =>
    obtain ⟨a, bs, z, rfl, _⟩ := exists_target hm
    exact absurd (by simp [hxy]) hu

end MachineBundle.Scan
