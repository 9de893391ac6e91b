import MachineBundle.Proofs.Scan.Parameter
import MachineBundle.Proofs.Scan.Places

/-!
# What scans of Objective-C++ report

A scan for the number of transitions or for a target stops at the first mention whose line goes on with a number in the
right words. Of several such numbers on this line, the last one is reported.
-/

namespace MachineBundle.Scan

variable {held ds rest word : List Char} {ps : Pattern} {p q : Nat}

/-! ## Numbers -/

/-- A number, of which no digit is left in what comes after it. -/
structure IsNumber (ds rest : List Char) : Prop where
  ne : ds ≠ []
  digits : ∀ c ∈ ds, isDigit c = true
  ends : ∀ c ∈ rest.head?, isDigit c = false

/-- A number comes after a certain text that begins at a place. -/
def NumberAt (front text : List Char) (p : Nat) (ds : List Char) : Prop :=
  ∃ rest, text.drop p = front ++ ds ++ rest ∧ IsNumber ds rest

theorem matchHere_digits_eq_some_iff {input : List Char} :
    matchHere held [.digits] input = some ds ↔ ∃ rest, input = ds.reverse ++ rest ∧ IsNumber ds.reverse rest := by
  constructor
  · intro h
    obtain ⟨run, after, rfl, hr, ha⟩ := exists_run isDigit input
    cases run with
    | nil =>
      obtain ⟨x, y, hxy, hx, hd, _⟩ := capture_eq_some h
      cases x with
      | nil => exact absurd rfl hx
      | cons c x =>
        have hc := ha c (by rw [← List.nil_append after, hxy]; rfl)
        rw [hd c List.mem_cons_self] at hc
        cases hc
    | cons c run =>
      have h' : matchHere held [.digits] (c :: run ++ after) = some (c :: run).reverse :=
        matchHere_digits (List.cons_ne_nil c run) hr ha rfl
      rw [h, Option.some.injEq] at h'
      subst h'
      rw [List.reverse_reverse]
      exact ⟨after, rfl, List.cons_ne_nil c run, hr, ha⟩
  · rintro ⟨rest, rfl, hn⟩
    refine matchHere_digits hn.ne hn.digits hn.ends ?_
    rw [List.reverse_reverse]
    rfl

/-- Blanks in front of something else are passed over. -/
theorem matchHere_blanks_eq_some_iff {input : List Char}
    (hps : ∀ rest, matchHere held ps rest = some ds → ∀ c ∈ rest.head?, Text.isBlank c = false) :
    matchHere held (.blanks :: ps) input = some ds ↔
      ∃ b rest, input = b ++ rest ∧ (∀ c ∈ b, Text.isBlank c = true) ∧ matchHere held ps rest = some ds := by
  constructor
  · exact many_eq_some
  · rintro ⟨b, rest, rfl, hb, hm⟩
    exact matchHere_blanks hb (hps rest hm) hm

theorem IsNumber.head (h : IsNumber ds rest) : ∀ c ∈ (ds ++ rest).head?, Text.isBlank c = false := by
  obtain ⟨d, ds, rfl⟩ := List.exists_cons_of_ne_nil h.ne
  rintro c ⟨⟩
  exact Text.isBlank_of_isPlain (Text.isPlain_of_isDigit (h.digits d List.mem_cons_self))

theorem matchHere_blanks_digits {input : List Char} :
    matchHere held [.blanks, .digits] input = some ds ↔
      ∃ b rest, input = b ++ ds.reverse ++ rest ∧ (∀ c ∈ b, Text.isBlank c = true) ∧ IsNumber ds.reverse rest := by
  rw [matchHere_blanks_eq_some_iff fun rest hm => ?_]
  · simp only [matchHere_digits_eq_some_iff]
    constructor
    · rintro ⟨b, _, rfl, hb, rest, rfl, hn⟩
      exact ⟨b, rest, by rw [List.append_assoc], hb, hn⟩
    · rintro ⟨b, rest, rfl, hb, hn⟩
      exact ⟨b, _, by rw [List.append_assoc], hb, rest, rfl, hn⟩
  · obtain ⟨rest, rfl, hn⟩ := matchHere_digits_eq_some_iff.mp hm
    exact hn.head

/-! ## Hits -/

/-- A return and a number. -/
def CountHit (text : List Char) (p : Nat) (ds : List Char) : Prop :=
  ∃ b, (∀ c ∈ b, Text.isBlank c = true) ∧ NumberAt ("return".toList ++ b) text p ds

/-- The default of a parameter with the name of targets. -/
def TargetHit (text : List Char) (p : Nat) (ds : List Char) : Prop :=
  ∃ b b', (∀ c ∈ b ++ b', Text.isBlank c = true) ∧ NumberAt ("toState".toList ++ b ++ ['='] ++ b') text p ds

variable {text : List Char}

theorem matchHere_countHit :
    matchHere held [.literal "return".toList, .blanks, .digits] (text.drop p) = some ds ↔
      CountHit text p ds.reverse := by
  constructor
  · intro h
    obtain ⟨r, hr, h₁⟩ := matchHere_literal_eq_some h
    obtain ⟨b, rest, rfl, hb, hn⟩ := matchHere_blanks_digits.mp h₁
    exact ⟨b, hb, rest, by simpa using hr, hn⟩
  · rintro ⟨b, hb, rest, hr, hn⟩
    rw [hr, List.append_assoc, List.append_assoc, matchHere_literal, ← List.append_assoc]
    exact matchHere_blanks_digits.mpr ⟨b, rest, rfl, hb, hn⟩

theorem matchHere_targetHit :
    matchHere held (.literal "toState".toList :: defaultParts) (text.drop p) = some ds ↔
      TargetHit text p ds.reverse := by
  have hblanks : ∀ input, matchHere held defaultParts input = some ds ↔
      ∃ b rest, input = b ++ rest ∧ (∀ c ∈ b, Text.isBlank c = true) ∧
        matchHere held [.literal ['='], .blanks, .digits] rest = some ds := fun input => by
    refine matchHere_blanks_eq_some_iff fun rest hm => ?_
    obtain ⟨r, rfl, _⟩ := matchHere_literal_eq_some hm
    rintro c ⟨⟩
    decide
  constructor
  · intro h
    obtain ⟨r, hr, h₁⟩ := matchHere_literal_eq_some h
    obtain ⟨b, r', rfl, hb, h₂⟩ := (hblanks r).mp h₁
    obtain ⟨r'', rfl, h₃⟩ := matchHere_literal_eq_some h₂
    obtain ⟨b', rest, rfl, hb', hn⟩ := matchHere_blanks_digits.mp h₃
    exact ⟨b, b', List.forall_mem_append.mpr ⟨hb, hb'⟩, rest, by simpa using hr, hn⟩
  · rintro ⟨b, b', hbb, rest, hr, hn⟩
    obtain ⟨hb, hb'⟩ := List.forall_mem_append.mp hbb
    have hassoc : "toState".toList ++ b ++ ['='] ++ b' ++ ds.reverse ++ rest =
        "toState".toList ++ (b ++ (['='] ++ (b' ++ ds.reverse ++ rest))) := by
      simp only [List.append_assoc]
    rw [hr, hassoc, matchHere_literal, hblanks]
    refine ⟨b, _, rfl, hb, ?_⟩
    rw [matchHere_literal]
    exact matchHere_blanks_digits.mpr ⟨b', rest, rfl, hb', hn⟩

/-! ## The last hit of a line -/

/-- The last hit on the line of a place has certain digits. -/
def LastOnLine (hit : Nat → List Char → Prop) (text : List Char) (p : Nat) (ds : List Char) : Prop :=
  ∃ q, IsGreatest {q | lineOf text q = lineOf text p ∧ ∃ ds, hit q ds} q ∧ hit q ds

/-- Further on in the line of a place there is one of some kind. -/
def Ahead (text : List Char) (p : Nat) (kind : Nat → Prop) : Prop :=
  ∃ q, p ≤ q ∧ lineOf text q = lineOf text p ∧ kind q

/-- Parts that match at the places of some kind, and find the last hit of the line. -/
structure Finds (ps : Pattern) (text : List Char) (kind : Nat → Prop) (hit : Nat → List Char → Prop) : Prop where
  isSome_iff : ∀ p held, (matchHere held ps (text.drop p)).isSome = true ↔ kind p
  last : ∀ p held ds, matchHere held ps (text.drop p) = some ds → LastOnLine hit text p ds.reverse

variable {kind : Nat → Prop} {hit : Nat → List Char → Prop}

theorem LastOnLine.of_lineOf_eq (h : LastOnLine hit text q ds) (hl : lineOf text q = lineOf text p) :
    LastOnLine hit text p ds := by
  unfold LastOnLine at h ⊢
  rwa [hl] at h

/-- The rest of a line leads to its last hit. -/
theorem Finds.ofHit (hd : .digits ∈ ps)
    (h : ∀ p held ds, matchHere held ps (text.drop p) = some ds ↔ hit p ds.reverse) :
    Finds (.restOfLine :: ps) text (fun p => Ahead text p fun q => ∃ ds, hit q ds) hit := by
  have hhit : ∀ p held, (matchHere held ps (text.drop p)).isSome = true ↔ ∃ ds, hit p ds := fun p held => by
    rw [Option.isSome_iff_exists]
    refine ⟨fun ⟨ds, hm⟩ => ⟨_, (h p held ds).mp hm⟩, fun ⟨ds, hm⟩ => ⟨ds.reverse, (h p held _).mpr ?_⟩⟩
    rwa [List.reverse_reverse]
  refine ⟨fun p held => ?_, fun p held ds hm => ?_⟩
  · rw [matchHere_restOfLine_isSome_iff (matchHere_nil hd)]
    simp only [restMatches, hhit]
    rfl
  · obtain ⟨q, ⟨⟨hpq, hline, _⟩, hlast⟩, hq⟩ := (matchHere_restOfLine_eq_some_iff (matchHere_nil hd)).mp hm
    have hq' := (h q held ds).mp hq
    refine ⟨q, ⟨⟨hline, _, hq'⟩, fun q' ⟨hline', hhit'⟩ => ?_⟩, hq'⟩
    -- a hit in front of the place comes in front of the others anyway
    rcases Nat.le_total p q' with hle | hle
    · exact hlast ⟨hle, hline', (hhit q' held).mpr hhit'⟩
    · exact hle.trans hpq

theorem Finds.restOfLine (h : Finds ps text kind hit) (hd : .digits ∈ ps) :
    Finds (.restOfLine :: ps) text (fun p => Ahead text p kind) hit := by
  refine ⟨fun p held => ?_, fun p held ds hm => ?_⟩
  · rw [matchHere_restOfLine_isSome_iff (matchHere_nil hd)]
    simp only [restMatches, h.isSome_iff]
    rfl
  · obtain ⟨q, ⟨_, hline, _⟩, hq⟩ := exists_restMatches hm
    exact (h.last q held ds hq).of_lineOf_eq hline

theorem Finds.literal (h : Finds ps text kind hit) (hw : '\n' ∉ word) :
    Finds (.literal word :: ps) text (fun p => WordAt word text p ∧ kind (p + word.length)) hit := by
  refine ⟨fun p held => ?_, fun p held ds hm => ?_⟩
  · rw [← h.isSome_iff _ held, Option.isSome_iff_exists, Option.isSome_iff_exists]
    simp only [matchHere_literal_eq_some_iff, exists_and_left]
  · obtain ⟨⟨rest, hr⟩, hm'⟩ := matchHere_literal_eq_some_iff.mp hm
    exact (h.last _ held ds hm').of_lineOf_eq (lineOf_add_length hr.symm hw)

theorem Finds.wordEnd (h : Finds ps text kind hit) :
    Finds (.wordEnd :: ps) text (fun p => (∀ c ∈ text[p]?, Text.isWordChar c = false) ∧ kind p) hit := by
  refine ⟨fun p held => ?_, fun p held ds hm => ?_⟩
  · rw [← h.isSome_iff _ held, Option.isSome_iff_exists, Option.isSome_iff_exists]
    simp only [matchHere_wordEnd_eq_some_iff, exists_and_left]
  · exact h.last p held ds (matchHere_wordEnd_eq_some_iff.mp hm).2

/-! ## Reports -/

/-- What a scan for a number reports: nothing if the text has no mention, and otherwise the last hit on the line of the
first mention, if it can be read. -/
structure Reports (ps : Pattern) (mention : Nat → Prop) (hit : Nat → List Char → Prop) (text : String) : Prop where
  nothing : firstNumber ps text = .ok none ↔ ∀ p, ¬mention p
  last : ∀ p, IsLeast {p | mention p} p → ∃ ds, LastOnLine hit text.toList p ds ∧
    firstNumber ps text = if digitLimit < ds.length then .error ⟨ds.length⟩ else .ok (some (numberOf ds))

theorem firstNumber_of_search_ne_nil {text : String} (h : search ps text.toList = some ds) (hne : ds ≠ []) :
    firstNumber ps text = if digitLimit < ds.length then .error ⟨ds.length⟩ else .ok (some (numberOf ds)) := by
  obtain ⟨d, ds, rfl⟩ := List.exists_cons_of_ne_nil hne
  rw [firstNumber, h]

theorem Finds.reports {text : String} {mention : Nat → Prop} (h : Finds ps text.toList mention hit)
    (hne : ∀ p ds, hit p ds → ds ≠ []) : Reports ps mention hit text := by
  have hlast : ∀ p, IsLeast {p | mention p} p → ∃ ds, LastOnLine hit text.toList p ds ∧
      firstNumber ps text = if digitLimit < ds.length then .error ⟨ds.length⟩ else .ok (some (numberOf ds)) := by
    intro p hp
    obtain ⟨ds, hm⟩ := Option.isSome_iff_exists.mp ((h.isSome_iff p []).mpr hp.1)
    have hsearch : search ps text.toList = some ds.reverse := by
      refine search_of_isLeast ?_ hm
      simpa only [h.isSome_iff] using hp
    obtain ⟨q, hq, hhit⟩ := h.last p [] ds hm
    exact ⟨ds.reverse, ⟨q, hq, hhit⟩, firstNumber_of_search_ne_nil hsearch (hne q _ hhit)⟩
  refine ⟨⟨fun hnone p hp => ?_, fun hnone => ?_⟩, hlast⟩
  · classical
    obtain ⟨ds, _, hds⟩ := hlast _ (Nat.isLeast_find ⟨p, hp⟩)
    rw [hnone] at hds
    split at hds <;> cases hds
  · refine firstNumber_of_search_none (search_eq_none_of_forall fun p => ?_)
    rw [← Option.not_isSome_iff_eq_none, h.isSome_iff]
    exact hnone p

/-! ## Objective-C++ -/

/-- The name of the number of transitions, with a hit further on in its line. -/
def CountMention (text : List Char) (p : Nat) : Prop :=
  WordAt "numberOfTransitions".toList text p ∧
    Ahead text (p + "numberOfTransitions".length) fun q => ∃ ds, CountHit text q ds

/-- The whole name of a transition, with a type further on in its line and a hit after it. -/
def TargetMention (index : Nat) (text : List Char) (p : Nat) : Prop :=
  WordAt (className index) text p ∧ (∀ c ∈ text[p + (className index).length]?, Text.isWordChar c = false) ∧
    Ahead text (p + (className index).length) fun q => WordAt "int".toList text q ∧
      Ahead text (q + "int".length) fun q => ∃ ds, TargetHit text q ds

/-- What the scans of a state header report, whatever the header looks like. -/
theorem objectiveCpp_reports (text : String) :
    Reports (Binding.countPattern .objectiveCpp) (CountMention text.toList) (CountHit text.toList) text ∧
      ∀ index : Nat, Reports (Binding.targetPattern index .objectiveCpp) (TargetMention index text.toList)
        (TargetHit text.toList) text := by
  constructor
  · have hhit : Finds [.restOfLine, .literal "return".toList, .blanks, .digits] text.toList
        (fun p => Ahead text.toList p fun q => ∃ ds, CountHit text.toList q ds) (CountHit text.toList) :=
      .ofHit (by simp) fun _ _ _ => matchHere_countHit
    have hname : '\n' ∉ "numberOfTransitions".toList := by decide
    exact (hhit.literal hname).reports fun p ds ⟨_, _, _, _, hn⟩ => hn.ne
  · intro index
    have hhit : Finds (.restOfLine :: .literal "toState".toList :: defaultParts) text.toList
        (fun p => Ahead text.toList p fun q => ∃ ds, TargetHit text.toList q ds) (TargetHit text.toList) :=
      .ofHit (by simp [defaultParts]) fun _ _ _ => matchHere_targetHit
    have htype : '\n' ∉ "int".toList := by decide
    have hline := (hhit.literal htype).restOfLine (by simp [defaultParts])
    exact (hline.wordEnd.literal (className_sameLine index)).reports fun p ds ⟨_, _, _, _, _, hn⟩ => hn.ne

/-- Two returns in one line, the last of which has its number on the next line. -/
def twoReturns : String :=
  "numberOfTransitions return 1 return\n20"

example : firstNumber (Binding.countPattern .objectiveCpp) twoReturns = .ok (some 20) := by decide +kernel

theorem two_returns_reported :
    IsLeast {p | CountMention twoReturns.toList p} 0 ∧
      ∃ ds, LastOnLine (CountHit twoReturns.toList) twoReturns.toList 0 ds ∧
        firstNumber (Binding.countPattern .objectiveCpp) twoReturns =
          if digitLimit < ds.length then .error ⟨ds.length⟩ else .ok (some (numberOf ds)) := by
  have hmention : CountMention twoReturns.toList 0 :=
    ⟨⟨" return 1 return\n20".toList, by decide⟩, 29, by decide, by decide, "20".toList, ['\n'], by decide, [],
      by decide, ⟨by decide, by decide, by decide⟩⟩
  have hleast : IsLeast {p | CountMention twoReturns.toList p} 0 :=
    ⟨hmention, fun p _ => Nat.zero_le p⟩
  exact ⟨hleast, (objectiveCpp_reports twoReturns).1.last 0 hleast⟩

end MachineBundle.Scan
