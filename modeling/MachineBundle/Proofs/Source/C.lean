import MachineBundle.Proofs.Source.Tame
import MachineBundle.Source.C

/-!
# What is found in sources in C

The first number with the label of a constant is the one that the constant was written for. Nothing else in a state
header comes near it: other constants have other labels, and elsewhere numbers do not follow blanks.
-/

namespace MachineBundle.Source

namespace C

open Scan

variable {m : MachinePlan} {s : StatePlan}

/-! ## Tame lines -/

theorem tame_stateHeaderTop (hm : Text.PlainText m.name) (hs : Text.PlainText s.name) :
    ∀ l ∈ stateHeaderTop m s, tame l.toList = true := by
  have hM : Text.PlainText m.constant := hm.constantName
  have hS : Text.PlainText s.constant := hs.constantName
  simp only [stateHeaderTop, banner, List.forall_mem_append, List.forall_mem_cons, List.not_mem_nil, false_implies,
    implies_true, and_true]
  and_intros
  all_goals with_reducible repeat first
    | exact tame_ofList _ (by decide)
    | exact tidy_ofList _ (by decide)
    | refine tidy_append_plain ?_ (by assumption)
    | refine tidy_append ?_ ?_
    | refine tame_of_tidy ?_

theorem tame_stateStructure (hm : Text.PlainText m.name) (hs : Text.PlainText s.name) :
    ∀ l ∈ stateStructure m s, tame l.toList = true := by
  simp only [stateStructure, forall_mem_onlyIf, List.forall_mem_append, List.forall_mem_cons, List.not_mem_nil,
    false_implies, implies_true, and_true, imp_and]
  and_intros
  all_goals try intro _
  all_goals with_reducible repeat first
    | exact tame_ofList _ (by decide)
    | exact tidy_ofList _ (by decide)
    | refine tidy_append_plain ?_ (by assumption)
    | refine tidy_append ?_ ?_
    | refine tame_of_tidy ?_

/-- What comes after the comment on a state. -/
theorem tame_stateHeaderEnd (hm : Text.PlainText m.name) (hs : Text.PlainText s.name) :
    ∀ l ∈ (stateHeaderEnd m s).tail, tame l.toList = true := by
  have hM : Text.PlainText m.constant := hm.constantName
  have hS : Text.PlainText s.constant := hs.constantName
  have hm' : Text.PlainText m.lowerName := hm.lower
  have hs' : Text.PlainText s.lowerName := hs.lower
  simp only [stateHeaderEnd, List.tail_cons, List.forall_mem_cons, List.not_mem_nil, false_implies, implies_true,
    and_true]
  and_intros
  all_goals with_reducible repeat first
    | exact tame_ofList _ (by decide)
    | exact tidy_ofList _ (by decide)
    | refine tidy_append_plain ?_ (by assumption)
    | refine tidy_append ?_ ?_
    | refine tame_of_tidy ?_

theorem tidy_constantStem (hm : Text.PlainText m.name) (hs : Text.PlainText s.name) : Tidy (constantStem m s ++ "_") := by
  have hM : Text.PlainText m.constant := hm.constantName
  have hS : Text.PlainText s.constant := hs.constantName
  unfold constantStem
  with_reducible repeat first
    | exact tame_ofList _ (by decide)
    | exact tidy_ofList _ (by decide)
    | refine tidy_append_plain ?_ (by assumption)
    | refine tidy_append ?_ ?_
    | refine tame_of_tidy ?_

/-- The label of the target of a transition, after the stem. -/
def targetLabel (k : Nat) : String :=
  "TRANSITION_" ++ toString k ++ "_TARGET"

theorem plain_countLabel : Text.PlainText "NUMBER_OF_TRANSITIONS" :=
  of_ofList (P := fun l => ∀ c ∈ l, Text.isPlain c = true) _ (by decide)

theorem plain_targetLabel (k : Nat) : Text.PlainText (targetLabel k) := by
  refine .append (.append ?_ (.ofNat k)) ?_
  · exact of_ofList (P := fun l => ∀ c ∈ l, Text.isPlain c = true) _ (by decide)
  · exact of_ofList (P := fun l => ∀ c ∈ l, Text.isPlain c = true) _ (by decide)

theorem targetLabel_last (k : Nat) : (targetLabel k).toList.getLast? = some 'T' := by
  unfold targetLabel
  rw [String.toList_append]
  exact getLast?_of_suffix (List.suffix_append _ _) rfl

theorem toList_numberLine (m : MachinePlan) (s : StatePlan) (constant : String) (n : Nat) :
    (numberLine m s constant n).toList =
      (constantStem m s ++ "_").toList ++ constant.toList ++ ' ' :: (toString n).toList := by
  unfold numberLine
  simp

/-- A constant after a text without numbers. -/
theorem lacksNumber_label (hm : Text.PlainText m.name) (hs : Text.PlainText s.name) {constant : String}
    (hc : Text.PlainText constant) {w : List Char} (hw : lacksNumber w = true) :
    lacksNumber (w ++ (constantStem m s ++ "_").toList ++ constant.toList) = true ∧
      ∀ c ∈ (w ++ (constantStem m s ++ "_").toList ++ constant.toList).getLast?, Text.isBlank c = false := by
  have h := (tidy_append_plain (tidy_constantStem hm hs) hc).after hw
  rwa [String.toList_append, ← List.append_assoc] at h

/-- The first constant with a label is found. -/
theorem search_numberLine (hm : Text.PlainText m.name) (hs : Text.PlainText s.name) {constant : String}
    (hc : Text.PlainText constant) {w : List Char} (hw : lacksNumber w = true) (n : Nat) (rest : List Char) :
    search (labelled constant.toList) (w ++ (numberLine m s constant n).toList ++ '\n' :: rest) =
      some (toString n).toList := by
  obtain ⟨hl, hlast⟩ := lacksNumber_label (m := m) (s := s) hm hs hc hw
  have hr : ∀ c ∈ ('\n' :: rest).head?, isDigit c = false := by
    intro c hc
    cases hc
    decide
  have h := search_labelled (b := ' ') hc.isBlank (by decide) hl hlast (Text.toString_ne_nil n)
    (fun c hc => isDigit_toString hc) hr
  rw [toList_numberLine, ← h]
  simp

/-- A constant with another label is passed over. -/
theorem search_past_numberLine (hm : Text.PlainText m.name) (hs : Text.PlainText s.name) {l constant : String}
    (hl : Text.PlainText l) (hc : Text.PlainText constant) {w : List Char} (hw : lacksNumber w = true)
    (hn : ∀ y, ¬l.toList <:+ y ++ '_' :: constant.toList) (n : Nat) (rest : List Char) :
    search (labelled l.toList) (w ++ (numberLine m s constant n).toList ++ '\n' :: rest) =
      search (labelled l.toList) ((toString n).toList ++ '\n' :: rest) := by
  obtain ⟨hw', hlast⟩ := lacksNumber_label (m := m) (s := s) hm hs hc hw
  have h := search_past_number (v := (toString n).toList ++ '\n' :: rest) (b := ' ') hl.isBlank (by decide) hw' hlast ?_
  · rw [← h, toList_numberLine]
    simp
  · have h := hn (w ++ (constantStem m s).toList)
    rw [String.toList_append]
    simpa using h

/-! ## The number of transitions -/

theorem search_count (hm : Text.PlainText m.name) (hs : Text.PlainText s.name) :
    search (Binding.countPattern .c) (unlines (stateHeader m s)).toList = some (toString s.transitions.length).toList := by
  have hw := (tame_iff.mp (tame_unlines (tame_stateHeaderTop hm hs))).2.1
  have h := search_numberLine (m := m) (s := s) hm hs plain_countLabel hw s.transitions.length
    (unlines (s.transitions.filterMap (targetLine? m s) ++ (stateStructure m s ++ stateHeaderEnd m s))).toList
  have hp : Binding.countPattern .c = labelled "NUMBER_OF_TRANSITIONS".toList := rfl
  rw [List.append_assoc] at h
  unfold stateHeader
  rw [hp, List.append_assoc, List.append_assoc, List.append_assoc, toList_unlines_append, List.singleton_append,
    toList_unlines_cons]
  exact h

/-! ## Targets -/

theorem targetLabel_not_suffix {j k : Nat} (h : j ≠ k) (y : List Char) :
    ¬(targetLabel k).toList <:+ y ++ '_' :: (targetLabel j).toList := by
  rintro ⟨x, hx⟩
  have hd : ∀ n : Nat, '_' ∉ (toString n).toList.reverse := by
    intro n hm
    rw [List.mem_reverse] at hm
    exact absurd (isDigit_toString hm) (by decide)
  have hx' : (x ++ "TRANSITION".toList ++ '_' :: (toString k).toList) ++ "_TARGET".toList =
      (y ++ '_' :: "TRANSITION".toList ++ '_' :: (toString j).toList) ++ "_TARGET".toList := by
    unfold targetLabel at hx
    simpa using hx
  have hr := congrArg List.reverse (List.append_cancel_right hx')
  simp only [List.reverse_append, List.reverse_cons, List.append_assoc, List.singleton_append] at hr
  have hkj := List.reverse_injective (append_cons_inj_of_first (hd k) (hd j) hr).1
  exact h (Text.toString_injective hkj).symm

/-- A target is found in the line of its transition. -/
theorem search_in_targetLine (hm : Text.PlainText m.name) (hs : Text.PlainText s.name) {t : TransitionPlan} {n : Nat}
    (ht : t.target = some n) {w : List Char} (hw : lacksNumber w = true) (tail : List Char) :
    search (labelled (targetLabel t.index).toList) (w ++ (unlines (targetLine? m s t).toList).toList ++ tail) =
      some (toString n).toList := by
  have hl : targetLine? m s t = some (numberLine m s (targetLabel t.index) n) := by
    unfold targetLine?
    rw [ht]
    rfl
  have h := search_numberLine hm hs (plain_targetLabel t.index) hw n tail
  rw [hl, Option.toList_some, toList_unlines_cons]
  simpa [unlines] using h

/-- The lines of other transitions are passed over. -/
theorem search_past_targetLine (hm : Text.PlainText m.name) (hs : Text.PlainText s.name) {k : Nat} {t : TransitionPlan}
    (hk : t.index = k → t.target = none) {w : List Char} (hw : lacksNumber w = true) (tail : List Char) :
    ∃ w', lacksNumber w' = true ∧
      search (labelled (targetLabel k).toList) (w ++ (unlines (targetLine? m s t).toList).toList ++ tail) =
        search (labelled (targetLabel k).toList) (w' ++ tail) := by
  unfold targetLine?
  cases ht : t.target with
  | none => exact ⟨w, hw, by simp [unlines]⟩
  | some n =>
    have hother : t.index ≠ k := by
      intro he
      rw [hk he] at ht
      cases ht
    have h := search_past_numberLine hm hs (plain_targetLabel k) (plain_targetLabel t.index) hw
      (targetLabel_not_suffix hother) n tail
    refine ⟨(toString n).toList ++ ['\n'], ?_, ?_⟩
    · exact lacksNumber_append (lacksNumber_of_not_blank (Text.PlainText.ofNat n).isBlank) (by decide)
        (Or.inr (by decide))
    · rw [Option.map_some, Option.toList_some, toList_unlines_cons]
      simpa [unlines, targetLabel] using h

theorem countLabel_not_target (k : Nat) (y : List Char) :
    ¬(targetLabel k).toList <:+ y ++ '_' :: "NUMBER_OF_TRANSITIONS".toList := by
  intro hsuf
  have h := getLast?_of_suffix hsuf (targetLabel_last k)
  simp [List.getLast?_append] at h

/-- The comment on a state may well have a number after a blank, but it is no target. -/
theorem search_stateHeaderEnd (hm : Text.PlainText m.name) (hs : Text.PlainText s.name) (k : Nat) {w : List Char}
    (hw : lacksNumber w = true) :
    search (labelled (targetLabel k).toList) (w ++ (unlines (stateHeaderEnd m s)).toList) = none := by
  have hl : lacksNumber (w ++ "/// Return the singleton instance of".toList) = true :=
    lacksNumber_append hw (of_ofList (P := fun l => lacksNumber l = true) _ (by decide)) (Or.inr (by simp; decide))
  have hlast : (w ++ "/// Return the singleton instance of".toList).getLast? = some 'f' := by
    simp [List.getLast?_append]
  have hrest : lacksNumber (s.name.toList ++ '.' :: '\n' :: (unlines (stateHeaderEnd m s).tail).toList) = true := by
    refine lacksNumber_append (lacksNumber_of_not_blank hs.isBlank) ?_ (Or.inr (by simp; decide))
    have ht := tame_iff.mp (tame_unlines (tame_stateHeaderEnd hm hs))
    exact lacksNumber_append (a := ['.', '\n']) (by decide) ht.2.1 (Or.inr ht.1)
  have hn : ¬(targetLabel k).toList <:+ w ++ "/// Return the singleton instance of".toList := by
    intro hsuf
    have h := getLast?_of_suffix hsuf (targetLabel_last k)
    rw [hlast] at h
    cases h
  have h := search_past_number (plain_targetLabel k).isBlank (b := ' ') (by decide) hl
    (by rw [hlast]; simp; decide) hn (v := s.name.toList ++ '.' :: '\n' :: (unlines (stateHeaderEnd m s).tail).toList)
  rw [search_labelled_none hrest] at h
  rw [← h]
  have he : (unlines (stateHeaderEnd m s)).toList = "/// Return the singleton instance of".toList ++
      ' ' :: (s.name.toList ++ '.' :: '\n' :: (unlines (stateHeaderEnd m s).tail).toList) := by
    unfold stateHeaderEnd
    rw [List.tail_cons, toList_unlines_cons]
    simp
  rw [he, List.append_assoc]

theorem search_target (hm : Text.PlainText m.name) (hs : Text.PlainText s.name) (k : Nat) :
    search (Binding.targetPattern k .c) (unlines (stateHeader m s)).toList =
      (targetAt k s.transitions).map fun n => (toString n).toList := by
  have hp : Binding.targetPattern k .c = labelled (targetLabel k).toList := rfl
  have hw := (tame_iff.mp (tame_unlines (tame_stateHeaderTop hm hs))).2.1
  have hw' : lacksNumber ((toString s.transitions.length).toList ++ ['\n']) = true :=
    lacksNumber_append (lacksNumber_of_not_blank (Text.PlainText.ofNat _).isBlank) (by decide) (Or.inr (by decide))
  have hpast := search_past_numberLine (m := m) (s := s) hm hs (plain_targetLabel k) plain_countLabel hw
    (countLabel_not_target k) s.transitions.length
    (unlines (s.transitions.filterMap (targetLine? m s) ++ (stateStructure m s ++ stateHeaderEnd m s))).toList
  have hsplit : (toString s.transitions.length).toList ++ '\n' ::
      (unlines (s.transitions.filterMap (targetLine? m s) ++ (stateStructure m s ++ stateHeaderEnd m s))).toList =
      (toString s.transitions.length).toList ++ ['\n'] ++ (unlines (s.transitions.filterMap (targetLine? m s))).toList ++
        ((unlines (stateStructure m s)).toList ++ (unlines (stateHeaderEnd m s)).toList) := by
    rw [toList_unlines_append, toList_unlines_append]
    simp
  rw [hsplit, List.append_assoc _ (numberLine ..).toList] at hpast
  unfold stateHeader
  rw [hp, List.append_assoc, List.append_assoc, List.append_assoc, toList_unlines_append, List.singleton_append,
    toList_unlines_cons, hpast]
  rw [List.filterMap_eq_flatMap_toList]
  refine search_transitions (P := fun w => lacksNumber w = true) ?_ ?_ (fun w hw => ?_) s.transitions hw'
  · rintro t n w tail rfl ht hw
    exact search_in_targetLine hm hs ht hw tail
  · exact fun t w tail hk hw => search_past_targetLine hm hs hk hw tail
  · have ht := tame_iff.mp (tame_unlines (tame_stateStructure hm hs))
    rw [← List.append_assoc]
    exact search_stateHeaderEnd hm hs k (lacksNumber_append hw ht.2.1 (Or.inr ht.1))

/-! ## The suspend state -/

/-- What the assignment to the suspend state begins with. -/
def suspendParts : Pattern :=
  [.literal "suspend_state".toList, .blanks]

/-- What it ends in. -/
def statePart : Pattern :=
  [.blanks, .literal "machine->states[".toList, .blanks, .digits, .blanks, .literal [']']]

theorem suspendPattern_eq : Binding.suspendPattern .c = suspendParts ++ .literal ([] ++ ['=']) :: statePart := rfl

theorem suspendParts_eq {a : List Char} (h : Accepts suspendParts a) :
    ∃ bs, a = "suspend_state".toList ++ bs ∧ ∀ c ∈ bs, Text.isBlank c = true := by
  obtain ⟨_, _, rfl, rfl, bs, _, rfl, hb, rfl⟩ := h
  exact ⟨bs, by simp, hb⟩

theorem suspendParts_noEquals : ∀ a, Accepts suspendParts a → '=' ∉ a := by
  intro a h
  obtain ⟨bs, rfl, hb⟩ := suspendParts_eq h
  rw [List.mem_append, not_or]
  exact ⟨by simp, fun hm => absurd (hb _ hm) (by decide)⟩

/-- The parts fit in front of an equals sign after a blank only if the member is the suspend state. -/
theorem eq_of_suspendParts {a u : List Char} (ha : Accepts suspendParts a) (hu : endsInk u = true)
    (hs : a <:+ u ++ [' ']) : a = "suspend_state".toList ++ [' '] ∧ "suspend_state".toList <:+ u := by
  obtain ⟨bs, rfl, hb⟩ := suspendParts_eq ha
  obtain ⟨x, hx⟩ := hs
  obtain ⟨c, hc, hi⟩ := endsInk_iff.mp hu
  have hlast : (x ++ "suspend_state".toList).getLast? = some 'e' := by simp [List.getLast?_append]
  have he : Text.isBlank 'e' = false := by decide
  obtain ⟨hxu, rfl⟩ := append_blanks_inj (a := x ++ "suspend_state".toList) (b := u) (t := [' '])
    (by simpa only [hlast, Option.mem_def, Option.some.injEq, forall_eq'] using he)
    (by simpa only [hc, Option.mem_def, Option.some.injEq, forall_eq'] using hi) hb (by decide) (by simpa using hx)
  exact ⟨rfl, x, hxu⟩

/-- An assignment to another member. -/
structure Harmless (member value : String) : Prop where
  noEquals : '=' ∉ member.toList
  noEqualsAfter : '=' ∉ value.toList
  ink : endsInk member.toList = true
  other : ∀ y, ¬"suspend_state".toList <:+ y ++ member.toList

/-- An assignment up to its equals sign. -/
def assigned (member : String) : String :=
  "    machine->" ++ member

theorem toList_assignment (member value : String) :
    (assignment member value).toList = (assigned member).toList ++ [' '] ++ '=' :: (' ' :: value.toList ++ [';']) := by
  unfold assignment assigned
  simp

theorem assigned_noEquals {member : String} (h : '=' ∉ member.toList) : '=' ∉ (assigned member).toList := by
  unfold assigned
  simp [h]

theorem endsInk_assigned {member : String} (h : endsInk member.toList = true) (w : List Char) :
    endsInk (w ++ (assigned member).toList) = true := by
  unfold assigned
  rw [String.toList_append]
  exact endsInk_append _ (endsInk_append _ h)

theorem search_past_assignments (ls : List String)
    (h : ∀ l ∈ ls, ∃ member value, l = assignment member value ∧ Harmless member value) {w : List Char} (hw : '=' ∉ w)
    (tail : List Char) :
    ∃ w', '=' ∉ w' ∧ search (Binding.suspendPattern .c) (w ++ (unlines ls).toList ++ tail) =
      search (Binding.suspendPattern .c) (w' ++ tail) := by
  induction ls generalizing w with
  | nil => exact ⟨w, hw, by simp [unlines]⟩
  | cons l ls ih =>
    obtain ⟨member, value, rfl, hh⟩ := h l List.mem_cons_self
    have hu : '=' ∉ w ++ (assigned member).toList ++ [' '] := by simp [hw, assigned_noEquals hh.noEquals]
    have hn : ∀ a held, Accepts suspendParts a → a ++ [] <:+ w ++ (assigned member).toList ++ [' '] →
        matchHere held statePart ((' ' :: value.toList ++ [';']) ++ '\n' :: (unlines ls).toList ++ tail) = none := by
      intro a held ha hs
      rw [List.append_nil] at hs
      have hsuf := (eq_of_suspendParts ha (endsInk_assigned hh.ink w) hs).2
      unfold assigned at hsuf
      rw [String.toList_append, ← List.append_assoc] at hsuf
      exact absurd hsuf (hh.other _)
    have hpast := search_past_char (l := []) suspendParts_noEquals (by simp) hu hn
    have hw' : '=' ∉ ' ' :: value.toList ++ [';', '\n'] := by simp [hh.noEqualsAfter]
    obtain ⟨w', hw'', hi⟩ := ih (fun l hl => h l (List.mem_cons_of_mem _ hl)) hw'
    refine ⟨w', hw'', ?_⟩
    rw [toList_unlines_cons, toList_assignment, ← hi]
    rw [← suspendPattern_eq] at hpast
    simpa using hpast

theorem free_implementationTop (h : PlainPlan m) : ∀ l ∈ implementationTop m, Free ['=', '\n', '\r'] l := by
  have hm : Text.PlainText m.name := h.name
  have hm' : Text.PlainText m.lowerName := h.name.lower
  have hs : ∀ s ∈ m.states, Free ['=', '\n', '\r'] ("#include \"State_" ++ s.name ++ ".h\"") := fun s hs =>
    free_append (free_append (free_ofList _ (by decide)) (free_plain (h.states s hs) (by decide)))
      (free_ofList _ (by decide))
  unfold implementationTop banner
  simp only [List.forall_mem_append, List.forall_mem_cons, List.forall_mem_map, List.not_mem_nil, false_implies,
    implies_true, and_true]
  refine ⟨⟨⟨?_, ?_⟩, hs⟩, ?_⟩
  and_intros
  all_goals with_reducible repeat first
    | exact free_ofList _ (by decide)
    | exact free_headerFile (by decide) hm
    | exact free_implementationFile (by decide) hm
    | exact free_plain (by assumption) (by decide)
    | refine free_append ?_ ?_

/-! ## The assignments -/

theorem harmless_state (m : MachinePlan) (hm : Text.PlainText m.name) {s : StatePlan} (hs : Text.PlainText s.name)
    (i : Nat) :
    Harmless ("states[" ++ toString i ++ "]") ("fsm_" ++ m.lowerName ++ "_" ++ s.lowerName ++ "_state()") where
  noEquals := by
    have hi : Free ['='] ("states[" ++ toString i ++ "]") :=
      free_append (free_append (free_ofList _ (by decide)) (free_plain (.ofNat i) (by decide))) (free_ofList _ (by decide))
    exact hi '=' (by simp)
  noEqualsAfter := by
    have hv : Free ['='] ("fsm_" ++ m.lowerName ++ "_" ++ s.lowerName ++ "_state()") :=
      free_append (free_append (free_append (free_append (free_ofList _ (by decide)) (free_plain hm.lower (by decide)))
        (free_ofList _ (by decide))) (free_plain hs.lower (by decide))) (free_ofList _ (by decide))
    exact hv '=' (by simp)
  ink := by
    rw [String.toList_append]
    exact endsInk_append _ (by decide)
  other y hs := by
    have h := getLast?_of_suffix hs (c := 'e') (by decide)
    have hl := getLast?_of_suffix (List.suffix_append (y ++ ("states[" ++ toString i).toList) "]".toList) (c := ']')
      (by decide)
    rw [String.toList_append, ← List.append_assoc, hl] at h
    cases h

theorem harmless_current : Harmless "current_state" "machine->states[0]" where
  noEquals := by simp
  noEqualsAfter := by simp
  ink := by decide
  other y hs := by
    obtain ⟨x, hx⟩ := hs
    have hx' : x ++ "suspen".toList ++ "d_state".toList = y ++ "curren".toList ++ "t_state".toList := by simpa using hx
    have h := (List.append_inj' hx' (by simp)).2
    simp at h

theorem harmless_previous : Harmless "previous_state" "NULL" where
  noEquals := by simp
  noEqualsAfter := by simp
  ink := by decide
  other y hs := by
    obtain ⟨x, hx⟩ := hs
    have hx' : x ++ "suspen".toList ++ "d_state".toList = y ++ "previou".toList ++ "s_state".toList := by simpa using hx
    have h := (List.append_inj' hx' (by simp)).2
    simp at h

theorem harmless_resume : Harmless "resume_state" "NULL" where
  noEquals := by simp
  noEqualsAfter := by simp
  ink := by decide
  other y hs := by
    obtain ⟨x, hx⟩ := hs
    have hx' : x ++ "suspen".toList ++ "d_state".toList = y ++ "resum".toList ++ "e_state".toList := by simpa using hx
    have h := (List.append_inj' hx' (by simp)).2
    simp at h

theorem stateAssignments_harmless (h : PlainPlan m) :
    ∀ l ∈ stateAssignments m, ∃ member value, l = assignment member value ∧ Harmless member value := by
  intro l hl
  unfold stateAssignments at hl
  rw [List.mem_append] at hl
  rcases hl with hl | hl
  · obtain ⟨i, hi, rfl⟩ := List.mem_mapIdx.mp hl
    exact ⟨_, _, rfl, harmless_state m h.name (h.states _ (List.getElem_mem hi)) i⟩
  · rcases List.mem_cons.mp hl with rfl | hl
    · exact ⟨_, _, rfl, harmless_current⟩
    · rw [List.mem_singleton] at hl
      exact ⟨_, _, hl, harmless_previous⟩

theorem search_past_null (rest : List Char) : ∀ held, matchHere held statePart (" NULL;".toList ++ rest) = none := by
  intro held
  cases hm : matchHere held statePart (" NULL;".toList ++ rest) with
  | none => rfl
  | some ds =>
    obtain ⟨_, r, held', he, ⟨bs, _, rfl, hb, rfl⟩, h₁⟩ := matchHere_append (p := [.blanks]) hm
    obtain ⟨z, rfl, _⟩ := matchHere_literal_eq_some h₁
    cases bs with
    | nil => simp at he
    | cons b bs =>
      cases bs with
      | nil => simp at he
      | cons c bs =>
        simp only [String.reduceToList, List.cons_append, List.cons.injEq] at he
        have hc := hb c (by simp)
        rw [← he.2.1] at hc
        exact absurd hc (by decide)

theorem matchHere_suspend (i : Nat) (rest : List Char) :
    matchHere [] (Binding.suspendPattern .c)
      ("suspend_state ".toList ++ '=' :: ' ' :: ("machine->states[".toList ++ (toString i).toList ++ ']' :: rest)) =
        some (toString i).toList.reverse := by
  have h₁ : matchHere [] [.literal "machine->states[".toList, .blanks, .digits, .blanks, .literal [']']]
      ("machine->states[".toList ++ ((toString i).toList ++ ']' :: rest)) = some (toString i).toList.reverse := by
    rw [matchHere_literal]
    exact matchHere_subscript i rest
  have h₂ : matchHere [] statePart
      ([' '] ++ ("machine->states[".toList ++ ((toString i).toList ++ ']' :: rest))) = some (toString i).toList.reverse :=
    matchHere_blanks (by decide) (by simp; decide) h₁
  have h₃ : matchHere [] (.literal ['='] :: statePart)
      (['='] ++ ([' '] ++ ("machine->states[".toList ++ ((toString i).toList ++ ']' :: rest)))) =
        some (toString i).toList.reverse := by
    rw [matchHere_literal]
    exact h₂
  have h₄ := matchHere_blanks (b := [' ']) (by decide) (by simp; decide) h₃
  have h₅ := (matchHere_literal [] "suspend_state".toList (.blanks :: .literal ['='] :: statePart) _).trans h₄
  rw [suspendPattern_eq]
  simpa [suspendParts] using h₅

/-- The assignment to the suspend state is found after text without equals signs. -/
theorem search_suspend_state {w : List Char} (hw : '=' ∉ w) (i : Nat) (rest : List Char) :
    search (Binding.suspendPattern .c)
      (w ++ (assignment "suspend_state" ("machine->states[" ++ toString i ++ "]")).toList ++ rest) =
        some (toString i).toList := by
  have hu : '=' ∉ w ++ "    machine->".toList ++ "suspend_state ".toList ++ [] := by simp [hw]
  have hlink : endsInk (w ++ "    machine->suspend_state".toList) = true := endsInk_append _ (by decide)
  have h := search_up_to_char (p := suspendParts) (q := statePart) (l := []) (c := '=')
    (w := w ++ "    machine->".toList) (a := "suspend_state ".toList)
    (v := ' ' :: ("machine->states[".toList ++ (toString i).toList ++ ']' :: (';' :: rest)))
    suspendParts_noEquals (by simp) hu fun a' ha' hs => by
      have hs' : a' <:+ w ++ "    machine->suspend_state".toList ++ [' '] := by simpa using hs
      simpa using (eq_of_suspendParts ha' hlink hs').1
  have hm := search_of_matchHere (matchHere_suspend i (';' :: rest))
  rw [List.append_nil, ← suspendPattern_eq, hm, List.reverse_reverse] at h
  rw [← h]
  unfold assignment
  simp

theorem search_noEquals {u : List Char} (hu : '=' ∉ u) : search (Binding.suspendPattern .c) u = none :=
  search_without_char (p := suspendParts) (q := statePart) (l := []) hu

/-- No suspend state is found where it is not set. -/
theorem search_null {w : List Char} (hw : '=' ∉ w) :
    search (Binding.suspendPattern .c) (w ++ (unlines (suspendLines none)).toList ++ "\x7d\n".toList) = none := by
  have hu : '=' ∉ w ++ "    machine->suspend_state ".toList := by simp [hw]
  have hnull := search_past_char (l := []) (u := w ++ "    machine->suspend_state ".toList)
    (v := " NULL;".toList ++ '\n' :: ((unlines [assignment "resume_state" "NULL"]).toList ++ "\x7d\n".toList))
    suspendParts_noEquals (by simp) hu fun _ held _ _ => search_past_null _ held
  obtain ⟨w', hw', hresume⟩ := search_past_assignments [assignment "resume_state" "NULL"]
    (fun l hl => ⟨_, _, List.mem_singleton.mp hl, harmless_resume⟩) (w := " NULL;\n".toList) (by simp)
    "\x7d\n".toList
  rw [search_noEquals (u := w' ++ "\x7d\n".toList) (by simp [hw'])] at hresume
  rw [← suspendPattern_eq] at hnull
  rw [← hresume, suspendLines, toList_unlines_cons]
  generalize (unlines [assignment "resume_state" "NULL"]).toList = t at hnull ⊢
  unfold assignment
  simpa using hnull

theorem search_suspend (h : PlainPlan m) :
    search (Binding.suspendPattern .c) (unlines (machineImplementation m)).toList =
      (if m.isSuspensible then m.suspendIndex else none).map fun i => (toString i).toList := by
  have htop : '=' ∉ (unlines (implementationTop m)).toList :=
    not_mem_unlines (by decide) fun l hl => free_implementationTop h l hl '=' (by simp)
  have hsplit : (unlines (machineImplementation m)).toList =
      (unlines (implementationTop m)).toList ++ (unlines (stateAssignments m)).toList ++
        ((unlines (onlyIf m.isSuspensible (suspendLines m.suspendIndex))).toList ++ "\x7d\n".toList) := by
    unfold machineImplementation
    rw [toList_unlines_append, toList_unlines_append, toList_unlines_append, List.append_assoc, List.append_assoc,
      toList_unlines_cons, List.append_assoc]
    simp [unlines]
  obtain ⟨w, hw, hpast⟩ := search_past_assignments _ (stateAssignments_harmless h) htop
    ((unlines (onlyIf m.isSuspensible (suspendLines m.suspendIndex))).toList ++ "\x7d\n".toList)
  rw [hsplit, hpast]
  cases hs : m.isSuspensible with
  | false =>
    rw [search_noEquals (by simp [hw, onlyIf, unlines])]
    rfl
  | true =>
    cases hi : m.suspendIndex with
    | none =>
      rw [onlyIf, if_pos rfl, ← List.append_assoc, search_null hw]
      rfl
    | some i =>
      have hit := search_suspend_state hw i
        ('\n' :: ((unlines [assignment "resume_state" "NULL"]).toList ++ "\x7d\n".toList))
      rw [onlyIf, if_pos rfl, suspendLines, toList_unlines_cons, if_pos rfl, Option.map_some, ← hit]
      simp

/-! ## Line ends -/

theorem free_numberLine (hm : Text.PlainText m.name) (hs : Text.PlainText s.name) {constant : String}
    (hc : Text.PlainText constant) (n : Nat) : Free ['\n', '\r'] (numberLine m s constant n) := by
  have hM : Text.PlainText m.constant := hm.constantName
  have hS : Text.PlainText s.constant := hs.constantName
  unfold numberLine constantStem
  refine free_append (free_append (free_append (free_append (free_append (free_append (free_append ?_ ?_) ?_) ?_) ?_) ?_)
    ?_) ?_
  all_goals with_reducible first
    | exact free_plain (by assumption) (by decide)
    | exact free_plain (.ofNat n) (by decide)
    | exact free_ofList _ (by decide)

theorem free_targetLines (hm : Text.PlainText m.name) (hs : Text.PlainText s.name) :
    ∀ l ∈ s.transitions.filterMap (targetLine? m s), Free ['\n', '\r'] l := by
  intro l hl
  obtain ⟨t, _, ht⟩ := List.mem_filterMap.mp hl
  obtain ⟨n, _, rfl⟩ := Option.map_eq_some_iff.mp ht
  exact free_numberLine hm hs (plain_targetLabel t.index) n

theorem free_stateHeader (hm : Text.PlainText m.name) (hs : Text.PlainText s.name) :
    ∀ l ∈ stateHeader m s, Free ['\n', '\r'] l := by
  have hM : Text.PlainText m.constant := hm.constantName
  have hS : Text.PlainText s.constant := hs.constantName
  have hm' : Text.PlainText m.lowerName := hm.lower
  have hs' : Text.PlainText s.lowerName := hs.lower
  have hcount := free_numberLine hm hs plain_countLabel s.transitions.length
  have htargets := free_targetLines hm hs
  unfold stateHeader stateHeaderTop stateStructure stateHeaderEnd banner
  simp only [List.forall_mem_append, List.forall_mem_cons, forall_mem_onlyIf, List.not_mem_nil, false_implies,
    implies_true, and_true, imp_and]
  and_intros
  all_goals try refine fun (_ : m.isSuspensible = true) => ?_
  all_goals with_reducible repeat first
    | exact hcount
    | exact htargets
    | exact free_ofList _ (by decide)
    | exact free_plain (by assumption) (by decide)
    | refine free_append ?_ ?_

theorem noReturn_stateHeader (hm : Text.PlainText m.name) (hs : Text.PlainText s.name) :
    '\r' ∉ (unlines (stateHeader m s)).toList :=
  not_mem_unlines (by decide) fun l hl => free_stateHeader hm hs l hl '\r' (by simp)

theorem free_assignment {member value : String} (hm : Free ['\n', '\r'] member) (hv : Free ['\n', '\r'] value) :
    Free ['\n', '\r'] (assignment member value) :=
  free_append (free_append (free_append (free_append (free_ofList _ (by decide)) hm) (free_ofList _ (by decide))) hv)
    (free_ofList _ (by decide))

theorem free_stateAssignments (h : PlainPlan m) : ∀ l ∈ stateAssignments m, Free ['\n', '\r'] l := by
  intro l hl
  unfold stateAssignments at hl
  rcases List.mem_append.mp hl with hl | hl
  · obtain ⟨i, hi, rfl⟩ := List.mem_mapIdx.mp hl
    have hs := h.states _ (List.getElem_mem hi)
    refine free_assignment (free_append (free_append (free_ofList _ (by decide)) (free_plain (.ofNat i) (by decide)))
      (free_ofList _ (by decide))) ?_
    exact free_append (free_append (free_append (free_append (free_ofList _ (by decide))
      (free_plain h.name.lower (by decide))) (free_ofList _ (by decide))) (free_plain hs.lower (by decide)))
      (free_ofList _ (by decide))
  · rcases List.mem_cons.mp hl with rfl | hl
    · exact free_assignment (free_ofList _ (by decide)) (free_ofList _ (by decide))
    · rw [List.mem_singleton] at hl
      subst hl
      exact free_assignment (free_ofList _ (by decide)) (free_ofList _ (by decide))

theorem free_suspendLines (index : Option Nat) : ∀ l ∈ suspendLines index, Free ['\n', '\r'] l := by
  intro l hl
  unfold suspendLines at hl
  rcases List.mem_cons.mp hl with rfl | hl
  · refine free_assignment (free_ofList _ (by decide)) ?_
    cases index with
    | none => exact free_ofList _ (by decide)
    | some i =>
      exact free_append (free_append (free_ofList _ (by decide)) (free_plain (.ofNat i) (by decide)))
        (free_ofList _ (by decide))
  · rw [List.mem_singleton] at hl
    subst hl
    exact free_assignment (free_ofList _ (by decide)) (free_ofList _ (by decide))

theorem free_machineImplementation (h : PlainPlan m) : ∀ l ∈ machineImplementation m, Free ['\n', '\r'] l := by
  unfold machineImplementation
  simp only [List.forall_mem_append, List.forall_mem_singleton, forall_mem_onlyIf]
  refine ⟨⟨⟨?_, free_stateAssignments h⟩, fun _ => free_suspendLines m.suspendIndex⟩, free_ofList _ (by decide)⟩
  exact fun l hl => (free_implementationTop h l hl).of_subset (by simp)

theorem noReturn_machineImplementation (h : PlainPlan m) : '\r' ∉ (unlines (machineImplementation m)).toList :=
  not_mem_unlines (by decide) fun l hl => free_machineImplementation h l hl '\r' (by simp)

theorem free_actionLines (hm : Text.PlainText m.name) (hs : Text.PlainText s.name) {function action : String}
    (hfunction : Text.PlainText function) (haction : Text.PlainText action) :
    ∀ l ∈ actionLines m s function action, Free ['\n', '\r'] l := by
  have hm' : Text.PlainText m.lowerName := hm.lower
  have hs' : Text.PlainText s.lowerName := hs.lower
  unfold actionLines functionStem
  simp only [List.forall_mem_cons, List.not_mem_nil, false_implies, implies_true, and_true]
  and_intros
  all_goals with_reducible repeat first
    | exact free_ofList _ (by decide)
    | exact free_plain (by assumption) (by decide)
    | refine free_append ?_ ?_

theorem free_guardLines (hs : Text.PlainText s.name) (t : TransitionPlan) :
    ∀ l ∈ guardLines s t, Free ['\n', '\r'] l := by
  have hi := Text.PlainText.ofNat t.index
  unfold guardLines
  simp only [List.forall_mem_cons, List.not_mem_nil, false_implies, implies_true, and_true]
  refine ⟨free_ofList _ (by decide), ?_, ?_⟩
  · with_reducible repeat first
      | exact free_ofList _ (by decide)
      | exact free_plain (by assumption) (by decide)
      | refine free_append ?_ ?_
  · cases t.target with
    | none => exact free_ofList _ (by decide)
    | some k =>
      exact free_append (free_append (free_ofList _ (by decide)) (free_plain (.ofNat k) (by decide)))
        (free_ofList _ (by decide))

theorem free_stateImplementation (hm : Text.PlainText m.name) (hs : Text.PlainText s.name) :
    ∀ l ∈ stateImplementation m s, Free ['\n', '\r'] l := by
  have hm' : Text.PlainText m.lowerName := hm.lower
  have hs' : Text.PlainText s.lowerName := hs.lower
  have hguards := free_guardLines hs
  unfold stateImplementation functionStem banner
  simp only [List.forall_mem_append, List.forall_mem_cons, List.forall_mem_flatMap, forall_mem_onlyIf, List.not_mem_nil,
    false_implies, implies_true, and_true, imp_and]
  and_intros
  all_goals try refine fun (_ : m.isSuspensible = true) => ?_
  all_goals with_reducible first
    | exact fun t _ => hguards t
    | exact free_actionLines hm hs (by decide) (by decide)
    | repeat first
      | exact free_ofList _ (by decide)
      | exact free_headerFile (by decide) hm
      | exact free_plain (by assumption) (by decide)
      | refine free_append ?_ ?_

end C

end MachineBundle.Source
