import MachineBundle.Proofs.Scan.Parameter
import MachineBundle.Proofs.Source.Tame
import MachineBundle.Source.ObjectiveCpp

/-!
# What is found in sources in Objective-C++

The word for the number of transitions occurs once in a state header, equals signs only where a parameter has a
default, and an opening bracket in the implementation of a machine only after the array of its states.
-/

namespace MachineBundle.Source

namespace ObjectiveCpp

open Scan

variable {m : MachinePlan} {s : StatePlan}

/-! ## Lines without a word -/

/-- Whether a word occurs nowhere in a line. -/
def Lacks (l : List Char) (line : String) : Prop :=
  ¬l <:+: line.toList

/-- A line without a word that can go on with a name, since the word does not hold the last character of the line. -/
def Parts (l : List Char) (line : String) : Prop :=
  Lacks l line ∧ ∀ c ∈ line.toList.getLast?, c ∉ l

/-- Whether a word occurs in a text. -/
def occurs (l : List Char) : List Char → Bool
  | [] => l.isEmpty
  | c :: cs => l.isPrefixOf (c :: cs) || occurs l cs

theorem not_infix_of_occurs {l cs : List Char} (h : occurs l cs = false) : ¬l <:+: cs := by
  induction cs with
  | nil =>
    intro hi
    rw [List.infix_nil.mp hi] at h
    cases h
  | cons c cs ih =>
    simp only [occurs, Bool.or_eq_false_iff] at h
    intro hi
    rcases List.infix_cons_iff.mp hi with hp | hi
    · rw [List.isPrefixOf_iff_prefix.mpr hp] at h
      cases h.1
    · exact ih h.2 hi

theorem lacks_ofList {l : List Char} (cs : List Char) (h : occurs l cs = false) : Lacks l (String.ofList cs) := by
  rw [Lacks, String.toList_ofList]
  exact not_infix_of_occurs h

theorem parts_ofList {l : List Char} (cs : List Char) (h : occurs l cs = false ∧ ∀ c ∈ cs.getLast?, c ∉ l) :
    Parts l (String.ofList cs) := by
  refine ⟨lacks_ofList cs h.1, ?_⟩
  rw [String.toList_ofList]
  exact h.2

theorem lacks_append {l : List Char} {a : String} (cs : List Char) (ha : Lacks l a)
    (h : occurs l cs = false ∧ ∀ c ∈ cs.head?, c ∉ l) : Lacks l (a ++ String.ofList cs) := by
  rw [Lacks, String.toList_append, String.toList_ofList]
  exact not_infix_append ha (not_infix_of_occurs h.1) (Or.inr h.2)

theorem parts_append {l : List Char} {a : String} (cs : List Char) (ha : Lacks l a)
    (h : (occurs l cs = false ∧ ∀ c ∈ cs.head?, c ∉ l) ∧ cs.getLast?.any (!l.contains ·) = true) :
    Parts l (a ++ String.ofList cs) := by
  refine ⟨lacks_append cs ha h.1, fun d hd => ?_⟩
  obtain ⟨c, hc, hcl⟩ := (Option.any_eq_true _ _).mp h.2
  rw [String.toList_append, String.toList_ofList, List.getLast?_append, hc] at hd
  cases hd
  simpa using hcl

theorem lacks_append_name {l : List Char} {a n : String} (ha : Parts l a) (hn : Lacks l n) : Lacks l (a ++ n) := by
  rw [Lacks, String.toList_append]
  exact not_infix_append ha.1 hn (Or.inl ha.2)

/-- A word of which no character occurs in a text does not occur there. -/
theorem not_infix_of_not_mem {c : Char} {l cs : List Char} (h : c ∉ cs) : ¬c :: l <:+: cs :=
  fun hi => h (hi.subset List.mem_cons_self)

theorem lacks_unlines {l : List Char} (hne : l ≠ []) (hl : '\n' ∉ l) {ls : List String} (h : ∀ x ∈ ls, Lacks l x) :
    ¬l <:+: (unlines ls).toList := by
  have hbreak : ¬l <:+: ['\n'] := by
    cases l with
    | nil => exact absurd rfl hne
    | cons c l => exact not_infix_of_not_mem (by simpa [eq_comm] using (List.ne_and_not_mem_of_not_mem_cons hl).1)
  induction ls with
  | nil => exact fun hi => hne (List.infix_nil.mp hi)
  | cons line ls ih =>
    rw [toList_unlines_cons]
    have ht := ih fun x hx => h x (List.mem_cons_of_mem line hx)
    refine not_infix_append (h line List.mem_cons_self) ?_ (Or.inr (by simpa using hl))
    exact not_infix_append (a := ['\n']) hbreak ht (Or.inl (by simpa using hl))

/-! ## The number of transitions -/

/-- The word in front of the number of transitions. -/
def countWord : List Char :=
  "numberOfTransitions".toList

theorem lacks_ofNat (n : Nat) : Lacks countWord (toString n) :=
  not_infix_of_not_mem fun h => absurd (isDigit_toString h) (by decide)

theorem lacks_actionClass {action : String} (h : Lacks countWord action) :
    ∀ l ∈ actionClass action, Lacks countWord l := by
  unfold actionClass
  simp only [List.forall_mem_cons, List.not_mem_nil, false_implies, implies_true, and_true]
  and_intros
  all_goals with_reducible repeat first
    | exact lacks_ofList _ (by decide)
    | exact parts_ofList _ (by decide)
    | refine lacks_append _ ?_ (by decide)
    | refine parts_append _ ?_ (by decide)
    | refine lacks_append_name ?_ (by assumption)

theorem lacks_stateHeaderTop (hm : Lacks countWord m.name) (hs : Lacks countWord s.name) :
    ∀ l ∈ stateHeaderTop m s, Lacks countWord l := by
  have haction : ∀ action ∈ ["OnEntry", "OnExit", "Internal", "OnSuspend", "OnResume"],
      ∀ l ∈ actionClass action, Lacks countWord l := by
    simp only [List.forall_mem_cons, List.not_mem_nil, false_implies, implies_true, and_true]
    and_intros
    all_goals exact lacks_actionClass (lacks_ofList _ (by decide))
  unfold stateHeaderTop banner
  simp only [forall_mem_onlyIf, List.forall_mem_append, List.forall_mem_cons, List.not_mem_nil, false_implies,
    implies_true, and_true, imp_and, ← String.append_assoc]
  and_intros
  all_goals with_reducible repeat first
    | exact haction _ (by simp)
    | exact fun _ => haction _ (by simp)
    | exact lacks_ofList _ (by decide)
    | exact fun _ => lacks_ofList _ (by decide)
    | exact parts_ofList _ (by decide)
    | refine lacks_append _ ?_ (by decide)
    | refine parts_append _ ?_ (by decide)
    | refine lacks_append_name ?_ (by assumption)

theorem lacks_transitionClass (t : TransitionPlan) : ∀ l ∈ transitionClass t, Lacks countWord l := by
  have hi := lacks_ofNat t.index
  have hp : Lacks countWord (targetParameter t.target) := by
    cases ht : t.target with
    | none => exact lacks_ofList _ (by decide)
    | some n => exact lacks_append_name (parts_ofList _ (by decide)) (lacks_ofNat n)
  unfold transitionClass transitionConstructor
  simp only [List.forall_mem_cons, List.not_mem_nil, false_implies, implies_true, and_true]
  and_intros
  all_goals with_reducible repeat first
    | exact lacks_ofList _ (by decide)
    | exact parts_ofList _ (by decide)
    | refine lacks_append _ ?_ (by decide)
    | refine parts_append _ ?_ (by decide)
    | refine lacks_append_name ?_ (by assumption)

theorem lacks_stateMethods (hs : Lacks countWord s.name) : ∀ l ∈ stateMethods s, Lacks countWord l := by
  have hn := lacks_ofNat (max s.transitions.length 1)
  unfold stateMethods
  simp only [List.forall_mem_cons, List.not_mem_nil, false_implies, implies_true, and_true]
  and_intros
  all_goals with_reducible repeat first
    | exact lacks_ofList _ (by decide)
    | exact parts_ofList _ (by decide)
    | refine lacks_append _ ?_ (by decide)
    | refine parts_append _ ?_ (by decide)
    | refine lacks_append_name ?_ (by assumption)

/-- The line of the number from the word in front of it, and what comes after. -/
def returned (n : Nat) (rest : List Char) : List Char :=
  "return".toList ++ ([' '] ++ ((toString n).toList ++ ("; \x7d".toList ++ '\n' :: rest)))

theorem matchHere_returned (n : Nat) (rest : List Char) :
    matchHere [] [.literal "return".toList, .blanks, .digits] (returned n rest) = some (toString n).toList.reverse := by
  rw [returned, matchHere_literal]
  exact matchHere_number (by decide) (Text.toString_ne_nil n) (fun _ hc => isDigit_toString hc) (by simp; decide) rfl

/-- In the line of the number, the word in front of it does not come again. -/
theorem returned_once {n : Nat} {rest v w : List Char} (h : returned n rest = v ++ w) (hv : v ≠ []) (hline : '\n' ∉ v) :
    matchHere [] [.literal "return".toList, .blanks, .digits] w = none := by
  cases hm : matchHere [] [.literal "return".toList, .blanks, .digits] w with
  | none => rfl
  | some ds =>
    obtain ⟨z, rfl, _⟩ := matchHere_literal_eq_some hm
    cases v with
    | nil => exact absurd rfl hv
    | cons c v =>
      have hafter : ¬"return".toList <:+: "eturn ".toList ++ (toString n).toList ++ "; \x7d".toList := by
        refine not_infix_append (not_infix_append (by decide) ?_ (Or.inl (by decide))) (by decide)
          (Or.inr (by decide))
        exact not_infix_of_not_mem fun h => absurd (isDigit_toString h) (by decide)
      have hsame : '\n' ∉ v ++ "return".toList := by simpa using fun h => hline (List.mem_cons_of_mem c h)
      have he : "eturn ".toList ++ (toString n).toList ++ "; \x7d".toList ++ '\n' :: rest =
          v ++ "return".toList ++ z := by
        have htail := congrArg List.tail h
        simpa [returned] using htail
      rcases List.append_eq_append_iff.mp he with ⟨w, hw, hz⟩ | ⟨w, hw, _⟩
      · cases w with
        | nil => exact absurd ⟨v, [], by simpa using hw⟩ hafter
        | cons d w =>
          rw [List.cons_append, List.cons.injEq] at hz
          rw [hw, ← hz.1] at hsame
          simp at hsame
      · exact absurd ⟨v, w, hw.symm⟩ hafter

theorem matchHere_return (n : Nat) (rest : List Char) :
    matchHere [] (Binding.countPattern .objectiveCpp)
      ("numberOfTransitions() const \x7b return ".toList ++ (toString n).toList ++ "; \x7d".toList ++ '\n' :: rest) =
        some (toString n).toList.reverse := by
  have hline : matchHere [] [.restOfLine, .literal "return".toList, .blanks, .digits]
      ("() const \x7b ".toList ++ returned n rest) = some (toString n).toList.reverse :=
    matchHere_restOfLine (by simp) (matchHere_returned n rest) fun _ _ => returned_once
  have hword := (matchHere_literal [] "numberOfTransitions".toList
    [.restOfLine, .literal "return".toList, .blanks, .digits] _).trans hline
  simpa [Binding.countPattern, returned] using hword

theorem search_count (hm : Lacks countWord m.name) (hs : Lacks countWord s.name) :
    search (Binding.countPattern .objectiveCpp) (unlines (stateHeader m s)).toList =
      some (toString s.transitions.length).toList := by
  have hword : countWord ≠ [] ∧ '\n' ∉ countWord := by decide
  have hbefore : ¬countWord <:+: (unlines (stateHeaderTop m s ++ s.transitions.flatMap transitionClass ++
      stateMethods s)).toList ++ "                    virtual int ".toList := by
    refine not_infix_append (lacks_unlines hword.1 hword.2 ?_) (by decide) (Or.inr (by decide))
    simp only [List.forall_mem_append]
    refine ⟨⟨lacks_stateHeaderTop hm hs, ?_⟩, lacks_stateMethods hs⟩
    intro l hl
    obtain ⟨t, _, ht⟩ := List.mem_flatMap.mp hl
    exact lacks_transitionClass t l ht
  have hsplit : (unlines (stateHeader m s)).toList = (unlines (stateHeaderTop m s ++
      s.transitions.flatMap transitionClass ++ stateMethods s)).toList ++ "                    virtual int ".toList ++
        ("numberOfTransitions() const \x7b return ".toList ++ (toString s.transitions.length).toList ++ "; \x7d".toList ++
          '\n' :: (unlines (stateHeaderEnd s)).toList) := by
    unfold stateHeader
    rw [List.append_assoc _ [countLine s], toList_unlines_append _ ([countLine s] ++ stateHeaderEnd s),
      List.singleton_append, toList_unlines_cons]
    unfold countLine
    simp
  have hlast : ∀ c ∈ ((unlines (stateHeaderTop m s ++ s.transitions.flatMap transitionClass ++
      stateMethods s)).toList ++ "                    virtual int ".toList).getLast?, c ∉ countWord := by
    rw [getLast?_of_suffix (List.suffix_append _ _) (c := ' ') (by decide)]
    decide
  have h := search_up_to_word (p := [.restOfLine, .literal "return".toList, .blanks, .digits]) hbefore hlast
    (v := "numberOfTransitions() const \x7b return ".toList ++ (toString s.transitions.length).toList ++
      "; \x7d".toList ++ '\n' :: (unlines (stateHeaderEnd s)).toList)
  have hp : Binding.countPattern .objectiveCpp =
      .literal countWord :: [.restOfLine, .literal "return".toList, .blanks, .digits] := rfl
  rw [← hp, search_of_matchHere (matchHere_return _ _), List.reverse_reverse] at h
  rw [hsplit, h]

/-! ## Targets -/

theorem free_stateHeaderTop (hm : Text.PlainText m.name) (hs : Text.PlainText s.name) :
    ∀ l ∈ stateHeaderTop m s, Free ['=', '\n', '\r'] l := by
  have haction : ∀ action ∈ ["OnEntry", "OnExit", "Internal", "OnSuspend", "OnResume"],
      ∀ l ∈ actionClass action, Free ['=', '\n', '\r'] l := by
    unfold actionClass
    simp only [List.forall_mem_cons, List.not_mem_nil, false_implies, implies_true, and_true]
    and_intros
    all_goals with_reducible repeat first
      | exact free_ofList _ (by decide)
      | refine free_append ?_ ?_
  unfold stateHeaderTop banner
  simp only [forall_mem_onlyIf, List.forall_mem_append, List.forall_mem_cons, List.not_mem_nil, false_implies,
    implies_true, and_true, imp_and]
  and_intros
  all_goals with_reducible repeat first
    | exact haction _ (by simp)
    | exact fun _ => haction _ (by simp)
    | exact free_ofList _ (by decide)
    | exact fun _ => free_ofList _ (by decide)
    | exact free_plain (by assumption) (by decide)
    | refine free_append ?_ ?_

/-- The methods of a state after its constructor, which has a default of its own. -/
theorem free_stateHeaderEnd (hs : Text.PlainText s.name) :
    ∀ l ∈ countLine s :: stateHeaderEnd s, Free ['=', '\n', '\r'] l := by
  have hn := Text.PlainText.ofNat s.transitions.length
  unfold countLine stateHeaderEnd
  simp only [List.forall_mem_cons, List.not_mem_nil, false_implies, implies_true, and_true]
  and_intros
  all_goals with_reducible repeat first
    | exact free_ofList _ (by decide)
    | exact free_plain (by assumption) (by decide)
    | refine free_append ?_ ?_

/-- The declaration of a transition up to the line of its constructor. -/
def classStart (t : TransitionPlan) : List Char :=
  ("\n                class Transition_" ++ toString t.index ++
    ": public CLTransition\n                \x7b\n                public:").toList

/-- What comes after that line. -/
def classEnd : List Char :=
  "\n                    virtual bool check(CLMachine *, CLState *) const;\n                \x7d;\n".toList

theorem toList_transitionClass (t : TransitionPlan) :
    (unlines (transitionClass t)).toList =
      classStart t ++ '\n' :: ((transitionConstructor t).toList ++ '\n' :: classEnd) := by
  unfold transitionClass classStart classEnd
  generalize transitionConstructor t = c
  simp only [toList_unlines_cons]
  simp [unlines]

theorem classStart_noEquals (t : TransitionPlan) : '=' ∉ classStart t := by
  have h : Free ['='] ("\n                class Transition_" ++ toString t.index ++
      ": public CLTransition\n                \x7b\n                public:") :=
    free_append (free_append (free_ofList _ (by decide)) (free_plain (.ofNat t.index) (by decide)))
      (free_ofList _ (by decide))
  exact h '=' (by simp)

theorem classEnd_noEquals : '=' ∉ classEnd := by
  unfold classEnd
  simp

/-- The blanks in front of a constructor. -/
def margin : List Char :=
  List.replicate 20 ' '

theorem toList_constructor (t : TransitionPlan) {n : Nat} (h : t.target = some n) :
    (transitionConstructor t).toList = margin ++ (parameterStart t.index ++
      ' ' :: '=' :: ' ' :: ((toString n).toList ++ "): CLTransition(toState) \x7b\x7d".toList)) := by
  unfold transitionConstructor targetParameter
  rw [h]
  simp [margin, parameterStart, className]

theorem free_constructor (t : TransitionPlan) (h : t.target = none) : '=' ∉ (transitionConstructor t).toList := by
  have hf : Free ['='] (transitionConstructor t) := by
    unfold transitionConstructor targetParameter
    rw [h]
    exact free_append (free_append (free_append (free_append (free_ofList _ (by decide))
      (free_plain (.ofNat t.index) (by decide))) (free_ofList _ (by decide))) (free_ofList _ (by decide)))
      (free_ofList _ (by decide))
  exact hf '=' (by simp)

/-- The line of a constructor ends without another parameter. -/
theorem closes_constructor (n : Nat) :
    Closes (' ' :: ((toString n).toList ++ "): CLTransition(toState) \x7b\x7d".toList)) where
  noEquals := by
    have hn := Text.PlainText.not_mem (.ofNat n) (c := '=') (by decide)
    rw [List.mem_cons, List.mem_append, not_or, not_or]
    exact ⟨by decide, hn, by simp⟩
  last := by
    rw [← List.cons_append, getLast?_of_suffix (List.suffix_append _ _) (c := '\x7d') (by decide)]
    decide

/-- The target of a transition is found in its constructor. -/
theorem search_in_transition {t : TransitionPlan} {n : Nat} (ht : t.target = some n) {w : List Char} (hw : '=' ∉ w)
    (tail : List Char) :
    search (Binding.targetPattern t.index .objectiveCpp) (w ++ (unlines (transitionClass t)).toList ++ tail) =
      some (toString n).toList := by
  have hstart : '=' ∉ w ++ classStart t := by simp [hw, classStart_noEquals]
  have h := search_parameter (k := t.index) (w := w ++ classStart t) (s := margin) (n := (toString n).toList)
    (g := "): CLTransition(toState) \x7b\x7d".toList) (r := classEnd ++ tail) hstart (by decide) (by decide)
    (Text.toString_ne_nil n) (fun c hc => isDigit_toString hc) (by simp; decide) (by simp) (closes_constructor n)
  rw [toList_transitionClass, toList_constructor t ht]
  simpa using h

/-- Other transitions, and those without a target, are passed over. -/
theorem search_past_transition {k : Nat} {t : TransitionPlan} (hk : t.index = k → t.target = none) {w : List Char}
    (hw : '=' ∉ w) (tail : List Char) : ∃ w', '=' ∉ w' ∧
      search (Binding.targetPattern k .objectiveCpp) (w ++ (unlines (transitionClass t)).toList ++ tail) =
        search (Binding.targetPattern k .objectiveCpp) (w' ++ tail) := by
  rw [toList_transitionClass]
  cases ht : t.target with
  | none =>
    refine ⟨w ++ (classStart t ++ '\n' :: ((transitionConstructor t).toList ++ '\n' :: classEnd)), ?_, rfl⟩
    have hc := free_constructor t ht
    simp only [List.mem_append, List.mem_cons, not_or]
    exact ⟨hw, classStart_noEquals t, by decide, hc, by decide, classEnd_noEquals⟩
  | some n =>
    have hother : t.index ≠ k := by
      intro he
      rw [hk he] at ht
      cases ht
    have hstart : '=' ∉ w ++ classStart t := by simp [hw, classStart_noEquals]
    have h := search_past_parameter (j := t.index) (k := k) (w := w ++ classStart t) (s := margin)
      (r := classEnd ++ tail) hstart (by decide) (by decide) hother (closes_constructor n)
    refine ⟨' ' :: ((toString n).toList ++ "): CLTransition(toState) \x7b\x7d".toList) ++ '\n' :: classEnd, ?_, ?_⟩
    · rw [List.mem_append, not_or]
      exact ⟨(closes_constructor n).noEquals, List.not_mem_cons_of_ne_of_not_mem (by decide) classEnd_noEquals⟩
    · rw [toList_constructor t ht]
      simpa using h

/-- The declarations of a state up to the constructor. -/
def methodsStart (s : StatePlan) : List String :=
  ["",
    "                CLTransition *_transitions[" ++ toString (max s.transitions.length 1) ++ "];",
    "",
    "                public:"]

/-- What comes after the equals sign in the constructor. -/
def nameEnd (s : StatePlan) : String :=
  " \"" ++ s.name ++ "\");"

/-- The methods after the constructor. -/
def methodsEnd (s : StatePlan) : List String :=
  ["                    virtual ~" ++ s.name ++ "();",
    "",
    "                    virtual CLTransition * const *transitions() const \x7b return _transitions; \x7d"]

theorem toList_stateMethods (s : StatePlan) :
    (unlines (stateMethods s)).toList = (unlines (methodsStart s)).toList ++
      ("                    " ++ s.name ++ "(const char *name").toList ++ [' '] ++
        '=' :: ((nameEnd s).toList ++ '\n' :: (unlines (methodsEnd s)).toList) := by
  have hline : "                    " ++ s.name ++ "(const char *name = \"" ++ s.name ++ "\");" =
      "                    " ++ s.name ++ "(const char *name" ++ " =" ++ (" \"" ++ s.name ++ "\");") := by
    rw [← String.toList_inj]
    simp
  unfold stateMethods methodsStart methodsEnd nameEnd
  rw [hline]
  simp only [toList_unlines_cons, String.toList_append]
  simp [unlines]

theorem free_methodsStart (s : StatePlan) : ∀ l ∈ methodsStart s, Free ['=', '\n', '\r'] l := by
  have hn := Text.PlainText.ofNat (max s.transitions.length 1)
  unfold methodsStart
  simp only [List.forall_mem_cons, List.not_mem_nil, false_implies, implies_true, and_true]
  and_intros
  all_goals with_reducible repeat first
    | exact free_ofList _ (by decide)
    | exact free_plain (by assumption) (by decide)
    | refine free_append ?_ ?_

theorem free_methodsEnd (hs : Text.PlainText s.name) : ∀ l ∈ methodsEnd s, Free ['=', '\n', '\r'] l := by
  unfold methodsEnd
  simp only [List.forall_mem_cons, List.not_mem_nil, false_implies, implies_true, and_true]
  and_intros
  all_goals with_reducible repeat first
    | exact free_ofList _ (by decide)
    | exact free_plain (by assumption) (by decide)
    | refine free_append ?_ ?_

theorem free_nameEnd (hs : Text.PlainText s.name) : Free ['=', '\n', '\r'] (nameEnd s) :=
  free_append (free_append (free_ofList _ (by decide)) (free_plain hs (by decide))) (free_ofList _ (by decide))

theorem closes_nameEnd (hs : Text.PlainText s.name) : Closes (nameEnd s).toList where
  noEquals := free_nameEnd hs '=' (by simp)
  last := by
    unfold nameEnd
    rw [String.toList_append, getLast?_of_suffix (List.suffix_append _ _) (c := ';') (by decide)]
    decide

/-- The parameter of a state's constructor is no target. -/
theorem not_fits_name {k : Nat} {u a bs : List Char} (hf : Fits k a bs) :
    ¬className k ++ a ++ bs <:+ u ++ "(const char *name".toList ++ [' '] := by
  rintro ⟨x, hx⟩
  obtain ⟨y, hy⟩ := hf.parameter
  have hl : ∀ z : List Char, (z ++ "toState".toList).getLast? = some 'e' := fun z =>
    getLast?_of_suffix (List.suffix_append _ _) (by decide)
  have hr : (u ++ "(const char *name".toList).getLast? = some 'e' :=
    getLast?_of_suffix (List.suffix_append _ _) (by decide)
  have he : Text.isBlank 'e' = false := by decide
  have hx' : (x ++ className k ++ y ++ "toState".toList) ++ bs = u ++ "(const char *name".toList ++ [' '] := by
    rw [← hx, ← hy]
    simp
  have h := (append_blanks_inj (by simpa only [hl, Option.mem_def, Option.some.injEq, forall_eq'] using he)
    (by simpa only [hr, Option.mem_def, Option.some.injEq, forall_eq'] using he) hf.blank (by decide) hx').1
  have h' : (x ++ className k ++ y ++ "toSt".toList) ++ "ate".toList = u ++ "(const char *n".toList ++ "ame".toList := by
    simpa using h
  exact absurd (List.append_inj' h' (by simp)).2 (by decide)

/-- After the transitions there is no target. -/
theorem search_stateMethods (hs : Text.PlainText s.name) (k : Nat) {w : List Char} (hw : '=' ∉ w) :
    search (Binding.targetPattern k .objectiveCpp)
      (w ++ (unlines (stateMethods s ++ countLine s :: stateHeaderEnd s)).toList) = none := by
  have hstart : '=' ∉ (unlines (methodsStart s)).toList :=
    not_mem_unlines (by decide) fun l hl => free_methodsStart s l hl '=' (by simp)
  have hname : Free ['='] ("                    " ++ s.name) :=
    free_append (free_ofList _ (by decide)) (free_plain hs (by decide))
  have hend : '=' ∉ (unlines (methodsEnd s ++ countLine s :: stateHeaderEnd s)).toList := by
    refine not_mem_unlines (by decide) ?_
    rw [List.forall_mem_append]
    exact ⟨fun l hl => free_methodsEnd hs l hl '=' (by simp), fun l hl => free_stateHeaderEnd hs l hl '=' (by simp)⟩
  have hu : '=' ∉ w ++ (unlines (methodsStart s)).toList ++ ("                    " ++ s.name).toList ++
      "(const char *name".toList ++ [' '] := by
    simp only [List.mem_append, not_or]
    exact ⟨⟨⟨⟨hw, hstart⟩, hname '=' (by simp)⟩, by simp⟩, by decide⟩
  have hpast := search_past_equals (k := k) (r := (unlines (methodsEnd s ++ countLine s :: stateHeaderEnd s)).toList)
    hu (closes_nameEnd hs) fun a bs hf => not_fits_name hf
  have hnone : '=' ∉ (nameEnd s).toList ++ '\n' :: (unlines (methodsEnd s ++ countLine s :: stateHeaderEnd s)).toList := by
    rw [List.mem_append, not_or]
    exact ⟨free_nameEnd hs '=' (by simp), List.not_mem_cons_of_ne_of_not_mem (by decide) hend⟩
  rw [search_without_equals hnone] at hpast
  rw [← hpast, toList_unlines_append, toList_stateMethods, toList_unlines_append]
  simp only [String.toList_append, List.append_assoc, List.cons_append]

theorem search_target (hm : Text.PlainText m.name) (hs : Text.PlainText s.name) (k : Nat) :
    search (Binding.targetPattern k .objectiveCpp) (unlines (stateHeader m s)).toList =
      (targetAt k s.transitions).map fun n => (toString n).toList := by
  have htop : '=' ∉ (unlines (stateHeaderTop m s)).toList :=
    not_mem_unlines (by decide) fun l hl => free_stateHeaderTop hm hs l hl '=' (by simp)
  have hsplit : (unlines (stateHeader m s)).toList = (unlines (stateHeaderTop m s)).toList ++
      (unlines (s.transitions.flatMap transitionClass)).toList ++
        (unlines (stateMethods s ++ countLine s :: stateHeaderEnd s)).toList := by
    unfold stateHeader
    simp only [toList_unlines_append, List.append_assoc, List.singleton_append]
  rw [hsplit]
  refine search_transitions (P := fun w => '=' ∉ w) ?_ ?_ (fun w hw => search_stateMethods hs k hw) s.transitions htop
  · rintro t n w tail rfl ht hw
    exact search_in_transition ht hw tail
  · exact fun t w tail hk hw => search_past_transition hk hw tail

/-! ## The suspend state -/

/-- What the statement for the suspend state begins with. -/
def suspendParts : Pattern :=
  [.literal "setSuspendState(".toList, .blanks]

/-- What it ends in. -/
def statePart : Pattern :=
  [.blanks, .digits, .blanks, .literal [']']]

/-- The array of states. -/
def statesWord : List Char :=
  "_states".toList

theorem statesWord_eq : statesWord = "_states".toList := rfl

theorem suspendPattern_eq :
    Binding.suspendPattern .objectiveCpp = suspendParts ++ .literal (statesWord ++ ['[']) :: statePart := rfl

theorem suspendParts_eq {a : List Char} (h : Accepts suspendParts a) :
    ∃ bs, a = "setSuspendState(".toList ++ bs ∧ ∀ c ∈ bs, Text.isBlank c = true := by
  obtain ⟨_, _, rfl, rfl, bs, _, rfl, hb, rfl⟩ := h
  exact ⟨bs, by simp, hb⟩

theorem suspendParts_noBracket : ∀ a, Accepts suspendParts a → '[' ∉ a := by
  intro a h
  obtain ⟨bs, rfl, hb⟩ := suspendParts_eq h
  rw [List.mem_append, not_or]
  exact ⟨by simp, fun hm => absurd (hb _ hm) (by decide)⟩

theorem statesWord_noBracket : '[' ∉ statesWord := by
  decide

/-- The last character of a text that is no blank. -/
def lastInk? (cs : List Char) : Option Char :=
  (cs.reverse.dropWhile Text.isBlank).head?

theorem lastInk?_append {a b : List Char} {c : Char} (h : lastInk? b = some c) : lastInk? (a ++ b) = some c := by
  unfold lastInk? at h ⊢
  rw [List.reverse_append, List.dropWhile_append]
  cases hd : b.reverse.dropWhile Text.isBlank with
  | nil =>
    rw [hd] at h
    cases h
  | cons d ds =>
    rw [hd] at h
    exact h

theorem lastInk?_append_blanks {a bs : List Char} (h : ∀ c ∈ bs, Text.isBlank c = true) :
    lastInk? (a ++ bs) = lastInk? a := by
  unfold lastInk?
  rw [List.reverse_append, List.dropWhile_append_of_pos fun c hc => h c (List.mem_reverse.mp hc)]

/-- The parts fit only after an opening parenthesis. -/
theorem lastInk?_of_suspendParts {a u : List Char} (ha : Accepts suspendParts a) (hs : a <:+ u) :
    lastInk? u = some '(' := by
  obtain ⟨bs, rfl, hb⟩ := suspendParts_eq ha
  obtain ⟨x, rfl⟩ := hs
  rw [← List.append_assoc, lastInk?_append_blanks hb]
  exact lastInk?_append (by decide)

/-- A line with one of the states in it, but not after an opening parenthesis. -/
def Mentions (l : String) : Prop :=
  ∃ (start : String) (i : Nat) (rest : String), l = start ++ "_states[" ++ toString i ++ rest ∧
    '[' ∉ start.toList ∧ (∀ w, lastInk? w ≠ some '(' → lastInk? (w ++ start.toList) ≠ some '(') ∧
    '[' ∉ rest.toList ∧ ∃ c, lastInk? rest.toList = some c ∧ c ≠ '('

theorem search_past_states {w v : List Char} (hw : '[' ∉ w) (hi : lastInk? w ≠ some '(') :
    search (Binding.suspendPattern .objectiveCpp) (w ++ statesWord ++ '[' :: v) =
      search (Binding.suspendPattern .objectiveCpp) v := by
  have hu : '[' ∉ w ++ statesWord := by
    rw [List.mem_append, not_or]
    exact ⟨hw, statesWord_noBracket⟩
  rw [suspendPattern_eq]
  refine search_past_char suspendParts_noBracket statesWord_noBracket hu fun a held ha hs => ?_
  obtain ⟨x, hx⟩ := hs
  have hs' : a <:+ w := ⟨x, by
    rw [← List.append_assoc] at hx
    exact List.append_cancel_right hx⟩
  exact absurd (lastInk?_of_suspendParts ha hs') hi

/-- Lines that mention states are passed over. -/
theorem search_past_mentions {ls : List String} (h : ∀ l ∈ ls, Mentions l) {w : List Char} (hw : '[' ∉ w)
    (hi : lastInk? w ≠ some '(') (tail : List Char) :
    ∃ w', '[' ∉ w' ∧ lastInk? w' ≠ some '(' ∧
      search (Binding.suspendPattern .objectiveCpp) (w ++ (unlines ls).toList ++ tail) =
        search (Binding.suspendPattern .objectiveCpp) (w' ++ tail) := by
  induction ls generalizing w with
  | nil => exact ⟨w, hw, hi, by simp [unlines]⟩
  | cons l ls ih =>
    obtain ⟨start, i, rest, rfl, hstart, hink, hrest, c, hc, hne⟩ := h l List.mem_cons_self
    have hu : '[' ∉ w ++ start.toList := by
      rw [List.mem_append, not_or]
      exact ⟨hw, hstart⟩
    have hpast := search_past_states (v := (toString i).toList ++ rest.toList ++ '\n' :: (unlines ls).toList ++ tail)
      hu (hink w hi)
    have hd : '[' ∉ (toString i).toList := fun hm => absurd (isDigit_toString hm) (by decide)
    have hw' : '[' ∉ (toString i).toList ++ rest.toList ++ ['\n'] := by
      simp only [List.mem_append, List.mem_singleton, not_or]
      exact ⟨⟨hd, hrest⟩, by decide⟩
    have hi' : lastInk? ((toString i).toList ++ rest.toList ++ ['\n']) ≠ some '(' := by
      rw [lastInk?_append_blanks (by decide), lastInk?_append hc]
      simpa using hne
    obtain ⟨w', hw'', hi'', h'⟩ := ih (fun l hl => h l (List.mem_cons_of_mem _ hl)) hw' hi'
    refine ⟨w', hw'', hi'', ?_⟩
    rw [← h', toList_unlines_cons]
    simpa [statesWord_eq] using hpast

theorem free_implementationTop (h : PlainPlan m) : ∀ l ∈ implementationTop m, Free ['[', '\n', '\r'] l := by
  have hm : Text.PlainText m.name := h.name
  have hs : ∀ s ∈ m.states, Free ['[', '\n', '\r'] ("#include \"State_" ++ s.name ++ ".h\"") := fun s hs =>
    free_append (free_append (free_ofList _ (by decide)) (free_plain (h.states s hs) (by decide)))
      (free_ofList _ (by decide))
  unfold implementationTop banner
  simp only [List.forall_mem_append, List.forall_mem_cons, List.forall_mem_map, List.not_mem_nil, false_implies,
    implies_true, and_true]
  refine ⟨⟨⟨?_, ?_⟩, hs⟩, ?_⟩
  and_intros
  all_goals with_reducible repeat first
    | exact free_ofList _ (by decide)
    | exact free_headerFile (by decide) hm
    | exact free_implementationFile (by decide) hm
    | exact free_plain (by assumption) (by decide)
    | refine free_append ?_ ?_

theorem mentions_stateCreations (h : PlainPlan m) : ∀ l ∈ stateCreations m, Mentions l := by
  intro l hl
  unfold stateCreations at hl
  obtain ⟨i, hi, rfl⟩ := List.mem_mapIdx.mp hl
  have hs := h.states _ (List.getElem_mem hi)
  have hm := h.name
  refine ⟨"    ", i, "] = new FSM" ++ m.name ++ "::State::" ++ m.states[i].name ++ ";", ?_, by decide, ?_, ?_, ';', ?_,
    by decide⟩
  · rw [← String.toList_inj]
    simp
  · intro w hw
    rwa [lastInk?_append_blanks (by decide)]
  · have hf : Free ['['] ("] = new FSM" ++ m.name ++ "::State::" ++ m.states[i].name ++ ";") :=
      free_append (free_append (free_append (free_append (free_ofList _ (by decide)) (free_plain hm (by decide)))
        (free_ofList _ (by decide))) (free_plain hs (by decide))) (free_ofList _ (by decide))
    exact hf '[' (by simp)
  · rw [String.toList_append]
    exact lastInk?_append (by decide)

theorem mentions_deletions (m : MachinePlan) :
    ∀ l ∈ m.states.mapIdx (fun i _ => "    delete _states[" ++ toString i ++ "];"), Mentions l := by
  intro l hl
  obtain ⟨i, _, rfl⟩ := List.mem_mapIdx.mp hl
  refine ⟨"    delete ", i, "];", ?_, by decide, ?_, by decide, ';', by decide, by decide⟩
  · rw [← String.toList_inj]
    simp
  · intro w _
    rw [lastInk?_append (c := 'e') (by decide)]
    decide

/-- The parts that end in front of an opening parenthesis hold no blanks. -/
theorem eq_of_suspendParts {a u : List Char} (ha : Accepts suspendParts a) (hs : a <:+ u ++ ['(']) :
    a = "setSuspendState(".toList := by
  obtain ⟨bs, rfl, hb⟩ := suspendParts_eq ha
  rcases List.eq_nil_or_concat bs with rfl | ⟨bs', b, rfl⟩
  · exact List.append_nil _
  · have hlast := getLast?_of_suffix hs (c := b) (by rw [List.concat_eq_append, List.getLast?_append]; simp)
    rw [List.getLast?_concat] at hlast
    cases hlast
    exact absurd (hb '(' (by rw [List.concat_eq_append]; simp)) (by decide)

/-- The statement for the initial state is passed over. -/
theorem search_past_initial {w v : List Char} (hw : '[' ∉ w) :
    search (Binding.suspendPattern .objectiveCpp) (w ++ "    setInitialState(".toList ++ statesWord ++ '[' :: v) =
      search (Binding.suspendPattern .objectiveCpp) v := by
  have hu : '[' ∉ w ++ "    setInitialState(".toList ++ statesWord := by
    simp only [List.mem_append, not_or]
    exact ⟨⟨hw, by simp⟩, statesWord_noBracket⟩
  rw [suspendPattern_eq]
  refine search_past_char suspendParts_noBracket statesWord_noBracket hu fun a held ha hs => ?_
  obtain ⟨x, hx⟩ := hs
  have hx' : x ++ a = w ++ "    setInitialState(".toList := by
    rw [← List.append_assoc] at hx
    exact List.append_cancel_right hx
  have haeq := eq_of_suspendParts (u := w ++ "    setInitialState".toList) ha ⟨x, by rw [hx']; simp⟩
  subst haeq
  have hends : (x ++ "setSuspe".toList) ++ "ndState(".toList = (w ++ "    setIniti".toList) ++ "alState(".toList := by
    simpa using hx'
  exact absurd (List.append_inj' hends (by simp)).2 (by decide)

/-- What comes after the suspend state mentions states, but no suspend state. -/
theorem search_implementationEnd (h : PlainPlan m) {w : List Char} (hw : '[' ∉ w) :
    search (Binding.suspendPattern .objectiveCpp) (w ++ (unlines (implementationEnd m)).toList) = none := by
  have hm := h.name
  have hbetween : Free ['['] ("0]);            // set initial state\n\x7d\n\n" ++ m.name ++ "::~" ++ m.name ++ "()\n\x7b\n") :=
    free_append (free_append (free_append (free_append (free_ofList _ (by decide)) (free_plain hm (by decide)))
      (free_ofList _ (by decide))) (free_plain hm (by decide))) (free_ofList _ (by decide))
  have hink : lastInk?
      ("0]);            // set initial state\n\x7d\n\n" ++ m.name ++ "::~" ++ m.name ++ "()\n\x7b\n").toList = some '\x7b' := by
    rw [String.toList_append]
    exact lastInk?_append (by decide)
  have hpast := search_past_initial hw (v := ("0]);            // set initial state\n\x7d\n\n" ++ m.name ++ "::~" ++
    m.name ++ "()\n\x7b\n").toList ++
      (unlines (m.states.mapIdx fun i _ => "    delete _states[" ++ toString i ++ "];")).toList ++ "\x7d\n".toList)
  obtain ⟨w', hw', _, hrest⟩ := search_past_mentions (mentions_deletions m) (hbetween '[' (by simp))
    (by rw [hink]; decide) "\x7d\n".toList
  rw [suspendPattern_eq, search_without_char (u := w' ++ "\x7d\n".toList) (by simp [hw']), ← suspendPattern_eq] at hrest
  rw [hrest] at hpast
  rw [← hpast]
  unfold implementationEnd
  rw [toList_unlines_append, toList_unlines_append]
  generalize (unlines (m.states.mapIdx fun i _ => "    delete _states[" ++ toString i ++ "];")).toList = t
  simp only [toList_unlines_cons, String.toList_append]
  simp [unlines, statesWord_eq]

theorem matchHere_suspend (i : Nat) (rest : List Char) :
    matchHere [] (Binding.suspendPattern .objectiveCpp)
      ("setSuspendState(_states[".toList ++ (toString i).toList ++ ']' :: rest) = some (toString i).toList.reverse := by
  have h₁ := (matchHere_literal [] "_states[".toList statePart ((toString i).toList ++ ']' :: rest)).trans
    (matchHere_subscript i rest)
  have h₂ := matchHere_blanks (b := []) (by simp) (by simp; decide) h₁
  have h₃ := (matchHere_literal [] "setSuspendState(".toList
    (.blanks :: .literal "_states[".toList :: statePart) _).trans h₂
  rw [suspendPattern_eq]
  simpa [suspendParts, statesWord_eq] using h₃

/-- The statement for the suspend state is found after text without brackets. -/
theorem search_suspend_state {w : List Char} (hw : '[' ∉ w) (i : Nat) (rest : List Char) :
    search (Binding.suspendPattern .objectiveCpp)
      (w ++ ("    setSuspendState(_states[" ++ toString i ++ "]);            // set suspend state").toList ++ rest) =
        some (toString i).toList := by
  have hu : '[' ∉ w ++ "    ".toList ++ "setSuspendState(".toList ++ statesWord := by
    simp only [List.mem_append, not_or]
    exact ⟨⟨⟨hw, by simp⟩, by simp⟩, statesWord_noBracket⟩
  have h := search_up_to_char (p := suspendParts) (q := statePart) (l := statesWord) (c := '[')
    (w := w ++ "    ".toList) (a := "setSuspendState(".toList)
    (v := (toString i).toList ++ ']' :: (");            // set suspend state".toList ++ rest))
    suspendParts_noBracket statesWord_noBracket hu fun a' ha' hs => by
      obtain ⟨x, hx⟩ := hs
      rw [← List.append_assoc] at hx
      have hx' := List.append_cancel_right hx
      exact eq_of_suspendParts (u := w ++ "    setSuspendState".toList) ha' ⟨x, by rw [hx']; simp⟩
  have hm := search_of_matchHere (matchHere_suspend i (");            // set suspend state".toList ++ rest))
  have hjoin : "setSuspendState(_states[".toList ++ (toString i).toList ++
      ']' :: (");            // set suspend state".toList ++ rest) = "setSuspendState(".toList ++ statesWord ++
        '[' :: ((toString i).toList ++ ']' :: (");            // set suspend state".toList ++ rest)) := by
    simp [statesWord_eq]
  rw [hjoin, List.reverse_reverse] at hm
  rw [← suspendPattern_eq, hm] at h
  rw [← h, String.toList_append, String.toList_append]
  simp [statesWord_eq]

theorem search_suspend (h : PlainPlan m) :
    search (Binding.suspendPattern .objectiveCpp) (unlines (machineImplementation m)).toList =
      (if m.isSuspensible then m.suspendIndex else none).map fun i => (toString i).toList := by
  have htop : '[' ∉ (unlines (implementationTop m)).toList :=
    not_mem_unlines (by decide) fun l hl => free_implementationTop h l hl '[' (by simp)
  have hink : lastInk? (unlines (implementationTop m)).toList ≠ some '(' := by
    have hlast : (implementationTop m).getLast? = some "\x7b" := by
      unfold implementationTop
      rw [List.getLast?_append]
      rfl
    rw [← List.dropLast_append_getLast? _ hlast, toList_unlines_append, lastInk?_append (c := '\x7b') (by decide)]
    decide
  have hsplit : (unlines (machineImplementation m)).toList =
      (unlines (implementationTop m)).toList ++ (unlines (stateCreations m)).toList ++
        (unlines (onlyIf m.isSuspensible [suspendLine m.suspendIndex] ++ implementationEnd m)).toList := by
    unfold machineImplementation
    simp only [toList_unlines_append, List.append_assoc]
  obtain ⟨w, hw, _, hpast⟩ := search_past_mentions (mentions_stateCreations h) htop hink
    (unlines (onlyIf m.isSuspensible [suspendLine m.suspendIndex] ++ implementationEnd m)).toList
  rw [hsplit, hpast]
  cases hs : m.isSuspensible with
  | false => exact search_implementationEnd h hw
  | true =>
    rw [onlyIf, if_pos rfl, if_pos rfl, List.singleton_append, toList_unlines_cons]
    cases hi : m.suspendIndex with
    | none =>
      have hnull : '[' ∉ w ++ (suspendLine none).toList ++ ['\n'] := by
        unfold suspendLine
        simp [hw]
      have hend := search_implementationEnd h hnull
      simpa using hend
    | some i =>
      have hit := search_suspend_state hw i ('\n' :: (unlines (implementationEnd m)).toList)
      unfold suspendLine
      rw [← List.append_assoc, hit]
      rfl

/-! ## Line ends -/

theorem free_transitionConstructor (t : TransitionPlan) : Free ['\n', '\r'] (transitionConstructor t) := by
  have hp : Free ['\n', '\r'] (targetParameter t.target) := by
    cases t.target with
    | none => exact free_ofList _ (by decide)
    | some n => exact free_append (free_ofList _ (by decide)) (free_plain (.ofNat n) (by decide))
  unfold transitionConstructor
  exact free_append (free_append (free_append (free_append (free_ofList _ (by decide))
    (free_plain (.ofNat t.index) (by decide))) (free_ofList _ (by decide))) hp) (free_ofList _ (by decide))

theorem free_transitionClass (t : TransitionPlan) : ∀ l ∈ transitionClass t, Free ['\n', '\r'] l := by
  have hc := free_transitionConstructor t
  have hi := Text.PlainText.ofNat t.index
  unfold transitionClass
  generalize transitionConstructor t = c at hc ⊢
  simp only [List.forall_mem_cons, List.not_mem_nil, false_implies, implies_true, and_true]
  and_intros
  all_goals with_reducible repeat first
    | exact hc
    | exact free_ofList _ (by decide)
    | exact free_plain (by assumption) (by decide)
    | refine free_append ?_ ?_

theorem free_stateMethods (hs : Text.PlainText s.name) : ∀ l ∈ stateMethods s, Free ['\n', '\r'] l := by
  have hn := Text.PlainText.ofNat (max s.transitions.length 1)
  unfold stateMethods
  simp only [List.forall_mem_cons, List.not_mem_nil, false_implies, implies_true, and_true]
  and_intros
  all_goals with_reducible repeat first
    | exact free_ofList _ (by decide)
    | exact free_plain (by assumption) (by decide)
    | refine free_append ?_ ?_

theorem free_stateHeader (hm : Text.PlainText m.name) (hs : Text.PlainText s.name) :
    ∀ l ∈ stateHeader m s, Free ['\n', '\r'] l := by
  unfold stateHeader
  rw [List.append_assoc _ [countLine s], List.singleton_append]
  simp only [List.forall_mem_append, List.forall_mem_flatMap]
  refine ⟨⟨⟨?_, fun t _ => free_transitionClass t⟩, free_stateMethods hs⟩, ?_⟩
  · exact fun l hl => (free_stateHeaderTop hm hs l hl).of_subset (by simp)
  · exact fun l hl => (free_stateHeaderEnd hs l hl).of_subset (by simp)

theorem noReturn_stateHeader (hm : Text.PlainText m.name) (hs : Text.PlainText s.name) :
    '\r' ∉ (unlines (stateHeader m s)).toList :=
  not_mem_unlines (by decide) fun l hl => free_stateHeader hm hs l hl '\r' (by simp)

theorem free_stateCreations (h : PlainPlan m) : ∀ l ∈ stateCreations m, Free ['\n', '\r'] l := by
  intro l hl
  obtain ⟨i, hi, rfl⟩ := List.mem_mapIdx.mp hl
  have hs := h.states _ (List.getElem_mem hi)
  have hm := h.name
  have hn := Text.PlainText.ofNat i
  with_reducible repeat first
    | exact free_ofList _ (by decide)
    | exact free_plain (by assumption) (by decide)
    | refine free_append ?_ ?_

theorem free_suspendLine (index : Option Nat) : Free ['\n', '\r'] (suspendLine index) := by
  cases index with
  | none => exact free_ofList _ (by decide)
  | some i =>
    exact free_append (free_append (free_ofList _ (by decide)) (free_plain (.ofNat i) (by decide)))
      (free_ofList _ (by decide))

theorem free_implementationEnd (hm : Text.PlainText m.name) : ∀ l ∈ implementationEnd m, Free ['\n', '\r'] l := by
  have hdelete : ∀ l ∈ m.states.mapIdx (fun i _ => "    delete _states[" ++ toString i ++ "];"), Free ['\n', '\r'] l := by
    intro l hl
    obtain ⟨i, _, rfl⟩ := List.mem_mapIdx.mp hl
    exact free_append (free_append (free_ofList _ (by decide)) (free_plain (.ofNat i) (by decide)))
      (free_ofList _ (by decide))
  unfold implementationEnd
  simp only [List.forall_mem_append, List.forall_mem_cons, List.not_mem_nil, false_implies, implies_true, and_true]
  refine ⟨⟨?_, hdelete⟩, ?_⟩
  and_intros
  all_goals with_reducible repeat first
    | exact free_ofList _ (by decide)
    | exact free_plain (by assumption) (by decide)
    | refine free_append ?_ ?_

theorem free_machineImplementation (h : PlainPlan m) : ∀ l ∈ machineImplementation m, Free ['\n', '\r'] l := by
  unfold machineImplementation
  simp only [List.forall_mem_append, List.forall_mem_singleton, forall_mem_onlyIf]
  refine ⟨⟨⟨?_, free_stateCreations h⟩, fun _ => free_suspendLine m.suspendIndex⟩, free_implementationEnd h.name⟩
  exact fun l hl => (free_implementationTop h l hl).of_subset (by simp)

theorem noReturn_machineImplementation (h : PlainPlan m) : '\r' ∉ (unlines (machineImplementation m)).toList :=
  not_mem_unlines (by decide) fun l hl => free_machineImplementation h l hl '\r' (by simp)

theorem free_constructorLine (hs : Text.PlainText s.name) (isSuspensible : Bool) :
    Free ['\n', '\r'] (constructorLine s isSuspensible) := by
  unfold constructorLine
  cases isSuspensible
  all_goals simp only [Bool.false_eq_true, ↓reduceIte]
  all_goals with_reducible repeat first
    | exact free_ofList _ (by decide)
    | exact free_plain (by assumption) (by decide)
    | refine free_append ?_ ?_

theorem free_newTransitionLine (t : TransitionPlan) : Free ['\n', '\r'] (newTransitionLine t) := by
  have hi := Text.PlainText.ofNat t.index
  have harguments : Free ['\n', '\r'] (if t.target.isSome then "();" else "(-1);") := by
    split
    · exact free_ofList _ (by decide)
    · exact free_ofList _ (by decide)
  unfold newTransitionLine
  with_reducible repeat first
    | exact harguments
    | exact free_ofList _ (by decide)
    | exact free_plain (by assumption) (by decide)
    | refine free_append ?_ ?_

theorem free_actionLines (hs : Text.PlainText s.name) {action : String} (haction : Text.PlainText action) :
    ∀ l ∈ actionLines s action, Free ['\n', '\r'] l := by
  unfold actionLines
  simp only [List.forall_mem_cons, List.not_mem_nil, false_implies, implies_true, and_true]
  and_intros
  all_goals with_reducible repeat first
    | exact free_ofList _ (by decide)
    | exact free_plain (by assumption) (by decide)
    | refine free_append ?_ ?_

theorem free_guardLines (hs : Text.PlainText s.name) (t : TransitionPlan) :
    ∀ l ∈ guardLines s t, Free ['\n', '\r'] l := by
  have hi := Text.PlainText.ofNat t.index
  unfold guardLines
  simp only [List.forall_mem_cons, List.not_mem_nil, false_implies, implies_true, and_true]
  and_intros
  all_goals with_reducible repeat first
    | exact free_ofList _ (by decide)
    | exact free_plain (by assumption) (by decide)
    | refine free_append ?_ ?_

theorem free_transitionDeletion (t : TransitionPlan) :
    Free ['\n', '\r'] ("    delete _transitions[" ++ toString t.index ++ "];") :=
  free_append (free_append (free_ofList _ (by decide)) (free_plain (.ofNat t.index) (by decide)))
    (free_ofList _ (by decide))

theorem free_stateImplementation (hm : Text.PlainText m.name) (hs : Text.PlainText s.name) :
    ∀ l ∈ stateImplementation m s, Free ['\n', '\r'] l := by
  have hactions : ∀ action ∈ actions m.isSuspensible, Text.PlainText action := by
    cases m.isSuspensible
    all_goals decide
  have hconstructor := free_constructorLine hs m.isSuspensible
  unfold stateImplementation banner
  simp only [List.forall_mem_append, List.forall_mem_cons, List.forall_mem_flatMap, List.forall_mem_map, forall_mem_onlyIf,
    List.not_mem_nil, false_implies, implies_true, and_true, imp_and]
  and_intros
  all_goals try refine fun (_ : m.isSuspensible = true) => ?_
  all_goals with_reducible first
    | exact hconstructor
    | exact fun t _ => free_newTransitionLine t
    | exact fun t _ => free_transitionDeletion t
    | exact fun action haction => free_actionLines hs (hactions action haction)
    | exact fun t _ => free_guardLines hs t
    | repeat first
      | exact free_ofList _ (by decide)
      | exact free_headerFile (by decide) hm
      | exact free_plain (by assumption) (by decide)
      | refine free_append ?_ ?_

end ObjectiveCpp

end MachineBundle.Source
