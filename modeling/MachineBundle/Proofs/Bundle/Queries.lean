import MachineBundle.Proofs.Bundle.Stored

/-!
# Queries to a stored bundle

All that the queries look for is in the files of the bundle, so they come to what the plan of the exported machine
has.
-/

namespace MachineBundle

namespace Bundle

open Export

/-- The text that is read from a file for some text. -/
def unified (text : String) : String :=
  String.ofList (Text.unifyBreaks text.toList)

/-- The code that is read from the files that some code was written to. -/
def kept (code : Boilerplate) (files : List (Section × String)) (p : Boilerplate) : Boilerplate :=
  files.foldl (fun p f => p.set f.1 (unified (code.get f.1))) p

/-- The state at a position among others. -/
def stateOf (states : List State) (position : Option Nat) : Option Ident :=
  position.bind fun i => states[i]?.map State.id

/-- What a bundle records of the plan for a machine. -/
structure Recorded (t : Tree) (bundle : Path) (m : Machine) (plan : Source.MachinePlan) : Prop where
  hasLanguage : t.isFile (bundle.join languageFile) = .ok true
  language : t.readText (bundle.join languageFile) = .ok (plan.binding.name ++ "\n")
  stateNames : Bundle.stateNames t bundle = .ok (plan.states.map Source.StatePlan.name)
  count : ∀ s ∈ plan.states, transitionCount plan.binding t bundle s.name = .ok s.transitions.length
  numbered : ∀ s ∈ plan.states,
    s.transitions.map Source.TransitionPlan.index = List.range s.transitions.length
  guard : ∀ s ∈ plan.states, ∀ p ∈ s.transitions,
    t.readText (bundle.join (Binding.guardFile s.name p.index)) = .ok (p.label ++ "\n")
  target : ∀ s ∈ plan.states, ∀ p ∈ s.transitions, ∀ states,
    targetOf plan.binding t bundle states s.name p.index = .ok (stateOf states p.target)
  suspend : ∀ states, suspendState plan.binding t bundle states =
    .ok (stateOf states (if plan.isSuspensible then plan.suspendIndex else none))
  boilerplate : Bundle.boilerplate plan.binding t bundle =
    .ok (kept m.boilerplate (plan.binding.sectionFiles bundle.stem) .blank)
  stateBoilerplate : ∀ s ∈ plan.states, Bundle.stateBoilerplate t bundle s.name =
    .ok (kept (m.boilerplateOf s.id) (Binding.stateSectionFiles s.name) .blank)

section Stored

variable {m : Machine} {b : Binding} {name : String} {isSuspensible : Bool} {t : Tree} {bundle : Path}
  {s : Source.StatePlan}

theorem stateAt?_ofNat (states : List State) (position : Option Nat) :
    stateAt? states (position.map Int.ofNat) = stateOf states position := by
  cases position <;> rfl

theorem isFile_stored {file text : String} {fs : List File} (h : Stored t bundle fs) (hf : textFile file text ∈ fs) :
    t.isFile (bundle.join file) = .ok true := by
  have hn := h.noNull _ hf
  have hb := h.readBytes _ hf
  unfold textFile at hn hb
  unfold Tree.isFile Tree.look
  unfold Tree.readBytes at hb
  simp only [hn, Bool.false_eq_true, if_false] at hb ⊢
  split at hb
  · rename_i hp
    simp [hp, Except.map]
  all_goals cases hb

theorem addSections_stored {fs : List File} (h : Stored t bundle fs) (code : Boilerplate)
    (files : List (Section × String)) (hf : ∀ f ∈ files, textFile f.2 (code.get f.1) ∈ fs) (p : Boilerplate) :
    addSections t bundle files p = .ok (kept code files p) := by
  induction files generalizing p with
  | nil => rfl
  | cons f r ih =>
    have hc := h.content?_unified (hf f List.mem_cons_self)
    unfold addSections
    rw [hc]
    exact ih (fun g hg => hf g (List.mem_cons_of_mem f hg)) _

theorem transitionCount_stored (h : Stored t bundle (files m b name isSuspensible))
    (hfit : Source.FitPlan (.of m b name isSuspensible))
    (hs : s ∈ (Source.MachinePlan.of m b name isSuspensible).states)
    (hi : s.transitions.map Source.TransitionPlan.index = List.range s.transitions.length) :
    transitionCount b t bundle s.name = .ok s.transitions.length := by
  have hc := h.content? (stateHeaderFile_mem hs) (Source.noReturn_stateHeader hfit hs)
  have hn := Source.number?_count hfit hs (h.length_transitions_lt hfit hs hi)
  have hb : (Source.MachinePlan.of m b name isSuspensible).binding = b := rfl
  rw [hb] at hn
  simp [transitionCount, hc, hn, bind, Except.bind, pure, Except.pure]

theorem checkIndex_ok {state : String} {i count : Nat} (hc : transitionCount b t bundle state = .ok count)
    (hi : i < count) : checkIndex b t bundle state i = .ok () := by
  have hz : (0 : Int) ≤ i ∧ (i : Int) < count := ⟨Int.natCast_nonneg i, by exact_mod_cast hi⟩
  simp only [checkIndex, hc, bind, Except.bind, if_pos hz]
  rfl

theorem targetOf_stored (h : Stored t bundle (files m b name isSuspensible))
    (hfit : Source.FitPlan (.of m b name isSuspensible))
    (hs : s ∈ (Source.MachinePlan.of m b name isSuspensible).states)
    (hi : s.transitions.map Source.TransitionPlan.index = List.range s.transitions.length)
    (hlt : ∀ p ∈ s.transitions, ∀ i ∈ p.target, i < 10 ^ Scan.digitLimit) {p : Source.TransitionPlan}
    (hp : p ∈ s.transitions) (states : List State) :
    targetOf b t bundle states s.name p.index = .ok (stateOf states p.target) := by
  have hc := h.content? (stateHeaderFile_mem hs) (Source.noReturn_stateHeader hfit hs)
  have hidx : p.index < s.transitions.length := by
    have hm : p.index ∈ s.transitions.map Source.TransitionPlan.index := List.mem_map.mpr ⟨p, hp, rfl⟩
    rw [hi] at hm
    exact List.mem_range.mp hm
  have hcheck := checkIndex_ok (transitionCount_stored h hfit hs hi) hidx
  have hnodup : (s.transitions.map Source.TransitionPlan.index).Nodup := by
    rw [hi]
    exact List.nodup_range
  have hn := Source.number?_target hfit hs p.index hlt
  have hb : (Source.MachinePlan.of m b name isSuspensible).binding = b := rfl
  rw [hb, Source.targetAt_of_mem hnodup hp] at hn
  simp only [targetOf, hcheck, hc, hn, bind, Except.bind, pure, Except.pure]
  exact congrArg Except.ok (stateAt?_ofNat states p.target)

theorem suspendState_stored (h : Stored t bundle (files m b bundle.stem isSuspensible))
    (hfit : Source.FitPlan (.of m b bundle.stem isSuspensible))
    (hlt : ∀ i ∈ (Source.MachinePlan.of m b bundle.stem isSuspensible).suspendIndex, i < 10 ^ Scan.digitLimit)
    (states : List State) :
    suspendState b t bundle states = .ok (stateOf states
      (if isSuspensible then (Source.MachinePlan.of m b bundle.stem isSuspensible).suspendIndex else none)) := by
  have hc := h.content? implementationFile_mem (Source.noReturn_machineImplementation hfit)
  have hn := Source.number?_suspend hfit hlt
  have hb : (Source.MachinePlan.of m b bundle.stem isSuspensible).binding = b := rfl
  have hsus : (Source.MachinePlan.of m b bundle.stem isSuspensible).isSuspensible = isSuspensible := rfl
  rw [hb, hsus] at hn
  simp only [suspendState, hc, hn, bind, Except.bind, pure, Except.pure]
  exact congrArg Except.ok (stateAt?_ofNat states _)

theorem language_noReturn (b : Binding) : '\r' ∉ (b.name ++ "\n").toList := by
  cases b <;> decide

theorem ofLanguage?_record (b : Binding) : Binding.ofLanguage? (b.name ++ "\n") = some b := by
  cases b <;> rfl

theorem length_states_of (hstates : m.graph.StatesKnown) :
    (Source.MachinePlan.of m b name isSuspensible).states.length = m.graph.states.length := by
  rw [← hstates.length_listedStates]
  exact List.length_map _

theorem stateNames_stored (h : Stored t bundle (files m b name isSuspensible))
    (hfit : Source.FitPlan (.of m b name isSuspensible)) (hstates : m.graph.StatesKnown) :
    Bundle.stateNames t bundle =
      .ok ((Source.MachinePlan.of m b name isSuspensible).states.map Source.StatePlan.name) := by
  have hlisted : ∀ s ∈ m.graph.listedStates, Source.FitName s.name := fun s hs =>
    hfit.states (Source.statePlan m.graph s) (List.mem_map.mpr ⟨s, hs, rfl⟩)
  have hnames : (Source.MachinePlan.of m b name isSuspensible).states.map Source.StatePlan.name =
      m.graph.stateNames := by
    rw [hstates.stateNames_eq fun s hs => (hlisted s hs).nonempty]
    exact List.map_map
  have hfitNames : ∀ n ∈ m.graph.stateNames, n ≠ "" ∧ Text.PlainText n := by
    rw [hstates.stateNames_eq fun s hs => (hlisted s hs).nonempty]
    intro n hn
    obtain ⟨s, hs, rfl⟩ := List.mem_map.mp hn
    exact ⟨(hlisted s hs).nonempty, (hlisted s hs).plain⟩
  have hreturn : '\r' ∉ (Source.unlines m.graph.stateNames).toList :=
    Source.not_mem_unlines (by decide) fun n hn => (hfitNames n hn).2.not_mem (by decide)
  have hread := h.readText statesFile_mem hreturn
  simp only [Bundle.stateNames, hread, bind, Except.bind, pure, Except.pure]
  rw [Text.namesIn_unlines fun n hn => .ofPlain (hfitNames n hn).2 (hfitNames n hn).1, hnames]

/-- The position of a state is short enough to be read. -/
theorem stateIndex?_lt_stored (h : Stored t bundle (files m b name isSuspensible))
    (hfit : Source.FitPlan (.of m b name isSuspensible)) (hstates : m.graph.StatesKnown) {i : Option Ident} {k : Nat}
    (hk : m.graph.stateIndex? i = some k) : k < 10 ^ Scan.digitLimit := by
  have hlen := h.length_states_lt hfit
  rw [length_states_of hstates] at hlen
  exact (Graph.stateIndex?_lt hk).trans hlen

theorem target_lt_stored (h : Stored t bundle (files m b name isSuspensible))
    (hfit : Source.FitPlan (.of m b name isSuspensible)) (hstates : m.graph.StatesKnown)
    (hs : s ∈ (Source.MachinePlan.of m b name isSuspensible).states) :
    ∀ p ∈ s.transitions, ∀ i ∈ p.target, i < 10 ^ Scan.digitLimit := by
  intro p hp i hi
  obtain ⟨s, _, rfl⟩ := List.mem_map.mp hs
  obtain ⟨_, _, tr, _, _, htr⟩ := Source.mem_statePlan hp
  rw [htr] at hi
  exact stateIndex?_lt_stored h hfit hstates hi

theorem suspendIndex_lt_stored (h : Stored t bundle (files m b name isSuspensible))
    (hfit : Source.FitPlan (.of m b name isSuspensible)) (hstates : m.graph.StatesKnown) :
    ∀ i ∈ (Source.MachinePlan.of m b name isSuspensible).suspendIndex, i < 10 ^ Scan.digitLimit := by
  intro i hi
  unfold Source.MachinePlan.of at hi
  dsimp only at hi
  split at hi
  · exact stateIndex?_lt_stored h hfit hstates hi
  · cases hi

theorem numbered_of (hs : s ∈ (Source.MachinePlan.of m b name isSuspensible).states) :
    s.transitions.map Source.TransitionPlan.index = List.range s.transitions.length := by
  obtain ⟨s, _, rfl⟩ := List.mem_map.mp hs
  exact Source.map_index_statePlan m.graph s

/-- A bundle with all the files of a machine records its plan. -/
theorem recorded_of_stored (h : Stored t bundle (files m b bundle.stem isSuspensible))
    (hfit : Source.FitPlan (.of m b bundle.stem isSuspensible)) (hwf : m.graph.WellFormed) (hr : m.graph.Unbroken) :
    Recorded t bundle m (.of m b bundle.stem isSuspensible) := by
  refine ⟨isFile_stored h languageFile_mem, h.readText languageFile_mem (language_noReturn b),
    stateNames_stored h hfit hwf.statesKnown, fun s hs => transitionCount_stored h hfit hs (numbered_of hs),
    fun s hs => numbered_of hs, fun s hs p hp => ?_,
    fun s hs p hp => targetOf_stored h hfit hs (numbered_of hs) (target_lt_stored h hfit hwf.statesKnown hs) hp,
    suspendState_stored h hfit (suspendIndex_lt_stored h hfit hwf.statesKnown), ?_, fun s hs => ?_⟩
  · refine h.readText (guardFile_mem hs hp) ?_
    obtain ⟨s, _, rfl⟩ := List.mem_map.mp hs
    obtain ⟨j, hj, tr, htr, hlabel, _⟩ := Source.mem_statePlan hp
    rw [String.toList_append, List.mem_append, not_or, hlabel]
    exact ⟨hr j hj tr htr, by decide⟩
  · exact addSections_stored h m.boilerplate _ (fun f hf => sectionFile_mem hf) .blank
  · exact addSections_stored h (m.boilerplateOf s.id) _ (fun f hf => stateSectionFile_mem hs hf) .blank

end Stored

end Bundle

end MachineBundle
