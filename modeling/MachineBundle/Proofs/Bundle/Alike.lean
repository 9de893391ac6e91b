import MachineBundle.Proofs.Bundle.Loaded

/-!
# Readings of two trees

A machine is loaded alike from two trees if the files that its bundle is made of are read alike in both. What else
stands in the bundle does not show.
-/

namespace MachineBundle

variable {α β : Type} {t₁ t₂ : Tree}

/-- A reading that comes to the same in two trees. -/
def Reading.Alike (t₁ t₂ : Tree) (act : Reading α) : Prop :=
  ∀ trail, outcome (act t₁) trail = outcome (act t₂) trail

namespace Reading.Alike

theorem pure (a : α) : Alike t₁ t₂ (Pure.pure a) :=
  fun _ => rfl

theorem notify (n : Log.Notice) : Alike t₁ t₂ (Reading.notify n) :=
  fun _ => rfl

theorem draw : Alike t₁ t₂ Reading.draw :=
  fun _ => rfl

theorem throw (f : Fault) : Alike t₁ t₂ (MonadExcept.throw f : Reading α) :=
  fun _ => rfl

theorem query {ask : Tree → Except Fault α} (h : ask t₁ = ask t₂) : Alike t₁ t₂ (Reading.query ask) := by
  intro trail
  rw [outcome_reading_query, outcome_reading_query, h]

theorem bind {act : Reading α} {next : α → Reading β} (h : Alike t₁ t₂ act)
    (hn : ∀ a trail trail', outcome (act t₁) trail = (.ok a, trail') → Alike t₁ t₂ (next a)) :
    Alike t₁ t₂ (act >>= next) := by
  intro trail
  rcases hr : outcome (act t₁) trail with ⟨f | a, trail₁⟩
  · rw [outcome_reading_bind_error hr, outcome_reading_bind_error ((h trail).symm.trans hr)]
  · rw [outcome_reading_bind_ok hr, outcome_reading_bind_ok ((h trail).symm.trans hr)]
    exact hn a trail trail₁ hr trail₁

/-- Where both trees give the same answer, the reading goes on with it. -/
theorem query_bind {ask : Tree → Except Fault α} {next : α → Reading β} (h : ask t₁ = ask t₂)
    (hn : ∀ a, ask t₁ = .ok a → Alike t₁ t₂ (next a)) : Alike t₁ t₂ (Reading.query ask >>= next) := by
  refine (query h).bind fun a trail trail' ha => hn a ?_
  rw [outcome_reading_query, Prod.mk.injEq] at ha
  exact ha.1

theorem map {act : Reading α} (h : Alike t₁ t₂ act) (g : α → β) : Alike t₁ t₂ (g <$> act) := by
  intro trail
  rw [outcome_reading_map, outcome_reading_map, outcome_map, outcome_map, h trail]

theorem tryCatch {act : Reading α} {handle : Fault → Reading α} (h : Alike t₁ t₂ act)
    (hh : ∀ f, Alike t₁ t₂ (handle f)) : Alike t₁ t₂ (MonadExcept.tryCatch act handle) := by
  intro trail
  rw [outcome_reading_tryCatch, outcome_reading_tryCatch, outcome_tryCatch, outcome_tryCatch, h trail]
  rcases outcome (act t₂) trail with ⟨f | a, trail₁⟩
  · exact hh f trail₁
  · rfl

theorem mapM {act : α → Reading β} {l : List α} (h : ∀ a ∈ l, Alike t₁ t₂ (act a)) : Alike t₁ t₂ (l.mapM act) := by
  induction l with
  | nil => exact pure []
  | cons a r ih =>
    rw [List.mapM_cons]
    refine (h a List.mem_cons_self).bind fun _ _ _ _ => ?_
    exact (ih fun x hx => h x (List.mem_cons_of_mem a hx)).bind fun _ _ _ _ => pure _

theorem about {act : Reading α} (h : Alike t₁ t₂ act) (machine : String) :
    Alike t₁ t₂ (Reading.about machine act) := by
  intro trail
  have hr : ∀ t, outcome (Reading.about machine act t) trail =
      ((outcome (act t) { trail with notices := [] }).1,
        { (outcome (act t) { trail with notices := [] }).2 with
          notices := trail.notices ++ (outcome (act t) { trail with notices := [] }).2.notices.map fun n =>
            { n with machine } }) := fun _ => rfl
  rw [hr, hr, h]

end Reading.Alike

namespace Bundle

variable {bundle : Path}

/-- A file of a bundle that can be read in two trees, with the same content. -/
def SameFile (t₁ t₂ : Tree) (bundle : Path) (file : String) : Prop :=
  ∃ c, t₁.readBytes (bundle.join file) = .ok c ∧ t₂.readBytes (bundle.join file) = .ok c

theorem SameFile.readText {file : String} (h : SameFile t₁ t₂ bundle file) :
    t₁.readText (bundle.join file) = t₂.readText (bundle.join file) := by
  obtain ⟨c, h₁, h₂⟩ := h
  unfold Tree.readText
  rw [h₁, h₂]

theorem SameFile.content? {file : String} (h : SameFile t₁ t₂ bundle file) :
    content? t₁ bundle file = content? t₂ bundle file := by
  unfold Bundle.content?
  rw [h.readText]

/-- What is the same in two trees about a bundle in some language with states of some names. -/
structure SameRecord (t₁ t₂ : Tree) (bundle : Path) (b : Binding) (names : List String) : Prop where
  language : ∀ t ∈ [t₁, t₂], t.readBytes (bundle.join languageFile) = .ok (Text.encode (b.name ++ "\n"))
  states : ∀ t ∈ [t₁, t₂], stateNames t bundle = .ok names
  implementation : SameFile t₁ t₂ bundle (b.implementationFile bundle.stem)
  sections : ∀ e ∈ b.sectionFiles bundle.stem, SameFile t₁ t₂ bundle e.2
  header : ∀ name ∈ names, SameFile t₁ t₂ bundle (Binding.stateHeaderFile name)
  stateSections : ∀ name ∈ names, ∀ e ∈ Binding.stateSectionFiles name, SameFile t₁ t₂ bundle e.2
  guard : ∀ name ∈ names, ∀ count, transitionCount b t₁ bundle name = .ok count → ∀ index < count,
    SameFile t₁ t₂ bundle (Binding.guardFile name index)
  windowLayout : windowLayout t₁ bundle = windowLayout t₂ bundle

/-! ## Questions -/

variable {b : Binding} {names : List String}

theorem isFile_of_readBytes {t : Tree} {p : Path} {c : ByteArray} (h : t.readBytes p = .ok c) :
    t.isFile p = .ok true := by
  unfold Tree.readBytes at h
  unfold Tree.isFile Tree.look
  cases hn : Tree.hasNull p with
  | true =>
    rw [hn] at h
    cases h
  | false =>
    rw [hn] at h
    simp only [Bool.false_eq_true, if_false] at h ⊢
    split at h
    · rename_i hp
      rw [hp]
      rfl
    · cases h
    · cases h
    · cases h

theorem outcome_bindingOrDefault_of_language {t : Tree}
    (h : t.readBytes (bundle.join languageFile) = .ok (Text.encode (b.name ++ "\n"))) (trail : Trail) :
    outcome (bindingOrDefault bundle t) trail = (.ok b, trail) := by
  refine outcome_bindingOrDefault (isFile_of_readBytes h) ?_ trail
  unfold Tree.readText
  rw [h]
  exact Text.textOf_encode (language_noReturn b)

theorem addSections_alike (files : List (Section × String)) (p : Boilerplate)
    (h : ∀ e ∈ files, SameFile t₁ t₂ bundle e.2) : addSections t₁ bundle files p = addSections t₂ bundle files p := by
  induction files generalizing p with
  | nil => rfl
  | cons e r ih =>
    obtain ⟨s, file⟩ := e
    rw [addSections, addSections, (h _ List.mem_cons_self).content?]
    cases content? t₂ bundle file with
    | error f => rfl
    | ok content =>
      cases content with
      | none => exact ih p fun e he => h e (List.mem_cons_of_mem _ he)
      | some code => exact ih (p.set s code) fun e he => h e (List.mem_cons_of_mem _ he)

namespace SameRecord

variable (h : SameRecord t₁ t₂ bundle b names)

include h

theorem transitionCount {name : String} (hn : name ∈ names) :
    transitionCount b t₁ bundle name = transitionCount b t₂ bundle name := by
  unfold Bundle.transitionCount
  rw [(h.header name hn).content?]

theorem checkIndex {name : String} (hn : name ∈ names) (index : Int) :
    checkIndex b t₁ bundle name index = checkIndex b t₂ bundle name index := by
  unfold Bundle.checkIndex
  rw [h.transitionCount hn]

theorem targetOf {name : String} (hn : name ∈ names) (states : List State) (index : Int) :
    targetOf b t₁ bundle states name index = targetOf b t₂ bundle states name index := by
  unfold Bundle.targetOf
  rw [h.checkIndex hn, (h.header name hn).content?]

theorem suspendState (states : List State) : suspendState b t₁ bundle states = suspendState b t₂ bundle states := by
  unfold Bundle.suspendState
  rw [h.implementation.content?]

theorem boilerplate : boilerplate b t₁ bundle = boilerplate b t₂ bundle :=
  addSections_alike _ _ h.sections

theorem stateBoilerplate {name : String} (hn : name ∈ names) :
    stateBoilerplate t₁ bundle name = stateBoilerplate t₂ bundle name :=
  addSections_alike _ _ (h.stateSections name hn)

/-! ## Readings -/

theorem guardOf {name : String} (hn : name ∈ names) {count index : Nat}
    (hc : Bundle.transitionCount b t₁ bundle name = .ok count) (hi : index < count) :
    Reading.Alike t₁ t₂ (guardOf b bundle name index) := by
  refine Reading.Alike.query_bind (h.checkIndex hn index) fun _ _ => ?_
  refine ((Reading.Alike.query (h.guard name hn count hc index hi).readText).map Text.trimmed).tryCatch fun f => ?_
  cases f.isUnreadable with
  | false => exact (Reading.Alike.throw f).bind fun _ _ _ _ => (Reading.Alike.notify _).bind fun _ _ _ _ => .pure _
  | true => exact (Reading.Alike.notify _).bind fun _ _ _ _ => .pure _

theorem readTransitions {s : State} (hn : s.name ∈ names) (states : List State) :
    Reading.Alike t₁ t₂ (Machine.readTransitions b bundle states s) := by
  refine Reading.Alike.query_bind (h.transitionCount hn) fun count hc => .mapM fun index hi => ?_
  refine (h.guardOf hn hc (List.mem_range.mp hi)).bind fun _ _ _ _ => ?_
  refine Reading.Alike.query_bind (h.targetOf hn states index) fun _ _ => ?_
  exact Reading.Alike.draw.bind fun _ _ _ _ => .pure _

theorem readGraph : Reading.Alike t₁ t₂ (Machine.readGraph b bundle) := by
  have hstates := h.states t₁ (by simp)
  refine Reading.Alike.query_bind (hstates.trans (h.states t₂ (by simp)).symm) fun names' hnames => ?_
  rw [hstates] at hnames
  cases hnames
  have hfreshState : ∀ name, Reading.Alike t₁ t₂ (Machine.freshState name) := fun _ =>
    Reading.Alike.draw.bind fun _ _ _ _ => .pure _
  refine (Reading.Alike.mapM fun name _ => hfreshState name).bind fun states trail trail' hfresh => ?_
  rw [outcome_freshStates, Prod.mk.injEq, Except.ok.injEq] at hfresh
  have hlisted : ∀ s ∈ states, s.name ∈ names := by
    intro s hs
    rw [← map_name_freshStates trail.supply.drawn names, hfresh.1]
    exact List.mem_map_of_mem hs
  refine (Reading.Alike.mapM fun s hs => h.readTransitions (hlisted s hs) states).bind fun _ _ _ _ => ?_
  exact Reading.Alike.query_bind (h.suspendState states) fun _ _ => .pure _

theorem readParts : Reading.Alike t₁ t₂ (Machine.readParts b bundle) := by
  refine h.readGraph.bind fun g trail trail' hg => ?_
  obtain ⟨states, graph⟩ := g
  have hlisted : ∀ s ∈ states, s.name ∈ names := by
    intro s hs
    obtain ⟨rows, hrows, -⟩ := Machine.readGraph_eq_ok hg
    have hnames := (h.states t₁ (by simp)).symm.trans hrows.names
    cases hnames
    exact List.mem_map_of_mem hs
  refine Reading.Alike.query_bind h.boilerplate fun _ _ => ?_
  refine (Reading.Alike.mapM fun s hs => ?_).bind fun _ _ _ _ => ?_
  · exact Reading.Alike.query_bind (h.stateBoilerplate (hlisted s hs)) fun _ _ => .pure _
  · exact Reading.Alike.query_bind h.windowLayout fun _ _ => .pure _

/-- The same machine is loaded from both trees, or none from either. -/
theorem load : Reading.Alike t₁ t₂ (Machine.load bundle none) := by
  have hlanguage := h.language
  have h₁ := fun trail => outcome_bindingOrDefault_of_language (hlanguage t₁ (by simp)) trail
  have h₂ := fun trail => outcome_bindingOrDefault_of_language (hlanguage t₂ (by simp)) trail
  have hbinding : Reading.Alike t₁ t₂ (bindingOrDefault bundle) := fun trail => (h₁ trail).trans (h₂ trail).symm
  refine Reading.Alike.about ?_ bundle.stem
  refine hbinding.bind fun b' trail trail' hb => ?_
  rw [h₁ trail, Prod.mk.injEq, Except.ok.injEq] at hb
  obtain ⟨rfl, -⟩ := hb
  exact h.readParts

end SameRecord

end Bundle

end MachineBundle
