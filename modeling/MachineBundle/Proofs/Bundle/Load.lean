import MachineBundle.Proofs.Bundle.Queries
import MachineBundle.Proofs.Graph.Records

/-!
# Loading a stored bundle

Loading draws an identifier for each state and each transition, in the order in which they are recorded. What the
other fields are is known from the plan.
-/

namespace MachineBundle

deriving instance DecidableEq for Machine

/-- The readings of a row give what the row gives, one by one. -/
theorem forall₂_of_reading_mapM {α β : Type} {act : α → Reading β} {t : Tree} {l : List α} {trail trail' : Trail} {bs : List β}
    (h : outcome ((l.mapM act : Reading (List β)) t) trail = (.ok bs, trail')) :
    List.Forall₂ (fun a b => ∃ trail₁ trail₂, outcome (act a t) trail₁ = (.ok b, trail₂)) l bs := by
  induction l generalizing trail bs with
  | nil =>
    cases h
    exact .nil
  | cons a r ih =>
    rw [List.mapM_cons] at h
    obtain ⟨b, trail₁, hb, h⟩ := outcome_reading_bind_eq_ok h
    obtain ⟨bs', trail₂, hbs, h⟩ := outcome_reading_bind_eq_ok h
    cases h
    exact .cons ⟨trail, trail₁, hb⟩ (ih hbs)

namespace Bundle

open Export

/-- A trail after some more identifiers have been drawn. -/
def drawing (trail : Trail) (k : Nat) : Trail :=
  { trail with supply := ⟨trail.supply.drawn + k⟩ }

theorem drawing_drawing (trail : Trail) (j k : Nat) : drawing (drawing trail j) k = drawing trail (j + k) := by
  simp [drawing, Nat.add_assoc]

/-- Identifiers drawn one after the other. -/
def drawnIds (d n : Nat) : List Ident :=
  (List.range' (d + 1) n).map Ident.generated

theorem drawnIds_succ (d n : Nat) : drawnIds d (n + 1) = .generated (d + 1) :: drawnIds (d + 1) n := by
  simp [drawnIds, List.range'_succ]

theorem drawnIds_append (d n k : Nat) : drawnIds d n ++ drawnIds (d + n) k = drawnIds d (n + k) := by
  have h : d + n + 1 = d + 1 + 1 * n := by omega
  rw [drawnIds, drawnIds, drawnIds, ← List.map_append, h, List.range'_append]

theorem nodup_drawnIds (d n : Nat) : (drawnIds d n).Nodup :=
  List.Nodup.map (fun _ _ h => Ident.generated_injective h) List.nodup_range'

/-! ## The language -/

variable {t : Tree} {bundle : Path} {m : Machine} {plan : Source.MachinePlan}

theorem outcome_bindingOrDefault {b : Binding} (hfile : t.isFile (bundle.join languageFile) = .ok true)
    (htext : t.readText (bundle.join languageFile) = .ok (b.name ++ "\n")) (trail : Trail) :
    outcome (bindingOrDefault bundle t) trail = (.ok b, trail) := by
  have hfile : outcome (Reading.query (·.isFile (bundle.join languageFile)) t) trail = (.ok true, trail) := by
    rw [outcome_reading_query, hfile]
  have htext : outcome (Reading.query (·.readText (bundle.join languageFile)) t) trail =
      (.ok (b.name ++ "\n"), trail) := by
    rw [outcome_reading_query, htext]
  have hrecord : outcome (languageRecord? bundle t) trail = (.ok (some (b.name ++ "\n")), trail) := by
    unfold languageRecord?
    rw [outcome_reading_bind_ok hfile, if_pos rfl]
    exact outcome_reading_tryCatch_ok (outcome_reading_map_ok htext some) _
  have hbinding : outcome (binding? bundle t) trail = (.ok (some b), trail) := by
    unfold binding?
    rw [outcome_reading_bind_ok hrecord, outcome_reading_pure, Option.bind_some, ofLanguage?_record]
  unfold bindingOrDefault
  rw [outcome_reading_bind_ok hbinding]
  rfl

/-! ## States -/

/-- States with identifiers drawn for them. -/
def freshStates (d : Nat) : List String → List State
  | [] => []
  | name :: r => ⟨.generated (d + 1), name⟩ :: freshStates (d + 1) r

theorem outcome_freshStates (names : List String) (t : Tree) (trail : Trail) :
    outcome ((names.mapM Machine.freshState : Reading (List State)) t) trail =
      (.ok (freshStates trail.supply.drawn names), drawing trail names.length) := by
  induction names generalizing trail with
  | nil => rfl
  | cons name r ih =>
    have hfirst : outcome (Machine.freshState name t) trail =
        (.ok ⟨.generated (trail.supply.drawn + 1), name⟩, drawing trail 1) := rfl
    rw [List.mapM_cons, outcome_reading_bind_ok hfirst, outcome_reading_bind_ok (ih (drawing trail 1)),
      outcome_reading_pure, drawing_drawing, List.length_cons, Nat.add_comm 1]
    rfl

theorem map_id_freshStates (d : Nat) (names : List String) :
    (freshStates d names).map State.id = drawnIds d names.length := by
  induction names generalizing d with
  | nil => rfl
  | cons name r ih => rw [freshStates, List.map_cons, ih, List.length_cons, drawnIds_succ]

theorem map_name_freshStates (d : Nat) (names : List String) : (freshStates d names).map State.name = names := by
  induction names generalizing d with
  | nil => rfl
  | cons name r ih => rw [freshStates, List.map_cons, ih]

theorem length_freshStates (d : Nat) (names : List String) : (freshStates d names).length = names.length := by
  rw [← List.length_map (f := State.name), map_name_freshStates]

/-! ## Transitions -/

/-- Transitions with identifiers drawn for them, from plans and with targets among some states. -/
def freshTransitions (states : List State) (source : Ident) (d : Nat) : List Source.TransitionPlan → List Transition
  | [] => []
  | p :: r =>
    ⟨.generated (d + 1), source, Text.trimmed p.label, stateOf states p.target⟩ ::
      freshTransitions states source (d + 1) r

/-- The transitions that leave each of some states. -/
def freshRows (states : List State) (d : Nat) : List State → List Source.StatePlan → List (List Transition)
  | s :: ss, p :: ps =>
    freshTransitions states s.id d p.transitions :: freshRows states (d + p.transitions.length) ss ps
  | _, _ => []

theorem map_id_freshTransitions (states : List State) (source : Ident) (d : Nat) (ps : List Source.TransitionPlan) :
    (freshTransitions states source d ps).map Transition.id = drawnIds d ps.length := by
  induction ps generalizing d with
  | nil => rfl
  | cons p r ih => rw [freshTransitions, List.map_cons, ih, List.length_cons, drawnIds_succ]

theorem source_freshTransitions (states : List State) (source : Ident) (d : Nat) (ps : List Source.TransitionPlan) :
    ∀ t ∈ freshTransitions states source d ps, t.source = source := by
  induction ps generalizing d with
  | nil => simp [freshTransitions]
  | cons p r ih =>
    rw [freshTransitions]
    exact List.forall_mem_cons.mpr ⟨rfl, ih (d + 1)⟩

theorem outcome_readTransition (h : Recorded t bundle m plan) {s : State} {p : Source.StatePlan}
    (hp : p ∈ plan.states) (hs : s.name = p.name) {q : Source.TransitionPlan} (hq : q ∈ p.transitions)
    (states : List State) (trail : Trail) :
    outcome (Machine.readTransition plan.binding bundle states s q.index t) trail =
      (.ok ⟨.generated (trail.supply.drawn + 1), s.id, Text.trimmed q.label, stateOf states q.target⟩,
        drawing trail 1) := by
  have hindex : q.index < p.transitions.length := by
    have hm : q.index ∈ p.transitions.map Source.TransitionPlan.index := List.mem_map.mpr ⟨q, hq, rfl⟩
    rw [h.numbered p hp] at hm
    exact List.mem_range.mp hm
  have hcheck : outcome (Reading.query (fun t => checkIndex plan.binding t bundle s.name q.index) t) trail =
      (.ok (), trail) := by
    rw [outcome_reading_query, hs, checkIndex_ok (h.count p hp) hindex]
  have htext : outcome (Reading.query (·.readText (bundle.join (Binding.guardFile s.name q.index))) t) trail =
      (.ok (q.label ++ "\n"), trail) := by
    rw [outcome_reading_query, hs, h.guard p hp q hq]
  have hguard : outcome (guardOf plan.binding bundle s.name q.index t) trail =
      (.ok (Text.trimmed q.label), trail) := by
    unfold guardOf
    rw [outcome_reading_bind_ok hcheck]
    have hlabel := outcome_reading_map_ok htext Text.trimmed
    rw [Text.trimmed_append_newline] at hlabel
    exact outcome_reading_tryCatch_ok hlabel _
  have htarget : outcome (Reading.query (fun t => targetOf plan.binding t bundle states s.name q.index) t) trail =
      (.ok (stateOf states q.target), trail) := by
    rw [outcome_reading_query, hs, h.target p hp q hq]
  unfold Machine.readTransition
  rw [outcome_reading_bind_ok hguard, outcome_reading_bind_ok htarget]
  rfl

theorem outcome_readTransitions (h : Recorded t bundle m plan) {s : State} {p : Source.StatePlan}
    (hp : p ∈ plan.states) (hs : s.name = p.name) (states : List State) (trail : Trail) :
    outcome (Machine.readTransitions plan.binding bundle states s t) trail =
      (.ok (freshTransitions states s.id trail.supply.drawn p.transitions),
        drawing trail p.transitions.length) := by
  have hcount : outcome (Reading.query (fun t => transitionCount plan.binding t bundle s.name) t) trail =
      (.ok p.transitions.length, trail) := by
    rw [outcome_reading_query, hs, h.count p hp]
  have hall : ∀ (qs : List Source.TransitionPlan) (trail : Trail), (∀ q ∈ qs, q ∈ p.transitions) →
      outcome (((qs.map Source.TransitionPlan.index).mapM fun index =>
        Machine.readTransition plan.binding bundle states s index : Reading (List Transition)) t) trail =
          (.ok (freshTransitions states s.id trail.supply.drawn qs), drawing trail qs.length) := by
    intro qs
    induction qs with
    | nil => exact fun _ _ => rfl
    | cons q r ih =>
      intro trail hqs
      have hfirst := outcome_readTransition h hp hs (hqs q List.mem_cons_self) states trail
      rw [List.map_cons, List.mapM_cons, outcome_reading_bind_ok hfirst,
        outcome_reading_bind_ok (ih (drawing trail 1) fun q hq => hqs q (List.mem_cons_of_mem _ hq)),
        outcome_reading_pure, drawing_drawing, List.length_cons, Nat.add_comm 1]
      rfl
  unfold Machine.readTransitions
  rw [outcome_reading_bind_ok hcount, ← h.numbered p hp]
  exact hall p.transitions trail fun _ hq => hq

theorem outcome_readRows (h : Recorded t bundle m plan) (states : List State) (ps : List Source.StatePlan)
    (hps : ∀ p ∈ ps, p ∈ plan.states) (d : Nat) (trail : Trail) :
    ∃ k, outcome (((freshStates d (ps.map Source.StatePlan.name)).mapM
        (Machine.readTransitions plan.binding bundle states) : Reading (List (List Transition))) t) trail =
      (.ok (freshRows states trail.supply.drawn (freshStates d (ps.map Source.StatePlan.name)) ps),
        drawing trail k) := by
  induction ps generalizing d trail with
  | nil => exact ⟨0, rfl⟩
  | cons p r ih =>
    have hfirst := outcome_readTransitions h (hps p List.mem_cons_self) (s := ⟨.generated (d + 1), p.name⟩) rfl states
      trail
    obtain ⟨k, hk⟩ := ih (fun q hq => hps q (List.mem_cons_of_mem _ hq)) (d + 1) (drawing trail p.transitions.length)
    refine ⟨p.transitions.length + k, ?_⟩
    rw [List.map_cons, freshStates, List.mapM_cons, outcome_reading_bind_ok hfirst, outcome_reading_bind_ok hk,
      outcome_reading_pure, drawing_drawing]
    rfl

/-! ## Machines -/

/-- The states of a plan, with identifiers drawn for them. -/
def loadedStates (d : Nat) (plan : Source.MachinePlan) : List State :=
  freshStates d (plan.states.map Source.StatePlan.name)

/-- Their transitions, for which identifiers are drawn after those of the states. -/
def loadedRows (d : Nat) (plan : Source.MachinePlan) : List (List Transition) :=
  freshRows (loadedStates d plan) (d + plan.states.length) (loadedStates d plan) plan.states

/-- The code of the states. -/
def loadedCode (m : Machine) (d : Nat) (plan : Source.MachinePlan) : List (Ident × Boilerplate) :=
  List.zipWith (fun s p => (s.id, kept (m.boilerplateOf p.id) (Binding.stateSectionFiles p.name) .blank))
    (loadedStates d plan) plan.states

/-- The machine that a bundle comes to. -/
def loadedMachine (bundle : Path) (m : Machine) (plan : Source.MachinePlan) (layout : Option ByteArray) (d : Nat) :
    Machine where
  name := bundle.stem
  binding := plan.binding
  graph := .ofRecords (loadedStates d plan) (loadedRows d plan).flatten
    ((if plan.isSuspensible then plan.suspendIndex else none).bind fun i => (loadedStates d plan)[i]?.map State.id)
  boilerplate := kept m.boilerplate (plan.binding.sectionFiles bundle.stem) .blank
  stateBoilerplate := .ofEntries (loadedCode m d plan)
  stateLayout := Machine.gridLayout (loadedStates d plan)
  windowLayout := layout

theorem outcome_readGraph (h : Recorded t bundle m plan) (trail : Trail) :
    ∃ k, outcome (Machine.readGraph plan.binding bundle t) trail =
      (.ok (loadedStates trail.supply.drawn plan, .ofRecords (loadedStates trail.supply.drawn plan)
        (loadedRows trail.supply.drawn plan).flatten (stateOf (loadedStates trail.supply.drawn plan)
          (if plan.isSuspensible then plan.suspendIndex else none))), drawing trail k) := by
  have hnames : outcome (Reading.query (fun t => stateNames t bundle) t) trail =
      (.ok (plan.states.map Source.StatePlan.name), trail) := by
    rw [outcome_reading_query, h.stateNames]
  have hstates : outcome (((plan.states.map Source.StatePlan.name).mapM Machine.freshState : Reading (List State)) t)
      trail = (.ok (loadedStates trail.supply.drawn plan), drawing trail plan.states.length) := by
    rw [outcome_freshStates, List.length_map]
    rfl
  obtain ⟨k, hrows⟩ : ∃ k, outcome (((loadedStates trail.supply.drawn plan).mapM
      (Machine.readTransitions plan.binding bundle (loadedStates trail.supply.drawn plan)) :
        Reading (List (List Transition))) t) (drawing trail plan.states.length) =
      (.ok (loadedRows trail.supply.drawn plan), drawing trail (plan.states.length + k)) := by
    simp only [← drawing_drawing]
    exact outcome_readRows h (loadedStates trail.supply.drawn plan) plan.states (fun _ hp => hp)
      trail.supply.drawn (drawing trail plan.states.length)
  have hsuspend : outcome (Reading.query (fun t => suspendState plan.binding t bundle
      (loadedStates trail.supply.drawn plan)) t) (drawing trail (plan.states.length + k)) =
        (.ok (stateOf (loadedStates trail.supply.drawn plan)
          (if plan.isSuspensible then plan.suspendIndex else none)), drawing trail (plan.states.length + k)) := by
    rw [outcome_reading_query, h.suspend]
  refine ⟨plan.states.length + k, ?_⟩
  unfold Machine.readGraph
  rw [outcome_reading_bind_ok hnames, outcome_reading_bind_ok hstates, outcome_reading_bind_ok hrows]
  exact outcome_reading_bind_ok hsuspend _

theorem outcome_readCode (h : Recorded t bundle m plan) (ps : List Source.StatePlan)
    (hps : ∀ p ∈ ps, p ∈ plan.states) (d : Nat) (trail : Trail) :
    outcome (((freshStates d (ps.map Source.StatePlan.name)).mapM fun s => do
        return (s.id, ← Reading.query fun t => stateBoilerplate t bundle s.name) :
          Reading (List (Ident × Boilerplate))) t) trail =
      (.ok (List.zipWith (fun s p => (s.id, kept (m.boilerplateOf p.id) (Binding.stateSectionFiles p.name) .blank))
        (freshStates d (ps.map Source.StatePlan.name)) ps), trail) := by
  induction ps generalizing d with
  | nil => rfl
  | cons p r ih =>
    have hcode : outcome (Reading.query (fun t => stateBoilerplate t bundle p.name) t) trail =
        (.ok (kept (m.boilerplateOf p.id) (Binding.stateSectionFiles p.name) .blank), trail) := by
      rw [outcome_reading_query, h.stateBoilerplate p (hps p List.mem_cons_self)]
    have hfirst : outcome ((do
        return (Ident.generated (d + 1), ← Reading.query fun t => stateBoilerplate t bundle p.name) :
          Reading (Ident × Boilerplate)) t) trail =
        (.ok (.generated (d + 1), kept (m.boilerplateOf p.id) (Binding.stateSectionFiles p.name) .blank), trail) := by
      rw [outcome_reading_bind_ok hcode, outcome_reading_pure]
    rw [List.map_cons, freshStates, List.mapM_cons, outcome_reading_bind_ok hfirst,
      outcome_reading_bind_ok (ih (fun q hq => hps q (List.mem_cons_of_mem _ hq)) (d + 1))]
    rfl

theorem outcome_readParts (h : Recorded t bundle m plan) {layout : Option ByteArray}
    (hl : Bundle.windowLayout t bundle = .ok layout) (trail : Trail) :
    ∃ k, outcome (Machine.readParts plan.binding bundle t) trail =
      (.ok (loadedMachine bundle m plan layout trail.supply.drawn), drawing trail k) := by
  obtain ⟨k, hgraph⟩ := outcome_readGraph h trail
  have hcode : outcome (Reading.query (fun t => Bundle.boilerplate plan.binding t bundle) t) (drawing trail k) =
      (.ok (kept m.boilerplate (plan.binding.sectionFiles bundle.stem) .blank), drawing trail k) := by
    rw [outcome_reading_query, h.boilerplate]
  have hstates : outcome (((loadedStates trail.supply.drawn plan).mapM fun s => do
        return (s.id, ← Reading.query fun t => stateBoilerplate t bundle s.name) :
          Reading (List (Ident × Boilerplate))) t) (drawing trail k) =
      (.ok (loadedCode m trail.supply.drawn plan), drawing trail k) :=
    outcome_readCode h plan.states (fun _ hp => hp) trail.supply.drawn (drawing trail k)
  have hlayout : outcome (Reading.query (fun t => Bundle.windowLayout t bundle) t) (drawing trail k) =
      (.ok layout, drawing trail k) := by
    rw [outcome_reading_query, hl]
  refine ⟨k, ?_⟩
  unfold Machine.readParts
  rw [outcome_reading_bind_ok hgraph, outcome_reading_bind_ok hcode, outcome_reading_bind_ok hstates]
  exact outcome_reading_bind_ok hlayout _

/-- The machine in a stored bundle is loaded. -/
theorem outcome_load (h : Recorded t bundle m plan) {layout : Option ByteArray}
    (hl : Bundle.windowLayout t bundle = .ok layout) (trail : Trail) :
    ∃ trail', outcome (Machine.load bundle none t) trail =
      (.ok (loadedMachine bundle m plan layout trail.supply.drawn), trail') := by
  have hbinding := outcome_bindingOrDefault h.hasLanguage h.language { trail with notices := [] }
  obtain ⟨k, hparts⟩ := outcome_readParts h hl { trail with notices := [] }
  have hinner : outcome ((Bundle.bindingOrDefault bundle >>= fun b => Machine.readParts b bundle) t)
      { trail with notices := [] } =
        (.ok (loadedMachine bundle m plan layout trail.supply.drawn), drawing { trail with notices := [] } k) := by
    rw [outcome_reading_bind_ok hbinding, hparts]
  obtain ⟨notices, hload⟩ := outcome_about_ok bundle.stem hinner
  exact ⟨_, hload⟩

/-- A machine that is loaded is read through some binding. -/
theorem readParts_of_load {binding : Option Binding} {trail trail' : Trail} {m' : Machine}
    (h : outcome (Machine.load bundle binding t) trail = (.ok m', trail')) :
    ∃ b trail₁ trail₂, outcome (Machine.readParts b bundle t) trail₁ = (.ok m', trail₂) := by
  unfold Machine.load at h
  obtain ⟨after, h⟩ := outcome_about_eq_ok h
  cases binding with
  | none =>
    obtain ⟨b, trail₁, _, hb⟩ := outcome_reading_bind_eq_ok h
    exact ⟨b, trail₁, after, hb⟩
  | some b =>
    obtain ⟨b', trail₁, _, hb⟩ := outcome_reading_bind_eq_ok h
    exact ⟨b', trail₁, after, hb⟩

/-- A machine with the parts that a bundle holds besides the graph, for states in the order of its list. -/
structure PartsFrom (t : Tree) (bundle : Path) (b : Binding) (states : List State) (m : Machine) : Prop where
  name : m.name = bundle.stem
  binding : m.binding = b
  boilerplate : Bundle.boilerplate b t bundle = .ok m.boilerplate
  stateBoilerplate : ∃ code, m.stateBoilerplate = .ofEntries code ∧
    List.Forall₂ (fun s e => e.1 = s.id ∧ Bundle.stateBoilerplate t bundle s.name = .ok e.2) states code
  stateLayout : m.stateLayout = Machine.gridLayout states
  windowLayout : Bundle.windowLayout t bundle = .ok m.windowLayout

/-- A machine that is read has the graph and all other parts from the bundle. -/
theorem parts_of_readParts {b : Binding} {trail trail' : Trail}
    (h : outcome (Machine.readParts b bundle t) trail = (.ok m, trail')) :
    ∃ states trail₁, outcome (Machine.readGraph b bundle t) trail = (.ok (states, m.graph), trail₁) ∧
      PartsFrom t bundle b states m := by
  unfold Machine.readParts at h
  obtain ⟨⟨states, graph⟩, trail₁, hgraph, h⟩ := outcome_reading_bind_eq_ok h
  obtain ⟨code, trail₂, hcode, h⟩ := outcome_reading_bind_eq_ok h
  obtain ⟨stateCode, trail₃, hstateCode, h⟩ := outcome_reading_bind_eq_ok h
  obtain ⟨layout, trail₄, hlayout, h⟩ := outcome_reading_bind_eq_ok h
  rw [outcome_reading_pure, Prod.mk.injEq, Except.ok.injEq] at h
  obtain ⟨rfl, -⟩ := h
  rw [outcome_reading_query, Prod.mk.injEq] at hcode hlayout
  have hstates : List.Forall₂ (fun s e => e.1 = s.id ∧ Bundle.stateBoilerplate t bundle s.name = .ok e.2) states
      stateCode := by
    refine (forall₂_of_reading_mapM hstateCode).imp ?_
    rintro s e ⟨_, _, he⟩
    obtain ⟨c, _, hc, he⟩ := outcome_reading_bind_eq_ok he
    rw [outcome_reading_query, Prod.mk.injEq] at hc
    cases he
    exact ⟨rfl, hc.1⟩
  exact ⟨states, trail₁, hgraph, rfl, rfl, hcode.1, ⟨stateCode, rfl, hstates⟩, rfl, hlayout.1⟩

namespace PartsFrom

variable {b : Binding} {states : List State}

theorem map_fst {code : List (Ident × Boilerplate)}
    (h : List.Forall₂ (fun s e => e.1 = s.id ∧ Bundle.stateBoilerplate t bundle s.name = .ok e.2) states code) :
    code.map Prod.fst = states.map State.id := by
  induction h with
  | nil => rfl
  | cons hfirst _ ih => rw [List.map_cons, List.map_cons, hfirst.1, ih]

theorem keys_stateBoilerplate (h : PartsFrom t bundle b states m) (hn : (states.map State.id).Nodup) :
    m.stateBoilerplate.keys = states.map State.id := by
  obtain ⟨code, hcode, hall⟩ := h.stateBoilerplate
  rw [hcode]
  exact Table.keys_ofEntries (map_fst hall) hn

theorem boilerplateOf (h : PartsFrom t bundle b states m) (hn : (states.map State.id).Nodup) {s : State} (hs : s ∈ states) :
    Bundle.stateBoilerplate t bundle s.name = .ok (m.boilerplateOf s.id) := by
  obtain ⟨code, hcode, hall⟩ := h.stateBoilerplate
  obtain ⟨k, hk, rfl⟩ := List.getElem_of_mem hs
  have hk' : k < code.length := by rwa [← hall.length_eq]
  obtain ⟨hid, hread⟩ := (List.forall₂_iff_get.mp hall).2 k hk hk'
  have hget : m.stateBoilerplate.get? states[k].id = some code[k].2 := by
    rw [hcode]
    refine Table.get?_ofEntries (by rwa [map_fst hall]) ?_
    rw [← show code[k].1 = states[k].id from hid]
    exact List.getElem_mem hk'
  rw [Machine.boilerplateOf, hget]
  exact hread

end PartsFrom

/-- A machine has its name from its bundle. None is loaded where the window layout cannot be read. -/
theorem load_ok {binding : Option Binding} {trail trail' : Trail} {m' : Machine}
    (h : outcome (Machine.load bundle binding t) trail = (.ok m', trail')) :
    m'.name = bundle.stem ∧ Bundle.windowLayout t bundle = .ok m'.windowLayout := by
  obtain ⟨b, trail₁, after, h⟩ := readParts_of_load h
  obtain ⟨states, _, -, hparts⟩ := parts_of_readParts h
  exact ⟨hparts.name, hparts.windowLayout⟩

end Bundle

end MachineBundle
