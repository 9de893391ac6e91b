import MachineBundle.Proofs.Bundle.Answered

/-!
# Bundles that can be loaded

A bundle with a readable list of states is loaded whatever its other files hold, and without them, as long as each
question that is put to it is answered. Which these are depends on the recorded language.
-/

namespace MachineBundle

/-! ## Readings that succeed -/

/-- A reading of a tree that comes to a result. -/
def Reading.Succeeds {α : Type} (act : Reading α) (t : Tree) : Prop :=
  ∀ trail, ∃ a trail', outcome (act t) trail = (.ok a, trail')

namespace Reading.Succeeds

variable {α β : Type} {t : Tree}

theorem pure (a : α) : Succeeds (Pure.pure a) t :=
  fun trail => ⟨a, trail, rfl⟩

theorem query {ask : Tree → Except Fault α} (h : ∃ a, ask t = .ok a) : Succeeds (Reading.query ask) t := by
  intro trail
  obtain ⟨a, ha⟩ := h
  exact ⟨a, trail, by rw [outcome_reading_query, ha]⟩

theorem draw : Succeeds Reading.draw t :=
  fun trail => ⟨_, _, outcome_draw t trail⟩

theorem bind {act : Reading α} {next : α → Reading β} (h : Succeeds act t)
    (hn : ∀ a trail trail', outcome (act t) trail = (.ok a, trail') → Succeeds (next a) t) :
    Succeeds (act >>= next) t := by
  intro trail
  obtain ⟨a, trail₁, ha⟩ := h trail
  rw [outcome_reading_bind_ok ha]
  exact hn a trail trail₁ ha trail₁

/-- A question that is answered is followed by what is done with the answer. -/
theorem query_bind {ask : Tree → Except Fault α} {next : α → Reading β} (h : ∃ a, ask t = .ok a)
    (hn : ∀ a, ask t = .ok a → Succeeds (next a) t) : Succeeds (Reading.query ask >>= next) t := by
  refine (query h).bind fun a trail trail' ha => hn a ?_
  rw [outcome_reading_query, Prod.mk.injEq] at ha
  exact ha.1

theorem mapM {act : α → Reading β} {l : List α} (h : ∀ a ∈ l, Succeeds (act a) t) : Succeeds (l.mapM act) t := by
  induction l with
  | nil => exact pure []
  | cons a r ih =>
    rw [List.mapM_cons]
    refine (h a List.mem_cons_self).bind fun _ _ _ _ => ?_
    exact (ih fun x hx => h x (List.mem_cons_of_mem a hx)).bind fun _ _ _ _ => pure _

theorem about {act : Reading α} (h : Succeeds act t) (machine : String) : Succeeds (Reading.about machine act) t := by
  intro trail
  obtain ⟨a, after, ha⟩ := h { trail with notices := [] }
  obtain ⟨notices, hr⟩ := outcome_about_ok machine ha
  exact ⟨a, _, hr⟩

end Reading.Succeeds

/-- Where a row of readings succeeds each of them does. -/
theorem exists_of_mapM_ok {α β : Type} {act : α → Reading β} {t : Tree} {l : List α} {trail trail' : Trail} {rs : List β}
    (h : outcome ((l.mapM act : Reading (List β)) t) trail = (.ok rs, trail')) :
    ∀ a ∈ l, ∃ r trail₁ trail₂, outcome (act a t) trail₁ = (.ok r, trail₂) := by
  intro a ha
  obtain ⟨k, hk, rfl⟩ := List.getElem_of_mem ha
  obtain ⟨hlength, hall⟩ := List.forall₂_iff_get.mp (forall₂_of_reading_mapM h)
  exact ⟨_, hall k hk (hlength ▸ hk)⟩

namespace Bundle

open Reading

variable {b : Binding} {t : Tree} {bundle : Path}

/-! ## The language -/

/-- The binding of the language that a bundle records; the default where none is recorded. -/
def recordedBinding (t : Tree) (bundle : Path) : Binding :=
  ((text? t bundle languageFile).bind Binding.ofLanguage?).getD .default

theorem outcome_languageRecord? {d : Location} (hd : t.directory? bundle = some d)
    (hb : Tree.hasNull bundle = false) (hlimit : (bundle.join languageFile).text.utf8ByteSize < Tree.pathLimit)
    (trail : Trail) : ∃ trail', outcome (languageRecord? bundle t) trail = (.ok (text? t bundle languageFile), trail') := by
  obtain ⟨-, hlook⟩ := look_name hd hb fileName_languageFile (by decide) hlimit
  have hnull : Tree.hasNull (bundle.join languageFile) = false := by
    rw [Path.hasNull_join bundle fileName_languageFile.isName, hb]
    decide
  obtain ⟨there, hthere⟩ : ∃ there, t.isFile (bundle.join languageFile) = .ok there := by
    unfold Tree.isFile
    rw [hlook]
    exact ⟨_, rfl⟩
  have hfile : outcome (Reading.query (·.isFile (bundle.join languageFile)) t) trail = (.ok there, trail) := by
    rw [outcome_reading_query, hthere]
  unfold languageRecord?
  rw [outcome_reading_bind_ok hfile]
  unfold text?
  cases hread : t.readText (bundle.join languageFile) with
  | ok text =>
    have htrue : there = true := by
      obtain ⟨content, hcontent, -⟩ := except_bind_eq_ok hread
      rw [isFile_of_readBytes hcontent] at hthere
      exact (Except.ok.inj hthere).symm
    have htext : outcome (Reading.query (·.readText (bundle.join languageFile)) t) trail = (.ok text, trail) := by
      rw [outcome_reading_query, hread]
    rw [if_pos htrue]
    exact ⟨trail, outcome_reading_tryCatch_ok (outcome_reading_map_ok htext some) _⟩
  | error f =>
    cases there with
    | false => exact ⟨trail, rfl⟩
    | true =>
      have htext : outcome ((some <$> Reading.query (·.readText (bundle.join languageFile))) t) trail =
          (.error f, trail) := by
        rw [outcome_reading_map, outcome_map, outcome_reading_query, hread]
      rw [if_pos rfl, outcome_reading_tryCatch, outcome_tryCatch, htext]
      dsimp only
      rw [Tree.isUnreadable_of_readText hnull hread]
      exact ⟨_, rfl⟩

theorem outcome_binding? {d : Location} (hd : t.directory? bundle = some d)
    (hb : Tree.hasNull bundle = false) (hlimit : (bundle.join languageFile).text.utf8ByteSize < Tree.pathLimit)
    (trail : Trail) : ∃ trail', outcome (binding? bundle t) trail =
      (.ok ((text? t bundle languageFile).bind Binding.ofLanguage?), trail') := by
  obtain ⟨trail', h⟩ := outcome_languageRecord? hd hb hlimit trail
  refine ⟨trail', ?_⟩
  unfold binding?
  rw [outcome_reading_bind_ok h, outcome_reading_pure]

theorem outcome_recordedBinding {d : Location} (hd : t.directory? bundle = some d)
    (hb : Tree.hasNull bundle = false) (hlimit : (bundle.join languageFile).text.utf8ByteSize < Tree.pathLimit)
    (trail : Trail) :
    ∃ trail', outcome (bindingOrDefault bundle t) trail = (.ok (recordedBinding t bundle), trail') := by
  obtain ⟨trail', h⟩ := outcome_binding? hd hb hlimit trail
  refine ⟨trail', ?_⟩
  unfold bindingOrDefault
  rw [outcome_reading_bind_ok h]
  rfl

/-! ## Machines -/

/-- What is read of a bundle through a binding, for states of some names, can be read. -/
structure Loadable (t : Tree) (bundle : Path) (b : Binding) (names : List String) : Prop where
  /-- Files can be named for the states. -/
  noNull : ∀ name ∈ names, '\x00' ∉ name.toList
  /-- The path of a window layout can be looked at. -/
  room : (bundle.join windowLayoutFile).text.utf8ByteSize < Tree.pathLimit
  /-- No recorded number is too long, neither of transitions, nor of a target, nor of the suspend state. -/
  count : ∀ name ∈ names, ∀ header ∈ text? t bundle (Binding.stateHeaderFile name),
    Scan.Readable b.countPattern header
  target : ∀ name ∈ names, ∀ header ∈ text? t bundle (Binding.stateHeaderFile name),
    ∀ count, transitionCount b t bundle name = .ok count → ∀ index < count,
      Scan.Readable (b.targetPattern index) header
  suspend : ∀ source ∈ text? t bundle (b.implementationFile bundle.stem), Scan.Readable b.suspendPattern source

/-- What is read for a state of some name can be read. -/
structure StateReadable (t : Tree) (bundle : Path) (b : Binding) (name : String) : Prop where
  noNull : '\x00' ∉ name.toList
  count : ∀ header ∈ text? t bundle (Binding.stateHeaderFile name), Scan.Readable b.countPattern header
  target : ∀ header ∈ text? t bundle (Binding.stateHeaderFile name),
    ∀ count, transitionCount b t bundle name = .ok count → ∀ index < count,
      Scan.Readable (b.targetPattern index) header

/-- What stands in the files that are read through a binding can be used, for states of some names. -/
structure Legible (t : Tree) (bundle : Path) (b : Binding) (names : List String) : Prop where
  states : ∀ name ∈ names, StateReadable t bundle b name
  suspend : ∀ source ∈ text? t bundle (b.implementationFile bundle.stem), Scan.Readable b.suspendPattern source

theorem Loadable.legible {names : List String} (h : Loadable t bundle b names) : Legible t bundle b names where
  states := fun name hname => ⟨h.noNull name hname, h.count name hname, h.target name hname⟩
  suspend := h.suspend

theorem guardOf_succeeds (hb : Tree.hasNull bundle = false) {state : String} (hs : '\x00' ∉ state.toList)
    {count index : Nat} (hc : transitionCount b t bundle state = .ok count) (hi : index < count) :
    Succeeds (guardOf b bundle state index) t := by
  have hfile : '\x00' ∉ (Binding.guardFile state index).toList := by
    have hindex : '\x00' ∉ (toString index).toList := (Text.PlainText.ofNat index).not_mem (by decide)
    simpa [Binding.guardFile, Binding.stateStem, String.toList_append, Text.toString_natCast] using ⟨hs, hindex⟩
  have hnull : Tree.hasNull (bundle.join (Binding.guardFile state index)) = false := by
    rw [Path.hasNull_join_text hb, ← Bool.not_eq_true, List.contains_iff_mem]
    exact hfile
  refine Succeeds.query_bind ⟨(), checkIndex_ok hc hi⟩ fun _ _ trail => ?_
  rw [outcome_reading_tryCatch, outcome_tryCatch, outcome_reading_map, outcome_map, outcome_reading_query]
  cases hread : t.readText (bundle.join (Binding.guardFile state index)) with
  | ok text => exact ⟨_, _, rfl⟩
  | error f =>
    dsimp only
    rw [Tree.isUnreadable_of_readText hnull hread]
    exact ⟨_, _, rfl⟩

theorem StateReadable.readTransitions_succeeds {s : State} (h : StateReadable t bundle b s.name)
    (hb : Tree.hasNull bundle = false) (states : List State) :
    Succeeds (Machine.readTransitions b bundle states s) t := by
  have hcount := (transitionCount_isOk_iff hb s.name).mpr ⟨h.noNull, h.count⟩
  refine Succeeds.query_bind hcount fun count hc => .mapM fun index hi => ?_
  have hindex := List.mem_range.mp hi
  have htarget := (targetOf_isOk_iff hb hc hindex states).mpr fun header hh =>
    h.target header hh count hc index hindex
  refine (guardOf_succeeds hb h.noNull hc hindex).bind fun _ _ _ _ => ?_
  exact Succeeds.query_bind htarget fun _ _ => Succeeds.draw.bind fun _ _ _ _ => .pure _

theorem Legible.readGraph_succeeds {names : List String} (h : Legible t bundle b names)
    (hnames : stateNames t bundle = .ok names) : Succeeds (Machine.readGraph b bundle) t := by
  obtain ⟨hb, -⟩ := directory?_of_stateNames hnames
  refine Succeeds.query_bind ⟨names, hnames⟩ fun names' hnames' => ?_
  rw [hnames] at hnames'
  cases hnames'
  refine Succeeds.bind (fun trail => ⟨_, _, outcome_freshStates names t trail⟩) fun states trail trail' hs => ?_
  rw [outcome_freshStates, Prod.mk.injEq, Except.ok.injEq] at hs
  have hmem : ∀ s ∈ states, s.name ∈ names := by
    intro s hs'
    rw [← map_name_freshStates trail.supply.drawn names, hs.1]
    exact List.mem_map_of_mem hs'
  have hrows := fun s hs' => (h.states s.name (hmem s hs')).readTransitions_succeeds hb states
  refine (Succeeds.mapM hrows).bind fun _ _ _ _ => ?_
  exact Succeeds.query_bind ((suspendState_isOk_iff hb states).mpr h.suspend) fun _ _ => .pure _

/-- Where everything can be read the parts of a machine are read. -/
theorem Loadable.readParts_succeeds {names : List String} (h : Loadable t bundle b names)
    (hnames : stateNames t bundle = .ok names) : Succeeds (Machine.readParts b bundle) t := by
  obtain ⟨hb, d, hd⟩ := directory?_of_stateNames hnames
  refine (h.legible.readGraph_succeeds hnames).bind fun g trail trail' hg => ?_
  obtain ⟨states, graph⟩ := g
  obtain ⟨rows, hrows, -⟩ := Machine.readGraph_eq_ok hg
  have hlisted : states.map State.name = names := Except.ok.inj (hrows.names.symm.trans hnames)
  refine Succeeds.query_bind (boilerplate_isOk hb) fun _ _ => ?_
  refine (Succeeds.mapM fun s hs => ?_).bind fun _ _ _ _ => ?_
  · have hnull : '\x00' ∉ s.name.toList := by
      refine h.noNull _ ?_
      rw [← hlisted]
      exact List.mem_map_of_mem hs
    exact Succeeds.query_bind (stateBoilerplate_isOk hb hnull) fun _ _ => .pure _
  · exact Succeeds.query_bind ((windowLayout_isOk_iff hd hb).mpr h.room) fun _ _ => .pure _

/-- The file of the language has a shorter name than that of a window layout. -/
theorem room_language (h : (bundle.join windowLayoutFile).text.utf8ByteSize < Tree.pathLimit) :
    (bundle.join languageFile).text.utf8ByteSize < Tree.pathLimit := by
  refine (bundle.utf8ByteSize_text_join_le fileName_languageFile.isName fileName_windowLayoutFile.isName ?_).trans_lt h
  decide

theorem Loadable.load_succeeds {binding : Option Binding} {names : List String}
    (h : Loadable t bundle (binding.getD (recordedBinding t bundle)) names)
    (hnames : stateNames t bundle = .ok names) : Succeeds (Machine.load bundle binding) t := by
  refine Succeeds.about ?_ bundle.stem
  cases binding with
  | some b =>
    refine (Succeeds.pure b).bind fun a trail trail' ha => ?_
    cases ha
    exact h.readParts_succeeds hnames
  | none =>
    obtain ⟨hb, d, hd⟩ := directory?_of_stateNames hnames
    have hbinding := outcome_recordedBinding hd hb (room_language h.room)
    refine Succeeds.bind (fun trail => ⟨_, hbinding trail⟩) fun b trail trail' hr => ?_
    obtain ⟨_, hr'⟩ := hbinding trail
    rw [hr] at hr'
    cases hr'
    exact h.readParts_succeeds hnames

theorem stateReadable_of_readTransitions (hb : Tree.hasNull bundle = false) {states : List State} {s : State}
    {rows : List Transition} {trail trail' : Trail}
    (h : outcome (Machine.readTransitions b bundle states s t) trail = (.ok rows, trail')) :
    StateReadable t bundle b s.name := by
  unfold Machine.readTransitions at h
  obtain ⟨count, trail₁, hcount, h⟩ := outcome_reading_bind_eq_ok h
  rw [outcome_reading_query, Prod.mk.injEq] at hcount
  have hknown := (transitionCount_isOk_iff hb s.name).mp ⟨count, hcount.1⟩
  refine ⟨hknown.1, hknown.2, fun header hh count' hcount' index hindex => ?_⟩
  rw [hcount.1, Except.ok.injEq] at hcount'
  subst hcount'
  obtain ⟨r, before, after, hr⟩ := exists_of_mapM_ok h index (List.mem_range.mpr hindex)
  unfold Machine.readTransition at hr
  obtain ⟨_, _, -, hr⟩ := outcome_reading_bind_eq_ok hr
  obtain ⟨target, _, htarget, -⟩ := outcome_reading_bind_eq_ok hr
  rw [outcome_reading_query, Prod.mk.injEq] at htarget
  exact (targetOf_isOk_iff hb hcount.1 hindex states).mp ⟨target, htarget.1⟩ header hh

/-- Where a graph was read, what stands in the files can be used. -/
theorem legible_of_readGraph {names : List String} (hnames : stateNames t bundle = .ok names)
    {g : List State × Graph} {trail trail' : Trail}
    (h : outcome (Machine.readGraph b bundle t) trail = (.ok g, trail')) : Legible t bundle b names := by
  obtain ⟨hb, -⟩ := directory?_of_stateNames hnames
  unfold Machine.readGraph at h
  obtain ⟨names', trail₁, hnames', h⟩ := outcome_reading_bind_eq_ok h
  obtain ⟨states, trail₂, hstates, h⟩ := outcome_reading_bind_eq_ok h
  obtain ⟨rows, trail₃, hrows, h⟩ := outcome_reading_bind_eq_ok h
  obtain ⟨suspend, trail₄, hsuspend, -⟩ := outcome_reading_bind_eq_ok h
  rw [outcome_reading_query, Prod.mk.injEq] at hnames' hsuspend
  rw [hnames, Except.ok.injEq] at hnames'
  obtain ⟨rfl, rfl⟩ := hnames'
  rw [outcome_freshStates, Prod.mk.injEq, Except.ok.injEq] at hstates
  refine ⟨fun name hname => ?_, (suspendState_isOk_iff hb states).mp ⟨suspend, hsuspend.1⟩⟩
  rw [← map_name_freshStates trail.supply.drawn names, hstates.1] at hname
  obtain ⟨s, hs, rfl⟩ := List.mem_map.mp hname
  obtain ⟨rs, before, after, hr⟩ := exists_of_mapM_ok hrows s hs
  exact stateReadable_of_readTransitions hb hr

/-- What was read of a bundle can be read. -/
theorem loadable_of_readParts {names : List String} (hnames : stateNames t bundle = .ok names) {m : Machine}
    {trail trail' : Trail} (h : outcome (Machine.readParts b bundle t) trail = (.ok m, trail')) :
    Loadable t bundle b names := by
  obtain ⟨hb, d, hd⟩ := directory?_of_stateNames hnames
  obtain ⟨states, _, hgraph, hparts⟩ := parts_of_readParts h
  have hlegible := legible_of_readGraph hnames hgraph
  exact {
    noNull := fun name hname => (hlegible.states name hname).noNull
    room := (windowLayout_isOk_iff hd hb).mp ⟨_, hparts.windowLayout⟩
    count := fun name hname => (hlegible.states name hname).count
    target := fun name hname => (hlegible.states name hname).target
    suspend := hlegible.suspend }

/-- A machine is read through the binding that is given, or else through that of the recorded language. -/
theorem readParts_of_load_through {binding : Option Binding} {names : List String}
    (hnames : stateNames t bundle = .ok names) {m : Machine} {trail trail' : Trail}
    (h : outcome (Machine.load bundle binding t) trail = (.ok m, trail')) :
    ∃ trail₁ trail₂, outcome (Machine.readParts (binding.getD (recordedBinding t bundle)) bundle t) trail₁ =
      (.ok m, trail₂) := by
  obtain ⟨hb, d, hd⟩ := directory?_of_stateNames hnames
  have hroom := (windowLayout_isOk_iff hd hb).mp ⟨_, (load_ok h).2⟩
  unfold Machine.load at h
  obtain ⟨after, h⟩ := outcome_about_eq_ok h
  cases binding with
  | some b' =>
    obtain ⟨b, trail₁, hbinding, hparts⟩ := outcome_reading_bind_eq_ok h
    cases hbinding
    exact ⟨_, _, hparts⟩
  | none =>
    obtain ⟨b, trail₁, hbinding, hparts⟩ := outcome_reading_bind_eq_ok h
    obtain ⟨_, hrecorded⟩ := outcome_recordedBinding hd hb (room_language hroom) { trail with notices := [] }
    have hsame := hbinding.symm.trans hrecorded
    cases hsame
    exact ⟨_, _, hparts⟩

/-- What is read of a bundle that is loaded can be read. -/
theorem loadable_of_load {binding : Option Binding} {names : List String} (hnames : stateNames t bundle = .ok names)
    {m : Machine} {trail trail' : Trail} (h : outcome (Machine.load bundle binding t) trail = (.ok m, trail')) :
    Loadable t bundle (binding.getD (recordedBinding t bundle)) names := by
  obtain ⟨_, _, hparts⟩ := readParts_of_load_through hnames h
  exact loadable_of_readParts hnames hparts

/-- A bundle with a readable list of states is loaded exactly where nothing else that is read of it is at fault by its
name or by its digits. -/
theorem load_succeeds_iff (t : Tree) (bundle : Path) (binding : Option Binding) (names : List String)
    (h : stateNames t bundle = .ok names) (trail : Trail) :
    (∃ m trail', outcome (Machine.load bundle binding t) trail = (.ok m, trail')) ↔
      Loadable t bundle (binding.getD (recordedBinding t bundle)) names :=
  ⟨fun ⟨_, _, hload⟩ => loadable_of_load h hload, fun hloadable => hloadable.load_succeeds h trail⟩

/-- A bundle in which nothing but the list of states and a header holds text. -/
def spoilt : Tree where
  home := ["work"]
  nodes :=
    [(["work"], .directory), (["work", "A"], .directory), (["work", "A", "Language"], .file ⟨#[0xff]⟩),
      (["work", "A", "States"], .file "S\n".toUTF8),
      (["work", "A", "State_S.h"], .file "int numberOfTransitions() const \x7b return 1; \x7d\n".toUTF8),
      (["work", "A", "State_S_Transition_0.expr"], .directory), (["work", "A", "A.mm"], .file ⟨#[0xff]⟩)]
  scratch := []

theorem spoilt_is_loaded :
    stateNames spoilt (.ofText "A") = .ok ["S"] ∧ recordedBinding spoilt (.ofText "A") = .objectiveCpp ∧
      (∃ m trail', outcome (Machine.load (.ofText "A") none spoilt) ⟨.start, []⟩ = (.ok m, trail')) ∧
      Loadable spoilt (.ofText "A") .objectiveCpp ["S"] := by
  have hnames : stateNames spoilt (.ofText "A") = .ok ["S"] := rfl
  have hload : ∃ m trail', outcome (Machine.load (.ofText "A") none spoilt) ⟨.start, []⟩ = (.ok m, trail') :=
    exists_of_isOk (by decide +kernel)
  exact ⟨hnames, rfl, hload, (load_succeeds_iff spoilt (.ofText "A") none ["S"] hnames ⟨.start, []⟩).mp hload⟩

/-- A name that is a NUL character is read from the list of states, but no file can be named for it. -/
theorem null_name_is_not_loaded :
    stateNames (Export.bundleWith "\x00") (.ofText "A") = .ok ["\x00"] ∧
      ∀ binding trail, ¬∃ m trail', outcome (Machine.load (.ofText "A") binding (Export.bundleWith "\x00")) trail =
        (.ok m, trail') := by
  have hnames : stateNames (Export.bundleWith "\x00") (.ofText "A") = .ok ["\x00"] := rfl
  refine ⟨hnames, ?_⟩
  rintro binding trail ⟨m, trail', hload⟩
  exact (loadable_of_load hnames hload).noNull "\x00" List.mem_cons_self (by decide)

end Bundle

end MachineBundle
