import MachineBundle.Arrangement
import MachineBundle.Proofs.Bundle.Files
import MachineBundle.Proofs.Bundle.Renamed
import MachineBundle.Proofs.Graph.Transitions
import MachineBundle.Proofs.Text.LineEnds
import MachineBundle.Proofs.Tree.Locate

/-!
# Line ends of bundles

Where files are spelled with other line ends, an arrangement lists the same names and a bundle holds the same machine.
What cannot be loaded cannot be loaded for the same reason; only a fault in bytes that are no text may be met in another
place.
-/

namespace MachineBundle

open Text (LineEnd)

variable {α β : Type}

/-! ## Answers that agree -/

/-- The same fault, or bytes that are no text, wherever it is met. -/
inductive Fault.SameKind : Fault → Fault → Prop
  | same (f : Fault) : SameKind f f
  | malformed (m m' : Text.Malformed) : SameKind (.malformed m) (.malformed m')

theorem Fault.SameKind.isUnreadable_eq {f f' : Fault} (h : f.SameKind f') : f'.isUnreadable = f.isUnreadable := by
  cases h <;> rfl

/-- The same answer, or faults of one kind. -/
inductive Agree : Except Fault α → Except Fault α → Prop
  | ok (a : α) : Agree (.ok a) (.ok a)
  | error {f f' : Fault} (h : f.SameKind f') : Agree (.error f) (.error f')

namespace Agree

theorem refl (r : Except Fault α) : Agree r r := by
  cases r with
  | ok a => exact ok a
  | error f => exact error (.same f)

theorem bind {r r' : Except Fault α} {next next' : α → Except Fault β} (h : Agree r r')
    (hn : ∀ a, Agree (next a) (next' a)) : Agree (r >>= next) (r' >>= next') := by
  cases h with
  | ok a => exact hn a
  | error h => exact error h

end Agree

/-! ## Trees -/

def Node.respelled (e : LineEnd) : Node → Node
  | .file content => .file (Text.respelled e content)
  | .directory => .directory

def Place.respelled (ends : Location → LineEnd) : Place → Place
  | .taken l n => .taken l (n.respelled (ends l))
  | .free directory name => .free directory name

namespace Tree

/-- A tree in which every file has its line feeds spelled as its location says. -/
def respelled (ends : Location → LineEnd) (t : Tree) : Tree :=
  { t with nodes := t.nodes.map fun (l, n) => (l, n.respelled (ends l)) }

/-- Line ends are spelled in another way only in files without carriage returns. Window layouts are no text, and stay. -/
structure MayRespell (t : Tree) (ends : Location → LineEnd) : Prop where
  noReturn : ∀ l content, t.node? l = some (.file content) → ends l ≠ .lf → 0x0D ∉ content.data.toList
  layout : ∀ l, ends (l ++ [Bundle.windowLayoutFile]) = .lf

variable {t : Tree} {ends : Location → LineEnd} {p : Path}

theorem node?_respelled (l : Location) : (t.respelled ends).node? l = (t.node? l).map (Node.respelled (ends l)) := by
  have hget : ∀ nodes : Table Location Node,
      Table.get? l (nodes.map fun (l, n) => (l, n.respelled (ends l))) = (nodes.get? l).map (Node.respelled (ends l)) := by
    intro nodes
    induction nodes with
    | nil => rfl
    | cons e r ih =>
      by_cases he : e.1 = l
      · simp [Table.get?, he]
      · simp [Table.get?, he, ih]
  unfold node?
  split
  · rfl
  · exact hget t.nodes

theorem follow_respelled (here : Location) (ps : List String) :
    (t.respelled ends).follow here ps = (t.follow here ps).map (Place.respelled ends) := by
  induction ps generalizing here with
  | nil =>
    simp only [follow, node?_respelled]
    cases t.node? here <;> rfl
  | cons part rest ih =>
    simp only [follow, node?_respelled, ih]
    cases t.node? here with
    | none => rfl
    | some n =>
      cases n with
      | file content => rfl
      | directory =>
        simp only [Option.map_some, Node.respelled, Option.map_eq_none_iff]
        split
        · rfl
        · split
          · rfl
          · split <;> rfl

theorem place_respelled (p : Path) : (t.respelled ends).place p = (t.place p).map (Place.respelled ends) := by
  rw [place_eq, place_eq, follow_respelled]
  split <;> rfl

theorem follow_taken {here l : Location} {n : Node} {ps : List String} (h : t.follow here ps = .ok (.taken l n)) :
    l = climb here ps ∧ t.node? l = some n := by
  induction ps generalizing here with
  | nil =>
    simp only [follow] at h
    split at h <;> cases h
    exact ⟨rfl, by assumption⟩
  | cons part rest ih =>
    simp only [follow] at h
    rw [climb]
    split at h
    · cases h
    · cases h
    · split at h
      · rename_i hdots
        rw [if_pos hdots]
        exact ih h
      · rename_i hdots
        rw [if_neg hdots]
        split at h
        · cases h
        · split at h
          · cases h
          · exact ih h

theorem place_taken {l : Location} {n : Node} (h : t.place p = .ok (.taken l n)) :
    l = t.locate p ∧ t.node? l = some n := by
  rw [place_eq] at h
  split at h
  · cases h
  · exact follow_taken h

theorem look_respelled (p : Path) :
    (t.respelled ends).look p = (t.look p).map (Option.map (Node.respelled (ends (t.locate p)))) := by
  unfold look
  rw [place_respelled]
  split
  · rfl
  · cases hplace : t.place p with
    | error refusal => cases refusal <;> rfl
    | ok place =>
      cases place with
      | taken l n => rw [← (place_taken hplace).1]; rfl
      | free directory name => rfl

theorem isFile_respelled (p : Path) : (t.respelled ends).isFile p = t.isFile p := by
  unfold isFile
  rw [look_respelled]
  cases t.look p with
  | error f => rfl
  | ok found =>
    cases found with
    | none => rfl
    | some n => cases n <;> rfl

theorem readBytes_respelled (p : Path) :
    (t.respelled ends).readBytes p = (t.readBytes p).map (Text.respelled (ends (t.locate p))) := by
  unfold readBytes
  rw [place_respelled]
  split
  · rfl
  · cases hplace : t.place p with
    | error refusal => rfl
    | ok place =>
      cases place with
      | taken l n =>
        rw [← (place_taken hplace).1]
        cases n <;> rfl
      | free directory name => rfl

theorem readBytes_eq_ok {content : ByteArray} (h : t.readBytes p = .ok content) :
    t.node? (t.locate p) = some (.file content) := by
  unfold readBytes at h
  split at h
  · cases h
  · split at h <;> cases h
    rename_i l hplace
    obtain ⟨rfl, hnode⟩ := place_taken hplace
    exact hnode

/-- The text of a file does not depend on how its line ends are spelled. -/
theorem MayRespell.readText (h : t.MayRespell ends) (p : Path) :
    Agree (t.readText p) ((t.respelled ends).readText p) := by
  unfold Tree.readText
  rw [readBytes_respelled]
  cases hbytes : t.readBytes p with
  | error f => exact .error (.same f)
  | ok content =>
    rcases Text.textOf_respelled (h.noReturn _ content (readBytes_eq_ok hbytes)) with hsame | ⟨m, m', hm, hm'⟩
    · exact (congrArg (Agree _) hsame).mpr (Agree.refl _)
    · exact (congrArg₂ Agree hm hm').mpr (.error (.malformed m m'))

end Tree

/-! ## Readings -/

/-- Two readings of two trees that agree, also on the identifiers that are drawn. -/
def Reading.Agree (t t' : Tree) (act act' : Reading α) : Prop :=
  ∀ trail trail' : Trail, trail'.supply = trail.supply →
    MachineBundle.Agree (outcome (act t) trail).1 (outcome (act' t') trail').1 ∧
      (outcome (act' t') trail').2.supply = (outcome (act t) trail).2.supply

namespace Reading.Agree

variable {t t' : Tree} {act act' : Reading α}

theorem pure (a : α) : Agree t t' (Pure.pure a) (Pure.pure a) :=
  fun _ _ h => ⟨.ok a, h⟩

theorem throw {f f' : Fault} (hf : f.SameKind f') :
    Agree t t' (MonadExcept.throw f : Reading α) (MonadExcept.throw f') :=
  fun _ _ h => ⟨.error hf, h⟩

theorem notify (n n' : Log.Notice) : Agree t t' (Reading.notify n) (Reading.notify n') :=
  fun _ _ h => ⟨.ok (), h⟩

theorem query {ask ask' : Tree → Except Fault α} (h : MachineBundle.Agree (ask t) (ask' t')) :
    Agree t t' (Reading.query ask) (Reading.query ask') :=
  fun _ _ hs => ⟨h, hs⟩

theorem query_same {ask : Tree → Except Fault α} (h : ask t' = ask t) :
    Agree t t' (Reading.query ask) (Reading.query ask) :=
  query (h ▸ MachineBundle.Agree.refl (ask t))

theorem draw : Agree t t' Reading.draw Reading.draw := by
  intro trail trail' h
  rw [outcome_draw, outcome_draw, h]
  exact ⟨.ok _, rfl⟩

/-- Either both fail with faults of one kind or both come to the same result. -/
theorem outcomes (h : Agree t t' act act') {trail trail' : Trail} (hs : trail'.supply = trail.supply) :
    ∃ trail₁ trail₁' : Trail, trail₁'.supply = trail₁.supply ∧
      ((∃ f f', outcome (act t) trail = (.error f, trail₁) ∧ outcome (act' t') trail' = (.error f', trail₁') ∧
        f.SameKind f') ∨
        ∃ a, outcome (act t) trail = (.ok a, trail₁) ∧ outcome (act' t') trail' = (.ok a, trail₁')) := by
  obtain ⟨hresult, hsupply⟩ := h trail trail' hs
  refine ⟨_, _, hsupply, ?_⟩
  generalize outcome (act t) trail = r at hresult
  generalize outcome (act' t') trail' = r' at hresult
  obtain ⟨r, trail₁⟩ := r
  obtain ⟨r', trail₁'⟩ := r'
  cases hresult with
  | ok a => exact .inr ⟨a, rfl, rfl⟩
  | error hf => exact .inl ⟨_, _, rfl, rfl, hf⟩

theorem bind {next next' : α → Reading β} (h : Agree t t' act act') (hn : ∀ a, Agree t t' (next a) (next' a)) :
    Agree t t' (act >>= next) (act' >>= next') := by
  intro trail trail' hs
  obtain ⟨trail₁, trail₁', hsupply, ⟨f, f', hf, hf', hkind⟩ | ⟨a, ha, ha'⟩⟩ := h.outcomes hs
  · rw [outcome_reading_bind_error hf, outcome_reading_bind_error hf']
    exact ⟨.error hkind, hsupply⟩
  · rw [outcome_reading_bind_ok ha, outcome_reading_bind_ok ha']
    exact hn a trail₁ trail₁' hsupply

theorem map (h : Agree t t' act act') (g : α → β) : Agree t t' (g <$> act) (g <$> act') := by
  rw [map_eq_pure_bind, map_eq_pure_bind]
  exact h.bind fun a => pure (g a)

theorem tryCatch {handle handle' : Fault → Reading α} (h : Agree t t' act act')
    (hh : ∀ f f', f.SameKind f' → Agree t t' (handle f) (handle' f')) :
    Agree t t' (MonadExcept.tryCatch act handle) (MonadExcept.tryCatch act' handle') := by
  intro trail trail' hs
  rw [outcome_reading_tryCatch, outcome_reading_tryCatch, outcome_tryCatch, outcome_tryCatch]
  obtain ⟨trail₁, trail₁', hsupply, ⟨f, f', hf, hf', hkind⟩ | ⟨a, ha, ha'⟩⟩ := h.outcomes hs
  · rw [hf, hf']
    exact hh f f' hkind trail₁ trail₁' hsupply
  · rw [ha, ha']
    exact ⟨.ok a, hsupply⟩

/-- Where something unreadable is passed over with a notice, the notice may tell another fault of the kind. -/
theorem passOver {f f' : Fault} (hf : f.SameKind f') (note : Fault → Log.Notice) (a : α) {report : Fault → Reading α}
    (h : ∀ f, report f = do
      if !f.isUnreadable then MonadExcept.throw f
      Reading.notify (note f)
      return a) : Agree t t' (report f) (report f') := by
  rw [h, h, hf.isUnreadable_eq]
  cases f.isUnreadable with
  | false => exact (throw hf).bind fun _ => (notify (note f) (note f')).bind fun _ => pure a
  | true => exact (notify (note f) (note f')).bind fun _ => pure a

theorem mapM {ι : Type} {act : ι → Reading α} {l : List ι} (h : ∀ i, Agree t t' (act i) (act i)) :
    Agree t t' (l.mapM act) (l.mapM act) := by
  induction l with
  | nil => exact pure []
  | cons i r ih =>
    rw [List.mapM_cons]
    exact (h i).bind fun a => ih.bind fun as => pure (a :: as)

theorem about (h : Agree t t' act act') (machine : String) :
    Agree t t' (Reading.about machine act) (Reading.about machine act') :=
  fun trail trail' hs => h { trail with notices := [] } { trail' with notices := [] } hs

end Reading.Agree

/-! ## Bundles -/

namespace Bundle

variable {t : Tree} {ends : Location → LineEnd} {bundle : Path} {b : Binding} (h : t.MayRespell ends)

include h

theorem content?_respelled (file : String) : content? (t.respelled ends) bundle file = content? t bundle file := by
  unfold content?
  have hagree := h.readText (bundle.join file)
  generalize t.readText (bundle.join file) = r at hagree
  generalize (t.respelled ends).readText (bundle.join file) = r' at hagree
  cases hagree with
  | ok text => rfl
  | error hkind => cases hkind <;> rfl

theorem stateNames_respelled : Agree (stateNames t bundle) (stateNames (t.respelled ends) bundle) :=
  (h.readText _).bind fun text => .ok (namesIn text)

theorem transitionCount_respelled (state : String) :
    transitionCount b (t.respelled ends) bundle state = transitionCount b t bundle state := by
  unfold transitionCount
  rw [content?_respelled h]

theorem checkIndex_respelled (state : String) (index : Int) :
    checkIndex b (t.respelled ends) bundle state index = checkIndex b t bundle state index := by
  unfold checkIndex
  rw [transitionCount_respelled h]

theorem targetOf_respelled (states : List State) (state : String) (index : Int) :
    targetOf b (t.respelled ends) bundle states state index = targetOf b t bundle states state index := by
  unfold targetOf
  rw [checkIndex_respelled h, content?_respelled h]

theorem suspendState_respelled (states : List State) :
    suspendState b (t.respelled ends) bundle states = suspendState b t bundle states := by
  unfold suspendState
  rw [content?_respelled h]

theorem addSections_respelled (files : List (Section × String)) (p : Boilerplate) :
    addSections (t.respelled ends) bundle files p = addSections t bundle files p := by
  induction files generalizing p with
  | nil => rfl
  | cons e r ih => simp only [addSections, content?_respelled h, ih]

theorem windowLayout_respelled : windowLayout (t.respelled ends) bundle = windowLayout t bundle := by
  have hlayout : ends (t.locate (bundle.join windowLayoutFile)) = .lf := by
    rw [t.locate_join_fileName bundle fileName_windowLayoutFile, h.layout]
  have hbytes : (t.respelled ends).readBytes (bundle.join windowLayoutFile) =
      t.readBytes (bundle.join windowLayoutFile) := by
    rw [Tree.readBytes_respelled, hlayout]
    cases t.readBytes (bundle.join windowLayoutFile) with
    | error f => rfl
    | ok content => exact congrArg Except.ok (Text.respelled_lf content)
  unfold windowLayout
  rw [Tree.isFile_respelled, hbytes]

/-! ### Readings of bundles -/

theorem guardOf_respelled (state : String) (index : Int) :
    Reading.Agree t (t.respelled ends) (guardOf b bundle state index) (guardOf b bundle state index) := by
  refine (Reading.Agree.query_same (checkIndex_respelled h state index)).bind fun _ => ?_
  refine ((Reading.Agree.query (h.readText _)).map _).tryCatch fun f f' hkind => ?_
  exact .passOver hkind (unreadableGuard b bundle _) defaultGuard fun _ => rfl

theorem bindingOrDefault_respelled :
    Reading.Agree t (t.respelled ends) (bindingOrDefault bundle) (bindingOrDefault bundle) := by
  have hrecord : Reading.Agree t (t.respelled ends) (languageRecord? bundle) (languageRecord? bundle) := by
    refine (Reading.Agree.query_same (Tree.isFile_respelled _)).bind fun there => ?_
    cases there with
    | false => exact .pure none
    | true =>
      refine ((Reading.Agree.query (h.readText _)).map some).tryCatch fun f f' hkind => ?_
      exact .passOver hkind (unreadableLanguage bundle) none fun _ => rfl
  have hbinding : Reading.Agree t (t.respelled ends) (binding? bundle) (binding? bundle) :=
    hrecord.bind fun _ => .pure _
  exact hbinding.bind fun _ => .pure _

end Bundle

namespace Machine

variable {t : Tree} {ends : Location → LineEnd} {bundle : Path} {b : Binding} (h : t.MayRespell ends)

include h

theorem readTransitions_respelled (states : List State) (s : State) :
    Reading.Agree t (t.respelled ends) (readTransitions b bundle states s) (readTransitions b bundle states s) := by
  refine (Reading.Agree.query_same (Bundle.transitionCount_respelled h s.name)).bind fun count => .mapM fun index => ?_
  refine (Bundle.guardOf_respelled h s.name index).bind fun label => ?_
  refine (Reading.Agree.query_same (Bundle.targetOf_respelled h states s.name index)).bind fun target => ?_
  exact Reading.Agree.draw.bind fun _ => .pure _

theorem readGraph_respelled :
    Reading.Agree t (t.respelled ends) (readGraph b bundle) (readGraph b bundle) := by
  have hfresh : ∀ name, Reading.Agree t (t.respelled ends) (freshState name) (freshState name) := fun name =>
    Reading.Agree.draw.bind fun _ => .pure _
  refine (Reading.Agree.query (Bundle.stateNames_respelled h)).bind fun names => ?_
  refine (Reading.Agree.mapM hfresh).bind fun states => ?_
  refine (Reading.Agree.mapM (readTransitions_respelled h states)).bind fun rows => ?_
  exact (Reading.Agree.query_same (Bundle.suspendState_respelled h states)).bind fun _ => .pure _

theorem readParts_respelled :
    Reading.Agree t (t.respelled ends) (readParts b bundle) (readParts b bundle) := by
  refine (readGraph_respelled h).bind fun (states, graph) => ?_
  refine (Reading.Agree.query_same (Bundle.addSections_respelled h _ _)).bind fun boilerplate => ?_
  refine (Reading.Agree.mapM fun s => ?_).bind fun codes => ?_
  · exact (Reading.Agree.query_same (Bundle.addSections_respelled h _ _)).bind fun _ => .pure _
  · exact (Reading.Agree.query_same (Bundle.windowLayout_respelled h)).bind fun _ => .pure _

theorem load_respelled (bundle : Path) (binding : Option Binding) :
    Reading.Agree t (t.respelled ends) (load bundle binding) (load bundle binding) := by
  refine Reading.Agree.about ?_ bundle.stem
  cases binding with
  | some b => exact readParts_respelled h
  | none => exact (Bundle.bindingOrDefault_respelled h).bind fun b => readParts_respelled h

end Machine

theorem Arrangement.loadNames_respelled {t : Tree} {ends : Location → LineEnd} (h : t.MayRespell ends)
    (directory : Path) : Agree (loadNames t directory) (loadNames (t.respelled ends) directory) := by
  unfold loadNames
  dsimp only
  rw [Tree.isFile_respelled]
  refine (Agree.refl _).bind fun there => ?_
  cases there with
  | false => exact .refl _
  | true => exact (h.readText _).bind fun text => .ok (namesIn text)

/-- However line ends are spelled, an arrangement lists the same names, and from wherever a bundle is loaded, faults of
one kind come up or the same machine up to identifiers. -/
theorem Tree.MayRespell.line_ends_do_not_matter {t : Tree} {ends : Location → LineEnd} (h : t.MayRespell ends) :
    (∀ directory, Agree (Arrangement.loadNames t directory) (Arrangement.loadNames (t.respelled ends) directory)) ∧
      ∀ (bundle : Path) (binding : Option Binding) (trail trail' : Trail),
        (∃ f f', (outcome (Machine.load bundle binding t) trail).1 = .error f ∧
          (outcome (Machine.load bundle binding (t.respelled ends)) trail').1 = .error f' ∧ f.SameKind f') ∨
        ∃ m m', (outcome (Machine.load bundle binding t) trail).1 = .ok m ∧
          (outcome (Machine.load bundle binding (t.respelled ends)) trail').1 = .ok m' ∧ m.SameButIds m' ∧
          (trail'.supply = trail.supply → m' = m) := by
  refine ⟨Arrangement.loadNames_respelled h, fun bundle binding trail trail' => ?_⟩
  -- first to the other tree with the same supply, then there to the other supply
  obtain ⟨_, _, -, ⟨f, f', hf, hf', hkind⟩ | ⟨m, hm, hm'⟩⟩ :=
    (Machine.load_respelled h bundle binding).outcomes (show trail.supply = trail.supply from rfl)
  all_goals
    rcases Machine.load_from_anywhere (t.respelled ends) bundle binding trail trail' with
      ⟨g, hg, hg'⟩ | ⟨n, n', hn, hn', hsame⟩
  · rw [hf'] at hg
    cases hg
    exact .inl ⟨f, f', by rw [hf], hg', hkind⟩
  · rw [hf'] at hn
    cases hn
  · rw [hm'] at hg
    cases hg
  · rw [hm'] at hn
    cases hn
    refine .inr ⟨m, n', by rw [hm], hn', hsame, fun hsupply => ?_⟩
    have hload := (Machine.load_of_supply (t.respelled ends) bundle binding hsupply).1
    rw [hn', hm'] at hload
    exact Except.ok.inj hload

/-! ### A workshop -/

/-- An arrangement of a machine with two states and one whose list of states is no text. -/
def workshop : Tree where
  home := ["work"]
  nodes :=
    [(["work"], .directory), (["work", "Machines"], .file "A\nB\n".toUTF8), (["work", "A.machine"], .directory),
      (["work", "A.machine", "Language"], .file "c\n".toUTF8), (["work", "A.machine", "States"], .file "S\nT\n".toUTF8),
      (["work", "A.machine", "State_S.h"], .file "#define S_NUMBER_OF_TRANSITIONS\n1\n".toUTF8),
      (["work", "B.machine"], .directory), (["work", "B.machine", "States"], .file ⟨#[0x0A, 0xFF]⟩)]
  scratch := []

/-- Lists have another line end than everything else. -/
def workshopEnds (l : Location) : LineEnd :=
  if l.getLast? = some Bundle.windowLayoutFile then .lf else if l.getLast? = some Bundle.statesFile then .crlf else .cr

theorem workshop_mayRespell : workshop.MayRespell workshopEnds where
  noReturn := by
    have hall : workshop.nodes.all (fun e =>
        match e.2 with
        | .file content => !content.data.toList.contains 0x0D
        | .directory => true) = true := by
      decide +kernel
    intro l content hnode _
    unfold Tree.node? at hnode
    split at hnode
    · cases hnode
    · simpa using List.all_eq_true.mp hall _ (Table.mem_of_get? hnode)
  layout := by
    intro l
    simp [workshopEnds]

theorem workshop_in_other_line_ends :
    workshop.MayRespell workshopEnds ∧ Arrangement.loadNames (workshop.respelled workshopEnds) .here = .ok ["A", "B"] ∧
      (∃ m, (outcome (Machine.load (.ofText "A.machine") none (workshop.respelled workshopEnds)) ⟨.start, []⟩).1 = .ok m ∧
        m.graph.states.length = 2 ∧ m.graph.transitions.length = 1) ∧
      ∃ place, (outcome (Machine.load (.ofText "B.machine") none (workshop.respelled workshopEnds)) ⟨.start, []⟩).1 =
        .error (.malformed place) := by
  obtain ⟨hnames, hload⟩ := workshop_mayRespell.line_ends_do_not_matter
  refine ⟨workshop_mayRespell, ?_, ?_, ?_⟩
  · have hlisted : (Arrangement.loadNames workshop .here).toOption = some ["A", "B"] := by decide +kernel
    have hagree := hnames .here
    rw [eq_ok_of_toOption hlisted] at hagree
    generalize Arrangement.loadNames (workshop.respelled workshopEnds) .here = r at hagree
    cases hagree
    rfl
  · have hcounts : (outcome (Machine.load (.ofText "A.machine") none workshop) ⟨.start, []⟩).1.toOption.map (fun m =>
        (m.graph.states.length, m.graph.transitions.length)) = some (2, 1) := by decide +kernel
    rcases hload (.ofText "A.machine") none ⟨.start, []⟩ ⟨.start, []⟩ with ⟨f, f', hf, -⟩ | ⟨m, m', hm, hm', -, hsame⟩
    · rw [hf] at hcounts
      cases hcounts
    · rw [hm] at hcounts
      cases hsame rfl
      have hpair := Option.some.inj hcounts
      exact ⟨m, hm', congrArg Prod.fst hpair, congrArg Prod.snd hpair⟩
  · have hfault : fault? (outcome (Machine.load (.ofText "B.machine") none workshop) ⟨.start, []⟩).1 =
        some (.malformed ⟨1, 2, 0xFF, .invalidStart⟩) := by decide +kernel
    rcases hload (.ofText "B.machine") none ⟨.start, []⟩ ⟨.start, []⟩ with ⟨f, f', hf, hf', hkind⟩ | ⟨m, m', hm, -⟩
    · rw [hf] at hfault
      cases hfault
      cases hkind with
      | same => exact ⟨_, hf'⟩
      | malformed _ place => exact ⟨place, hf'⟩
    · rw [hm] at hfault
      cases hfault

end MachineBundle
