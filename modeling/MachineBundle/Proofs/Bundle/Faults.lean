import MachineBundle.Bundle.Machine
import MachineBundle.Proofs.Bundle.Queries

/-!
# Faults of loading

A bundle is not loaded where a file cannot be read, a path has a NUL character or a recorded number is too long. No
other fault comes up: the transitions that are asked for are always in range. A file that cannot be read matters for the
list of states only, and a path that is too long for what is looked for at it.
-/

namespace MachineBundle

variable {α β : Type}

/-- What can be wrong with files that are read. -/
def Fault.isOfReading : Fault → Bool
  | nullCharacter | numberTooLong _ => true
  | f => f.isUnreadable

/-- Something that stands in a file cannot be used: a name that no file can have, or a number with too many digits. -/
def Fault.isIllegible : Fault → Bool
  | nullCharacter | numberTooLong _ => true
  | _ => false

/-- Something is looked up at a position where there is nothing. -/
def Fault.isIndexFault : Fault → Bool
  | transitionOutOfRange .. | emptyScalar => true
  | _ => false

theorem Fault.isIndexFault_of_isOfReading {f : Fault} (h : f.isOfReading = true) : f.isIndexFault = false := by
  cases f <;> simp_all [isOfReading, isIndexFault, isUnreadable, isSystem]

theorem Fault.isOfReading_eq (f : Fault) : f.isOfReading = (f.isIllegible || f.isUnreadable) := by
  cases f <;> rfl

theorem Fault.isOfReading_of_isIllegible {f : Fault} (h : f.isIllegible = true) : f.isOfReading = true := by
  rw [isOfReading_eq, h, Bool.true_or]

theorem Fault.isOfReading_of_isUnreadable {f : Fault} (h : f.isUnreadable = true) : f.isOfReading = true := by
  rw [isOfReading_eq, h, Bool.or_true]

theorem Fault.isIllegible_of_isOfReading {f : Fault} (h : f.isOfReading = true) (hf : f.isUnreadable = false) :
    f.isIllegible = true := by
  rwa [isOfReading_eq, hf, Bool.or_false] at h

/-- Where there is no answer, that is because of a fault of a kind. -/
def Answers (p : Fault → Bool) (r : Except Fault α) : Prop :=
  ∀ f, r = .error f → p f = true

namespace Answers

variable {p q : Fault → Bool}

theorem ok (a : α) : Answers p (.ok a) := by
  intro f h
  cases h

theorem error {f : Fault} (h : p f = true) : Answers p (.error f : Except Fault α) := by
  intro g hg
  cases hg
  exact h

theorem mono {r : Except Fault α} (h : Answers q r) (hqp : ∀ f, q f = true → p f = true) : Answers p r :=
  fun f hf => hqp f (h f hf)

theorem bind {r : Except Fault α} {next : α → Except Fault β} (h : Answers p r)
    (hn : ∀ a, r = .ok a → Answers p (next a)) : Answers p (r >>= next) := by
  cases r with
  | error f => exact error (h f rfl)
  | ok a => exact hn a rfl

theorem map {r : Except Fault α} (h : Answers p r) (g : α → β) : Answers p (r.map g) := by
  cases r with
  | error f => exact error (h f rfl)
  | ok a => exact ok (g a)

end Answers

namespace Tree

theorem look_answers (t : Tree) (p : Path) : Answers Fault.isUnreadable (t.look p) := by
  unfold look
  split
  · exact .ok _
  · split
    · exact .ok _
    · exact .ok _
    · exact .error rfl
    · exact .ok _

theorem isFile_answers (t : Tree) (p : Path) : Answers Fault.isUnreadable (t.isFile p) :=
  (t.look_answers p).map _

theorem readBytes_answers (t : Tree) (p : Path) : Answers Fault.isOfReading (t.readBytes p) := by
  unfold readBytes
  split
  · exact .error rfl
  · split
    · exact .ok _
    · exact .error rfl
    · exact .error rfl
    · exact .error rfl

theorem textOf_answers (content : ByteArray) : Answers Fault.isUnreadable (textOf content) := by
  unfold textOf
  split
  · exact .ok _
  · exact .error rfl

theorem readText_answers (t : Tree) (p : Path) : Answers Fault.isOfReading (t.readText p) :=
  (t.readBytes_answers p).bind fun content _ => (textOf_answers content).mono fun _ => Fault.isOfReading_of_isUnreadable

theorem hasNull_of_isFile {t : Tree} {p : Path} (h : t.isFile p = .ok true) : hasNull p = false := by
  unfold isFile look at h
  split at h
  · cases h
  · rename_i hnull
    exact Bool.eq_false_iff.mpr hnull

/-- Without NUL characters in a path only the tree can be at fault, or what stands in the file. -/
theorem readBytes_unreadable {t : Tree} {p : Path} (hp : hasNull p = false) :
    Answers Fault.isUnreadable (t.readBytes p) := by
  unfold readBytes
  rw [hp, if_neg Bool.false_ne_true]
  split
  · exact .ok _
  · exact .error rfl
  · exact .error rfl
  · exact .error rfl

theorem readText_unreadable {t : Tree} {p : Path} (hp : hasNull p = false) :
    Answers Fault.isUnreadable (t.readText p) :=
  (readBytes_unreadable hp).bind fun content _ => textOf_answers content

end Tree

namespace Bundle

variable (b : Binding) (t : Tree) (bundle : Path)

theorem content?_answers (file : String) : Answers Fault.isIllegible (content? t bundle file) := by
  unfold content?
  split
  · exact .ok _
  · rename_i f hf
    cases hu : f.isUnreadable with
    | true => exact .ok _
    | false => exact .error (Fault.isIllegible_of_isOfReading (t.readText_answers _ f hf) hu)

theorem number?_answers (p : Scan.Pattern) (text : Option String) : Answers Fault.isIllegible (number? p text) := by
  unfold number?
  split
  · exact .ok _
  · split
    · exact .ok _
    · exact .error rfl

theorem stateNames_answers : Answers Fault.isOfReading (stateNames t bundle) :=
  (t.readText_answers _).bind fun _ _ => .ok _

theorem transitionCount_answers (state : String) : Answers Fault.isIllegible (transitionCount b t bundle state) :=
  (content?_answers t bundle _).bind fun _ _ => (number?_answers _ _).bind fun _ _ => .ok _

theorem suspendState_answers (states : List State) : Answers Fault.isIllegible (suspendState b t bundle states) :=
  (content?_answers t bundle _).bind fun _ _ => (number?_answers _ _).bind fun _ _ => .ok _

theorem addSections_answers (files : List (Section × String)) (p : Boilerplate) :
    Answers Fault.isIllegible (addSections t bundle files p) := by
  induction files generalizing p with
  | nil => exact .ok p
  | cons e r ih =>
    obtain ⟨s, file⟩ := e
    refine (content?_answers t bundle file).bind fun content _ => ?_
    cases content with
    | none => exact ih p
    | some code => exact ih (p.set s code)

theorem boilerplate_answers : Answers Fault.isIllegible (boilerplate b t bundle) :=
  addSections_answers t bundle _ _

theorem stateBoilerplate_answers (state : String) : Answers Fault.isIllegible (stateBoilerplate t bundle state) :=
  addSections_answers t bundle _ _

theorem windowLayout_answers : Answers Fault.isUnreadable (windowLayout t bundle) := by
  refine (t.isFile_answers _).bind fun there hthere => ?_
  cases there with
  | false => exact .ok none
  | true =>
    exact (Tree.readBytes_unreadable (Tree.hasNull_of_isFile hthere)).bind fun content _ => .ok (some content)

variable {b t bundle}

theorem targetOf_answers {state : String} {count index : Nat} (hc : transitionCount b t bundle state = .ok count)
    (hi : index < count) (states : List State) :
    Answers Fault.isIllegible (targetOf b t bundle states state index) := by
  unfold targetOf
  rw [checkIndex_ok hc hi]
  exact (content?_answers t bundle _).bind fun _ _ => (number?_answers _ _).bind fun _ _ => .ok _

end Bundle

/-! ## Readings -/

/-- Where a reading of a tree fails, that is because of a fault of a kind. -/
def Reading.Reads (p : Fault → Bool) (act : Reading α) (t : Tree) : Prop :=
  FailsOnly p (act t)

namespace Reading.Reads

variable {p q : Fault → Bool} {t : Tree}

theorem mono {act : Reading α} (h : Reads q act t) (hqp : ∀ f, q f = true → p f = true) : Reads p act t :=
  FailsOnly.mono h hqp

theorem pure (a : α) : Reads p (Pure.pure a) t :=
  FailsOnly.pure a

theorem throw {f : Fault} (h : p f = true) : Reads p (MonadExcept.throw f : Reading α) t :=
  FailsOnly.throw h

theorem query {ask : Tree → Except Fault α} (h : Answers p (ask t)) : Reads p (Reading.query ask) t := by
  intro trail f trail' hf
  rw [outcome_reading_query, Prod.mk.injEq] at hf
  exact h f hf.1

theorem notify (n : Log.Notice) : Reads p (Reading.notify n) t := by
  intro trail f trail' h
  cases h

theorem draw : Reads p Reading.draw t := by
  intro trail f trail' h
  rw [outcome_draw] at h
  cases h

theorem bind {act : Reading α} {next : α → Reading β} (h : Reads p act t)
    (hn : ∀ a trail trail', outcome (act t) trail = (.ok a, trail') → Reads p (next a) t) :
    Reads p (act >>= next) t :=
  FailsOnly.bind h hn

/-- Once a question is answered, the reading goes on with the answer. -/
theorem query_bind {ask : Tree → Except Fault α} {next : α → Reading β} (h : Answers p (ask t))
    (hn : ∀ a, ask t = .ok a → Reads p (next a) t) : Reads p (Reading.query ask >>= next) t := by
  refine (query h).bind fun a trail trail' ha => hn a ?_
  rw [outcome_reading_query, Prod.mk.injEq] at ha
  exact ha.1

theorem map {act : Reading α} (h : Reads p act t) (g : α → β) : Reads p (g <$> act) t :=
  FailsOnly.map h g

theorem tryCatch {act : Reading α} {handle : Fault → Reading α} (h : Reads q act t)
    (hh : ∀ f, q f = true → Reads p (handle f) t) : Reads p (MonadExcept.tryCatch act handle) t :=
  FailsOnly.tryCatch h hh

theorem mapM {act : α → Reading β} {l : List α} (h : ∀ a ∈ l, Reads p (act a) t) : Reads p (l.mapM act) t := by
  induction l with
  | nil => exact pure []
  | cons a r ih =>
    rw [List.mapM_cons]
    refine (h a List.mem_cons_self).bind fun _ _ _ _ => ?_
    exact (ih fun x hx => h x (List.mem_cons_of_mem a hx)).bind fun _ _ _ _ => pure _

theorem about {act : Reading α} (h : Reads p act t) (machine : String) : Reads p (Reading.about machine act) t := by
  intro trail f trail' hf
  rw [Prod.ext_iff, outcome_about_fst] at hf
  exact h _ f (outcome (act t) { trail with notices := [] }).2 (Prod.ext hf.1 rfl)

end Reading.Reads

/-! ## Loading -/

open Reading

variable {b : Binding} {t : Tree} {bundle : Path}

/-- The record of the language is passed over if it holds no text. -/
theorem Bundle.binding?_reads : Reads Fault.isUnreadable (Bundle.binding? bundle) t := by
  have hrecord : Reads Fault.isUnreadable (Bundle.languageRecord? bundle) t := by
    refine Reads.query_bind (t.isFile_answers _) fun there hthere => ?_
    cases there with
    | false => exact .pure none
    | true =>
      have htext : Answers Fault.isUnreadable (t.readText (bundle.join languageFile)) :=
        Tree.readText_unreadable (Tree.hasNull_of_isFile hthere)
      refine ((Reads.query htext).map some).tryCatch fun f hf => ?_
      rw [hf]
      exact (Reads.notify _).bind fun _ _ _ _ => .pure none
  exact hrecord.bind fun _ _ _ _ => .pure _

theorem Bundle.bindingOrDefault_reads : Reads Fault.isUnreadable (Bundle.bindingOrDefault bundle) t :=
  binding?_reads.bind fun _ _ _ _ => .pure _

theorem Bundle.guardOf_reads {state : String} {count index : Nat}
    (hc : Bundle.transitionCount b t bundle state = .ok count) (hi : index < count) :
    Reads Fault.isIllegible (Bundle.guardOf b bundle state index) t := by
  refine Reads.query_bind ?_ fun _ _ => ?_
  · rw [checkIndex_ok hc hi]
    exact .ok ()
  · refine ((Reads.query (t.readText_answers _)).map Text.trimmed).tryCatch fun f hf => ?_
    cases hu : f.isUnreadable with
    | false =>
      exact (Reads.throw (Fault.isIllegible_of_isOfReading hf hu)).bind fun _ _ _ h => by cases h
    | true => exact (Reads.notify _).bind fun _ _ _ _ => .pure _

namespace Machine

theorem readTransition_reads {s : State} {count index : Nat}
    (hc : Bundle.transitionCount b t bundle s.name = .ok count) (hi : index < count) (states : List State) :
    Reads Fault.isIllegible (readTransition b bundle states s index) t := by
  refine (Bundle.guardOf_reads hc hi).bind fun _ _ _ _ => ?_
  refine Reads.query_bind (Bundle.targetOf_answers hc hi states) fun _ _ => ?_
  exact Reads.draw.bind fun _ _ _ _ => .pure _

theorem readTransitions_reads (states : List State) (s : State) :
    Reads Fault.isIllegible (readTransitions b bundle states s) t :=
  Reads.query_bind (Bundle.transitionCount_answers b t bundle s.name) fun _ hc =>
    .mapM fun _ hi => readTransition_reads hc (List.mem_range.mp hi) states

/-- Once the states are listed, only what stands in the files can be at fault. -/
theorem readGraph_reads {names : List String} (h : Bundle.stateNames t bundle = .ok names) :
    Reads Fault.isIllegible (readGraph b bundle) t := by
  refine Reads.query_bind (fun f hf => by rw [h] at hf; cases hf) fun names _ => ?_
  refine (Reads.mapM fun _ _ => Reads.draw.bind fun _ _ _ _ => .pure _).bind fun states _ _ _ => ?_
  refine (Reads.mapM fun s _ => readTransitions_reads states s).bind fun _ _ _ _ => ?_
  exact Reads.query_bind (Bundle.suspendState_answers b t bundle states) fun _ _ => .pure _

theorem readParts_reads : Reads Fault.isOfReading (readParts b bundle) t := by
  have hgraph : Reads Fault.isOfReading (readGraph b bundle) t := by
    cases hnames : Bundle.stateNames t bundle with
    | error f =>
      refine Reads.query_bind (Bundle.stateNames_answers t bundle) fun names h => ?_
      rw [hnames] at h
      cases h
    | ok names => exact (readGraph_reads hnames).mono fun _ => Fault.isOfReading_of_isIllegible
  refine hgraph.bind fun g _ _ _ => ?_
  have hcode := (Bundle.boilerplate_answers b t bundle).mono fun _ => Fault.isOfReading_of_isIllegible
  refine Reads.query_bind hcode fun _ _ => ?_
  refine (Reads.mapM fun s _ => ?_).bind fun _ _ _ _ => ?_
  · refine Reads.query_bind ?_ fun _ _ => .pure _
    exact (Bundle.stateBoilerplate_answers t bundle s.name).mono fun _ => Fault.isOfReading_of_isIllegible
  · refine Reads.query_bind ?_ fun _ _ => .pure _
    exact (Bundle.windowLayout_answers t bundle).mono fun _ => Fault.isOfReading_of_isUnreadable

/-- A bundle that is not loaded has a file that cannot be read. -/
theorem load_reads (bundle : Path) (binding : Option Binding) (t : Tree) :
    Reads Fault.isOfReading (load bundle binding) t := by
  refine Reads.about ?_ bundle.stem
  cases binding with
  | none =>
    have hbinding : Reads Fault.isOfReading (Bundle.bindingOrDefault bundle) t :=
      Bundle.bindingOrDefault_reads.mono fun _ => Fault.isOfReading_of_isUnreadable
    exact hbinding.bind fun _ _ _ _ => readParts_reads
  | some b => exact (Reads.pure b).bind fun _ _ _ _ => readParts_reads

end Machine

end MachineBundle
