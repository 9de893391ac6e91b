import MachineBundle.Action

/-!
# Outcomes

What a call comes to from a state: its result and the state after it. Calls on the tree, readings and actions all
run this way.
-/

namespace MachineBundle

variable {σ α β : Type}

/-- The result of a call from a state, and the state after it. -/
def outcome (act : ExceptT Fault (StateM σ) α) (s : σ) : Except Fault α × σ :=
  act.run.run s

@[simp] theorem outcome_pure (a : α) (s : σ) : outcome (pure a) s = (.ok a, s) := rfl

@[simp] theorem outcome_throw (f : Fault) (s : σ) :
    outcome (throw f : ExceptT Fault (StateM σ) α) s = (.error f, s) := rfl

@[simp] theorem outcome_get (s : σ) : outcome (get : ExceptT Fault (StateM σ) σ) s = (.ok s, s) := rfl

@[simp] theorem outcome_set (s' s : σ) : outcome (set s' : ExceptT Fault (StateM σ) PUnit) s = (.ok ⟨⟩, s') := rfl

@[simp] theorem outcome_modify (f : σ → σ) (s : σ) :
    outcome (modify f : ExceptT Fault (StateM σ) PUnit) s = (.ok ⟨⟩, f s) := rfl

theorem outcome_bind (act : ExceptT Fault (StateM σ) α) (next : α → ExceptT Fault (StateM σ) β) (s : σ) :
    outcome (act >>= next) s =
      match outcome act s with
      | (.ok a, s') => outcome (next a) s'
      | (.error f, s') => (.error f, s') := by
  unfold outcome ExceptT.run StateT.run
  simp only [bind, ExceptT.bind, ExceptT.mk, StateT.bind, ExceptT.bindCont]
  rcases act s with ⟨r | r, s'⟩ <;> rfl

theorem outcome_tryCatch (act : ExceptT Fault (StateM σ) α) (handle : Fault → ExceptT Fault (StateM σ) α) (s : σ) :
    outcome (tryCatch act handle) s =
      match outcome act s with
      | (.ok a, s') => (.ok a, s')
      | (.error f, s') => outcome (handle f) s' := by
  unfold outcome ExceptT.run StateT.run
  simp only [tryCatch, tryCatchThe, MonadExceptOf.tryCatch, ExceptT.tryCatch, ExceptT.mk, bind, StateT.bind]
  rcases act s with ⟨r | r, s'⟩ <;> rfl

theorem outcome_map (g : α → β) (act : ExceptT Fault (StateM σ) α) (s : σ) :
    outcome (g <$> act) s =
      match outcome act s with
      | (.ok a, s') => (.ok (g a), s')
      | (.error f, s') => (.error f, s') := by
  unfold outcome ExceptT.run StateT.run
  simp only [Functor.map, ExceptT.map, ExceptT.mk, bind, StateT.bind]
  rcases act s with ⟨r | r, s'⟩ <;> rfl

theorem outcome_bind_ok {act : ExceptT Fault (StateM σ) α} {s s' : σ} {a : α} (h : outcome act s = (.ok a, s'))
    (next : α → ExceptT Fault (StateM σ) β) : outcome (act >>= next) s = outcome (next a) s' := by
  rw [outcome_bind, h]

theorem outcome_bind_error {act : ExceptT Fault (StateM σ) α} {s s' : σ} {f : Fault}
    (h : outcome act s = (.error f, s')) (next : α → ExceptT Fault (StateM σ) β) :
    outcome (act >>= next) s = (.error f, s') := by
  rw [outcome_bind, h]

/-- A series that succeeds succeeds at its first call, and from there with the rest. -/
theorem outcome_bind_eq_ok {act : ExceptT Fault (StateM σ) α} {next : α → ExceptT Fault (StateM σ) β} {s s' : σ}
    {b : β} (h : outcome (act >>= next) s = (.ok b, s')) :
    ∃ a s₁, outcome act s = (.ok a, s₁) ∧ outcome (next a) s₁ = (.ok b, s') := by
  rw [outcome_bind] at h
  rcases hr : outcome act s with ⟨r | r, s₁⟩
  · simp [hr] at h
  · rw [hr] at h
    exact ⟨r, s₁, rfl, h⟩

theorem outcome_map_eq_ok {g : α → β} {act : ExceptT Fault (StateM σ) α} {s s' : σ} {b : β}
    (h : outcome (g <$> act) s = (.ok b, s')) : ∃ a, outcome act s = (.ok a, s') ∧ g a = b := by
  rw [outcome_map] at h
  rcases hr : outcome act s with ⟨r | r, s₁⟩
  · simp [hr] at h
  · simp only [hr, Prod.mk.injEq, Except.ok.injEq] at h
    obtain ⟨rfl, rfl⟩ := h
    exact ⟨r, rfl, rfl⟩

theorem exists_of_result {r : Except Fault α × σ} {a : α} (h : r.1 = .ok a) : ∃ s, r = (.ok a, s) :=
  ⟨r.2, Prod.ext h rfl⟩

theorem exists_of_isOk {r : Except Fault α × σ} (h : r.1.isOk = true) : ∃ a s, r = (.ok a, s) := by
  rcases r with ⟨f | a, s⟩
  · cases h
  · exact ⟨a, s, rfl⟩

/-! ## Failing -/

/-- Calls that fail from a state with a fault of a kind. -/
def FailsBy (p : Fault → Bool) (act : ExceptT Fault (StateM σ) α) (s : σ) : Prop :=
  ∃ f, (outcome act s).1 = .error f ∧ p f = true

/-- Calls that fail with faults of a kind only. -/
def FailsOnly (p : Fault → Bool) (act : ExceptT Fault (StateM σ) α) : Prop :=
  ∀ s f s', outcome act s = (.error f, s') → p f = true

section

variable {p q : Fault → Bool} {act : ExceptT Fault (StateM σ) α} {next : α → ExceptT Fault (StateM σ) β} {s : σ}

theorem failsBy_iff : FailsBy p act s ↔ ∃ f s', outcome act s = (.error f, s') ∧ p f = true := by
  unfold FailsBy
  rcases outcome act s with ⟨f | a, s₁⟩ <;> simp

namespace FailsOnly

theorem not_failsBy (h : FailsOnly q act) (hpq : ∀ f, q f = true → p f = false) : ¬FailsBy p act s := by
  intro hfails
  obtain ⟨f, s', hf, hp⟩ := failsBy_iff.mp hfails
  rw [hpq f (h s f s' hf)] at hp
  cases hp

theorem mono (h : FailsOnly q act) (hqp : ∀ f, q f = true → p f = true) : FailsOnly p act :=
  fun s f s' hf => hqp f (h s f s' hf)

theorem pure (a : α) : FailsOnly p (Pure.pure a : ExceptT Fault (StateM σ) α) := by
  intro s f s' h
  cases h

theorem throw {f : Fault} (h : p f = true) : FailsOnly p (MonadExcept.throw f : ExceptT Fault (StateM σ) α) := by
  intro s g s' hg
  cases hg
  exact h

theorem bind (h : FailsOnly p act) (hn : ∀ a s s', outcome act s = (.ok a, s') → FailsOnly p (next a)) :
    FailsOnly p (act >>= next) := by
  intro s f s' hf
  rcases hr : outcome act s with ⟨g | a, s₁⟩
  · rw [outcome_bind_error hr] at hf
    cases hf
    exact h s f s' hr
  · rw [outcome_bind_ok hr] at hf
    exact hn a s s₁ hr s₁ f s' hf

theorem map (h : FailsOnly p act) (g : α → β) : FailsOnly p (g <$> act) := by
  intro s f s' hf
  rw [outcome_map] at hf
  rcases hr : outcome act s with ⟨f' | a, s₁⟩ <;> rw [hr] at hf <;> cases hf
  exact h s f s' hr

/-- What is done about faults decides how calls can fail. -/
theorem tryCatch {handle : Fault → ExceptT Fault (StateM σ) α} (h : FailsOnly q act)
    (hh : ∀ f, q f = true → FailsOnly p (handle f)) : FailsOnly p (MonadExcept.tryCatch act handle) := by
  intro s f s' hf
  rw [outcome_tryCatch] at hf
  rcases hr : outcome act s with ⟨f' | a, s₁⟩ <;> rw [hr] at hf
  · exact hh f' (h s f' s₁ hr) s₁ f s' hf
  · cases hf

theorem mapM {act : α → ExceptT Fault (StateM σ) β} {l : List α} (h : ∀ a ∈ l, FailsOnly p (act a)) :
    FailsOnly p (l.mapM act) := by
  induction l with
  | nil => exact pure []
  | cons a r ih =>
    rw [List.mapM_cons]
    refine (h a List.mem_cons_self).bind fun _ _ _ _ => ?_
    exact (ih fun x hx => h x (List.mem_cons_of_mem a hx)).bind fun _ _ _ _ => pure _

end FailsOnly

end

/-! ## Rows that are stopped -/

/-- Some member of a row stops it, after all those before have been passed. -/
def Stops (passes stops : α → Prop) (l : List α) : Prop :=
  ∃ before a after, l = before ++ a :: after ∧ (∀ x ∈ before, passes x) ∧ stops a

variable {passes stops : α → Prop}

theorem except_bind_eq_ok {ε : Type} {r : Except ε α} {next : α → Except ε β} {b : β} (h : r >>= next = .ok b) :
    ∃ a, r = .ok a ∧ next a = .ok b := by
  cases r with
  | error f => cases h
  | ok a => exact ⟨a, rfl, h⟩

theorem eq_ok_of_toOption {ε : Type} {r : Except ε α} {a : α} (h : r.toOption = some a) : r = .ok a := by
  cases r with
  | error f => cases h
  | ok b =>
    cases h
    rfl

/-- The fault of a question that has no answer. -/
def fault? : Except Fault α → Option Fault
  | .ok _ => none
  | .error f => some f

@[simp] theorem outcome_reading_query (ask : Tree → Except Fault α) (t : Tree) (trail : Trail) :
    outcome (Reading.query ask t) trail = (ask t, trail) := rfl

@[simp] theorem outcome_reading_pure (a : α) (t : Tree) (trail : Trail) :
    outcome ((pure a : Reading α) t) trail = (.ok a, trail) := rfl

@[simp] theorem outcome_draw (t : Tree) (trail : Trail) :
    outcome (Reading.draw t) trail =
      (.ok (.generated (trail.supply.drawn + 1)), { trail with supply := ⟨trail.supply.drawn + 1⟩ }) := rfl

theorem outcome_reading_bind_ok {act : Reading α} {t : Tree} {trail trail' : Trail} {a : α}
    (h : outcome (act t) trail = (.ok a, trail')) (next : α → Reading β) :
    outcome ((act >>= next) t) trail = outcome (next a t) trail' :=
  outcome_bind_ok h fun a => next a t

theorem outcome_reading_bind_error {act : Reading α} {t : Tree} {trail trail' : Trail} {f : Fault}
    (h : outcome (act t) trail = (.error f, trail')) (next : α → Reading β) :
    outcome ((act >>= next) t) trail = (.error f, trail') :=
  outcome_bind_error h fun a => next a t

theorem outcome_reading_bind_eq_ok {act : Reading α} {next : α → Reading β} {t : Tree} {trail trail' : Trail} {b : β}
    (h : outcome ((act >>= next) t) trail = (.ok b, trail')) :
    ∃ a trail₁, outcome (act t) trail = (.ok a, trail₁) ∧ outcome (next a t) trail₁ = (.ok b, trail') :=
  outcome_bind_eq_ok h

theorem outcome_reading_map (g : α → β) (act : Reading α) (t : Tree) (trail : Trail) :
    outcome ((g <$> act) t) trail = outcome (g <$> act t) trail := rfl

theorem outcome_reading_map_ok {act : Reading α} {t : Tree} {trail trail' : Trail} {a : α}
    (h : outcome (act t) trail = (.ok a, trail')) (g : α → β) : outcome ((g <$> act) t) trail = (.ok (g a), trail') := by
  rw [outcome_reading_map, outcome_map, h]

theorem outcome_reading_tryCatch (act : Reading α) (handle : Fault → Reading α) (t : Tree) (trail : Trail) :
    outcome ((tryCatch act handle : Reading α) t) trail = outcome (tryCatch (act t) fun f => handle f t) trail := rfl

theorem outcome_reading_tryCatch_ok {act : Reading α} {t : Tree} {trail trail' : Trail} {a : α}
    (h : outcome (act t) trail = (.ok a, trail')) (handle : Fault → Reading α) :
    outcome ((tryCatch act handle : Reading α) t) trail = (.ok a, trail') := by
  rw [outcome_reading_tryCatch, outcome_tryCatch, h]

theorem outcome_about_fst (machine : String) (act : Reading α) (t : Tree) (trail : Trail) :
    (outcome (Reading.about machine act t) trail).1 = (outcome (act t) { trail with notices := [] }).1 := rfl

/-- A reading about a machine comes to what it comes to otherwise. -/
theorem outcome_about_ok (machine : String) {act : Reading α} {t : Tree} {trail after : Trail} {a : α}
    (h : outcome (act t) { trail with notices := [] } = (.ok a, after)) :
    ∃ notices, outcome (Reading.about machine act t) trail = (.ok a, { after with notices }) := by
  have hr : outcome (Reading.about machine act t) trail =
      match outcome (act t) { trail with notices := [] } with
      | (result, after) =>
        (result, { after with notices := trail.notices ++ after.notices.map fun n => { n with machine } }) := rfl
  exact ⟨_, by rw [hr, h]⟩

theorem outcome_about_eq_ok {machine : String} {act : Reading α} {t : Tree} {trail trail' : Trail} {a : α}
    (h : outcome (Reading.about machine act t) trail = (.ok a, trail')) :
    ∃ after, outcome (act t) { trail with notices := [] } = (.ok a, after) := by
  have hr : outcome (Reading.about machine act t) trail =
      match outcome (act t) { trail with notices := [] } with
      | (result, after) =>
        (result, { after with notices := trail.notices ++ after.notices.map fun n => { n with machine } }) := rfl
  rw [hr, Prod.mk.injEq] at h
  exact ⟨_, Prod.ext h.1 rfl⟩

/-! ## Actions -/

@[simp] theorem outcome_query (ask : Tree → Except Fault α) (scene : Scene) :
    outcome (Action.query ask) scene = (ask scene.tree, scene) := rfl

@[simp] theorem outcome_notify (n : Log.Notice) (scene : Scene) :
    outcome (Action.notify n) scene =
      (.ok (), { scene with trail := { scene.trail with notices := scene.trail.notices ++ [n] } }) := rfl

theorem outcome_file (act : Filing α) (scene : Scene) :
    outcome (Action.file act) scene =
      ((outcome act scene.tree).1, { scene with tree := (outcome act scene.tree).2 }) := rfl

theorem outcome_read (act : Reading α) (scene : Scene) :
    outcome (Action.read act) scene =
      ((outcome (act scene.tree) scene.trail).1, { scene with trail := (outcome (act scene.tree) scene.trail).2 }) :=
  rfl

theorem FailsOnly.query {p : Fault → Bool} {ask : Tree → Except Fault α} (h : ∀ t f, ask t = .error f → p f = true) :
    FailsOnly p (Action.query ask) := by
  intro scene f scene' hf
  rw [outcome_query, Prod.mk.injEq] at hf
  exact h _ f hf.1

theorem FailsOnly.read {p : Fault → Bool} {act : Reading α} (h : ∀ t, FailsOnly p (act t)) :
    FailsOnly p (Action.read act) := by
  intro scene f scene' hf
  rw [outcome_read, Prod.mk.injEq] at hf
  exact h scene.tree scene.trail f _ (Prod.ext hf.1 rfl)

theorem FailsOnly.notify {p : Fault → Bool} (n : Log.Notice) : FailsOnly p (Action.notify n) := by
  intro scene f scene' h
  cases h

theorem FailsOnly.file {p : Fault → Bool} {act : Filing α} (h : FailsOnly p act) : FailsOnly p (Action.file act) := by
  intro scene f scene' hf
  rw [outcome_file, Prod.mk.injEq] at hf
  exact h scene.tree f _ (Prod.ext hf.1 rfl)

theorem outcome_query_eq_ok {ask : Tree → Except Fault α} {scene scene' : Scene} {a : α}
    (h : outcome (Action.query ask) scene = (.ok a, scene')) : ask scene.tree = .ok a ∧ scene' = scene := by
  rw [outcome_query, Prod.mk.injEq] at h
  exact ⟨h.1, h.2.symm⟩

theorem outcome_read_eq_ok {act : Reading α} {scene scene' : Scene} {a : α}
    (h : outcome (Action.read act) scene = (.ok a, scene')) :
    ∃ trail, outcome (act scene.tree) scene.trail = (.ok a, trail) ∧ scene' = { scene with trail } := by
  rw [outcome_read, Prod.mk.injEq] at h
  exact ⟨_, Prod.ext h.1 rfl, h.2.symm⟩

end MachineBundle
