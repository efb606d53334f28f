import TypedConfig.Load.Basic

/-!
# The outcome of a step

Constructions, evaluations and loads are steps that may fail and that change a state also when
they fail. The outcome of a step at a state is its result together with the state it leaves
behind. The equations below compute the outcome of a compound step from those of its parts, so
later modules never open the monads.
-/

namespace TypedConfig

variable {ε ε' σ α β : Type}

/-- What a step ends with at a state: its result, and the state that it leaves behind. -/
def outcome (x : ExceptT ε (StateM σ) α) (s : σ) : Except ε α × σ := x.run.run s

/-- A step is determined by its outcomes. -/
theorem outcome_ext {x y : ExceptT ε (StateM σ) α} (h : ∀ s, outcome x s = outcome y s) : x = y :=
  funext h

/-- A value ends as it is, in the same state. -/
@[simp] theorem outcome_pure (a : α) (s : σ) :
    outcome (pure a : ExceptT ε (StateM σ) α) s = (.ok a, s) := rfl

/-- An error ends as it is, in the same state. -/
@[simp] theorem outcome_throw (e : ε) (s : σ) :
    outcome (throw e : ExceptT ε (StateM σ) α) s = (.error e, s) := rfl

/-- The second step runs where the first one has succeeded, from the state that it has left. -/
theorem outcome_bind (x : ExceptT ε (StateM σ) α) (f : α → ExceptT ε (StateM σ) β) (s : σ) :
    outcome (x >>= f) s =
      match outcome x s with
      | (.ok a, s') => outcome (f a) s'
      | (.error e, s') => (.error e, s') := by
  change (ExceptT.bindCont f (outcome x s).1).run (outcome x s).2 = _
  rcases outcome x s with ⟨_ | _, _⟩ <;> rfl

/-- A computation that succeeds hands on its value and its state. -/
theorem outcome_bind_ok {x : ExceptT ε (StateM σ) α} {f : α → ExceptT ε (StateM σ) β} {s s' : σ}
    {a : α} (h : outcome x s = (.ok a, s')) : outcome (x >>= f) s = outcome (f a) s' := by
  rw [outcome_bind, h]

/-- Behind an error nothing is run. -/
theorem outcome_bind_error {x : ExceptT ε (StateM σ) α} {f : α → ExceptT ε (StateM σ) β}
    {s s' : σ} {e : ε} (h : outcome x s = (.error e, s')) :
    outcome (x >>= f) s = (.error e, s') := by
  rw [outcome_bind, h]

/-- A sequence succeeds only if both of its parts do. -/
theorem outcome_bind_eq_ok {x : ExceptT ε (StateM σ) α} {f : α → ExceptT ε (StateM σ) β} {s s' : σ}
    {b : β} (h : outcome (x >>= f) s = (.ok b, s')) :
    ∃ a between, outcome x s = (.ok a, between) ∧ outcome (f a) between = (.ok b, s') := by
  rw [outcome_bind] at h
  rcases hx : outcome x s with ⟨_ | a, between⟩
  · rw [hx] at h
    cases h
  · rw [hx] at h
    exact ⟨a, between, rfl, h⟩

/-- A sequence fails with its first part, or with the second one behind it. -/
theorem outcome_bind_error_iff {x : ExceptT ε (StateM σ) α} {f : α → ExceptT ε (StateM σ) β}
    {s s' : σ} {e : ε} : outcome (x >>= f) s = (.error e, s') ↔
      outcome x s = (.error e, s') ∨
        ∃ a between, outcome x s = (.ok a, between) ∧ outcome (f a) between = (.error e, s') := by
  constructor
  · intro h
    rcases hx : outcome x s with ⟨e' | a, between⟩
    · rw [outcome_bind_error hx] at h
      cases h
      exact .inl rfl
    · rw [outcome_bind_ok hx] at h
      exact .inr ⟨a, between, rfl, h⟩
  · rintro (hfirst | ⟨a, between, hfirst, hrest⟩)
    · exact outcome_bind_error hfirst
    · exact (outcome_bind_ok hfirst).trans hrest

/-- What is made of a value does not change an error. -/
theorem outcome_bind_pure_error_iff {x : ExceptT ε (StateM σ) α} {f : α → β} {s s' : σ} {e : ε} :
    outcome (x >>= fun a => pure (f a)) s = (.error e, s') ↔ outcome x s = (.error e, s') := by
  rw [outcome_bind_error_iff]
  constructor
  · rintro (hfirst | ⟨_, _, _, hpure⟩)
    · exact hfirst
    · cases hpure
  · exact .inl

/-- An adapted step fails with the adapted error and leaves the same state behind. -/
theorem outcome_adapt (f : ε → ε') (x : ExceptT ε (StateM σ) α) (s : σ) :
    outcome (ExceptT.adapt f x) s = ((outcome x s).1.mapError f, (outcome x s).2) := rfl

/-- A value has no error to adapt. -/
@[simp] theorem adapt_pure (f : ε → ε') (a : α) :
    ExceptT.adapt f (pure a : ExceptT ε (StateM σ) α) = pure a := rfl

/-- An error is adapted where it is thrown. -/
@[simp] theorem adapt_throw (f : ε → ε') (e : ε) :
    ExceptT.adapt f (throw e : ExceptT ε (StateM σ) α) = throw (f e) := rfl

/-- The errors of a sequence are adapted in each of its parts. -/
theorem adapt_bind (f : ε → ε') (x : ExceptT ε (StateM σ) α) (g : α → ExceptT ε (StateM σ) β) :
    ExceptT.adapt f (x >>= g) = ExceptT.adapt f x >>= fun a => ExceptT.adapt f (g a) := by
  apply outcome_ext
  intro s
  rw [outcome_adapt, outcome_bind, outcome_bind, outcome_adapt]
  rcases outcome x s with ⟨_ | _, _⟩ <;> rfl

/-- Errors that are adapted twice are adapted by both changes. -/
theorem adapt_adapt {ε'' : Type} (f : ε → ε') (g : ε' → ε'') (x : ExceptT ε (StateM σ) α) :
    ExceptT.adapt g (ExceptT.adapt f x) = ExceptT.adapt (g ∘ f) x := by
  apply outcome_ext
  intro s
  rw [outcome_adapt, outcome_adapt, outcome_adapt]
  rcases outcome x s with ⟨_ | _, _⟩ <;> rfl

/-- To look at the state leaves it as it is. -/
@[simp] theorem outcome_get (s : σ) :
    outcome (get : ExceptT ε (StateM σ) σ) s = (.ok s, s) := rfl

/-- To set the state forgets the old one. -/
@[simp] theorem outcome_set (s t : σ) :
    outcome (set t : ExceptT ε (StateM σ) PUnit) s = (.ok ⟨⟩, t) := rfl

/-- To modify the state applies the change. -/
@[simp] theorem outcome_modify (f : σ → σ) (s : σ) :
    outcome (modify f : ExceptT ε (StateM σ) PUnit) s = (.ok ⟨⟩, f s) := rfl

namespace Evaluation

/-- The events of an answer come at the end of the log. -/
@[simp] theorem outcome_ofLogged {α : Type} (x : Logged α) (t : Trail) :
    outcome (ofLogged x) t = (.ok x.result, { t with events := t.events ++ x.events }) := rfl

/-- A construction runs on the machine of the trail and logs nothing. -/
theorem outcome_ofBuild {α : Type} (span : Source.Span) (b : Construct.Build α) (t : Trail) :
    outcome (ofBuild span b) t =
      ((outcome b t.machine).1.mapError fun e => ⟨span, .construction e⟩,
        { t with machine := (outcome b t.machine).2 }) := by
  unfold ofBuild
  rw [outcome_bind_ok (outcome_get t)]
  rcases hb : outcome b t.machine with ⟨_ | _, m⟩
  all_goals
    have hrun : b.run.run t.machine = _ := hb
    rw [hrun]
    rfl

/-- What needs no state is the same result at every state. -/
@[simp] theorem outcome_liftM {α : Type} (x : Except Located α) (t : Trail) :
    outcome (liftM x : Evaluation α) t = (x, t) := by
  cases x <;> rfl

end Evaluation

namespace LoadStep

/-- An evaluation leaves the store as it is. -/
theorem outcome_evaluate {α : Type} (e : Store → Evaluation α) (l : Loading) :
    outcome (evaluate e) l =
      ((outcome (e l.store) l.trail).1, ⟨l.store, (outcome (e l.store) l.trail).2⟩) := by
  unfold evaluate
  rw [outcome_bind_ok (outcome_get l)]
  rcases he : outcome (e l.store) l.trail with ⟨_ | _, t⟩
  all_goals
    have hrun : (e l.store).run.run l.trail = _ := he
    rw [hrun]
    rfl

/-- An evaluation in passing gives its identities back. -/
theorem outcome_evaluateInPassing {α : Type} (e : Store → Evaluation α) (l : Loading) :
    outcome (evaluateInPassing e) l =
      let ended :=
        outcome (e l.store) { l.trail with machine := l.trail.machine.withOwner "" }
      (ended.1, ⟨l.store,
        { ended.2 with machine := ended.2.machine.identifyingAs l.trail.machine }⟩) := by
  unfold evaluateInPassing
  rw [outcome_bind_ok (outcome_get l)]
  rcases he : outcome (e l.store) { l.trail with machine := l.trail.machine.withOwner "" } with
    ⟨_ | _, t⟩
  all_goals
    have hrun :
        (e l.store).run.run { l.trail with machine := l.trail.machine.withOwner "" } = _ := he
    dsimp only at hrun ⊢
    rw [hrun]
    rfl

/-- A question to the store of a load leaves the store as it is and is logged. -/
@[simp] theorem outcome_ask {α : Type} (question : Store → Logged α) (l : Loading) :
    outcome (ask question) l =
      (.ok (question l.store).result,
        ⟨l.store, { l.trail with events := l.trail.events ++ (question l.store).events }⟩) := by
  unfold ask
  rw [outcome_evaluate, Evaluation.outcome_ofLogged]

/-- The machine notes who is loading. -/
@[simp] theorem outcome_setOwner (key : String) (l : Loading) :
    outcome (setOwner key) l =
      (.ok (), ⟨l.store, { l.trail with machine := l.trail.machine.withOwner key }⟩) := rfl

/-- A put changes the store of a load and is logged. -/
@[simp] theorem outcome_put (key : String) (v : Value) (l : Loading) :
    outcome (put key v) l =
      (.ok (), ⟨(l.store.put key v).result.2,
        { l.trail with events := l.trail.events ++ (l.store.put key v).events }⟩) := rfl

end LoadStep

namespace Syntax

/-- Statements run in the order in which they stand. -/
theorem Statement.runAll_append (engine : Construct.Engine) (load : TextSource → Load Unit)
    (program rest : List Statement) :
    Statement.runAll engine load (program ++ rest) =
      Statement.runAll engine load program >>= fun _ => Statement.runAll engine load rest := by
  induction program with
  | nil => rfl
  | cons s program ih =>
    rw [List.cons_append, Statement.runAll, Statement.runAll, ih, bind_assoc]

end Syntax

/-- The load of an entry begins with an empty log. -/
theorem Store.load_eq (engine : Construct.Engine) (m : Machine) (entry : Entry) (s : Store) :
    s.load engine m entry =
      let ended := outcome (entry.load engine) ⟨s, m, []⟩
      ⟨ended.1, ended.2.store, ended.2.trail.machine, ended.2.trail.events⟩ := rfl

end TypedConfig
