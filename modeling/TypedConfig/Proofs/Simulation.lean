import TypedConfig.Proofs.Outcome
import TypedConfig.Proofs.Variables

/-!
# Stores that answer alike load alike

A load sees its store only through look-ups, presence checks and the list of entries, and changes
it only by puts. A relation between stores that agree in these answers and that puts preserve is
therefore kept by every load, with the same results on the same machine. What has been logged
before plays no part.

The main instance is equality: two loadings with one store and one machine end alike, whatever
their logs hold.
-/

namespace TypedConfig

variable {ε ε' σ τ α β : Type}

/-- From related states both steps end with the same result, in related states. -/
def Relates (R : σ → τ → Prop) (x : ExceptT ε (StateM σ) α) (y : ExceptT ε (StateM τ) α) : Prop :=
  ∀ s t, R s t → (outcome x s).1 = (outcome y t).1 ∧ R (outcome x s).2 (outcome y t).2

namespace Relates

variable {R : σ → τ → Prop}

/-- The same value is related in related states. -/
theorem pure (a : α) :
    Relates R (Pure.pure a : ExceptT ε (StateM σ) α) (Pure.pure a : ExceptT ε (StateM τ) α) :=
  fun _ _ hR => ⟨rfl, hR⟩

/-- The same error is related in related states. -/
theorem throw (e : ε) :
    Relates R (MonadExcept.throw e : ExceptT ε (StateM σ) α)
      (MonadExcept.throw e : ExceptT ε (StateM τ) α) :=
  fun _ _ hR => ⟨rfl, hR⟩

/-- Related steps may be put in sequence. -/
theorem bind {x : ExceptT ε (StateM σ) α} {y : ExceptT ε (StateM τ) α}
    {f : α → ExceptT ε (StateM σ) β} {g : α → ExceptT ε (StateM τ) β}
    (first : Relates R x y) (rest : ∀ a, Relates R (f a) (g a)) :
    Relates R (x >>= f) (y >>= g) := by
  intro s t hR
  obtain ⟨hresult, hstate⟩ := first s t hR
  rw [outcome_bind, outcome_bind]
  rcases hx : outcome x s with ⟨_ | a, s'⟩ <;> rcases hy : outcome y t with ⟨_ | b, t'⟩ <;>
    rw [hx, hy] at hresult hstate
  · exact ⟨congrArg Except.error (Except.error.inj hresult), hstate⟩
  · cases hresult
  · cases hresult
  · cases hresult
    exact rest a s' t' hstate

/-- Adapting the errors keeps steps related. -/
theorem adapt {x : ExceptT ε (StateM σ) α} {y : ExceptT ε (StateM τ) α} (f : ε → ε')
    (h : Relates R x y) : Relates R (ExceptT.adapt f x) (ExceptT.adapt f y) := by
  intro s t hR
  obtain ⟨hresult, hstate⟩ := h s t hR
  rw [outcome_adapt, outcome_adapt]
  exact ⟨congrArg (Except.mapError f) hresult, hstate⟩

end Relates

/-- A relation between stores that agree in their answers and that puts preserve. -/
structure Store.Simulation (S : Store → Store → Prop) : Prop where
  get {s t : Store} : S s t → ∀ key, (s.get? key).result = (t.get? key).result
  contains {s t : Store} : S s t → ∀ key, (s.contains key).result = (t.contains key).result
  entries {s t : Store} : S s t → s.entries.result = t.entries.result
  put {s t : Store} : S s t → ∀ key v, S (s.put key v).result.2 (t.put key v).result.2

/-- Equal stores answer alike. -/
theorem Store.Simulation.eq : Store.Simulation Eq where
  get h _ := by rw [h]
  contains h _ := by rw [h]
  entries h := by rw [h]
  put h _ _ := by rw [h]

/-- Two trails with one machine. -/
def Trail.OneMachine (t u : Trail) : Prop := t.machine = u.machine

/-- Two loadings on one machine whose stores are related; their logs may differ. -/
structure Loading.Over (S : Store → Store → Prop) (l k : Loading) : Prop where
  stores : S l.store k.store
  machine : l.trail.machine = k.trail.machine

/-- Logged answers with the same result continue alike. -/
theorem Evaluation.ofLogged_relates {α : Type} {x y : Logged α} (h : x.result = y.result) :
    Relates Trail.OneMachine (Evaluation.ofLogged x) (Evaluation.ofLogged y) := by
  intro t u hmachine
  exact ⟨congrArg Except.ok h, hmachine⟩

/-- A construction depends on the machine alone. -/
theorem Evaluation.ofBuild_relates {α : Type} (span : Source.Span) (b : Construct.Build α) :
    Relates Trail.OneMachine (Evaluation.ofBuild span b) (Evaluation.ofBuild span b) := by
  intro t u hmachine
  obtain ⟨m, events⟩ := t
  obtain ⟨m', events'⟩ := u
  obtain rfl : m = m' := hmachine
  rw [outcome_ofBuild, outcome_ofBuild]
  exact ⟨rfl, rfl⟩

namespace Syntax

variable {S : Store → Store → Prop} {s t : Store}

/-- A variable is looked up alike in related stores. -/
theorem lookUp_relates (hS : Store.Simulation S) (h : S s t) (name : String) (span : Source.Span) :
    Relates Trail.OneMachine (lookUp s name span) (lookUp t name span) := by
  unfold lookUp
  split
  · exact .bind (Evaluation.ofLogged_relates (hS.entries h)) fun _ => Evaluation.ofBuild_relates _ _
  · refine .bind (Evaluation.ofLogged_relates (hS.get h name)) fun found => ?_
    cases found with
    | none => exact .throw _
    | some v => exact .pure v

/-- What a pure part of an evaluation gives does not depend on any state. -/
theorem ofExcept_relates {α : Type} (R : Trail → Trail → Prop) (x : Except Located α) :
    Relates R (liftM x : Evaluation α) (liftM x : Evaluation α) := by
  cases x with
  | error e => exact .throw e
  | ok a => exact .pure a

section Parts

variable {R : Trail → Trail → Prop}

/-- The look-ups of some variables have one result in two stores. -/
def LookUpsRelate (R : Trail → Trail → Prop) (s t : Store) (names : List String) : Prop :=
  ∀ name ∈ names, ∀ span, Relates R (lookUp s name span) (lookUp t name span)

/-- The constructions of some types have one result from related trails. -/
def BuildsRelate (R : Trail → Trail → Prop) (engine : Construct.Engine) (types : List String) :
    Prop :=
  ∀ type ∈ types, ∀ arguments named span,
    Relates R (Evaluation.ofBuild span (engine.build type arguments named))
      (Evaluation.ofBuild span (engine.build type arguments named))

mutual

/-- An expression has one value where its variables and its constructions do. -/
theorem Expr.evaluate_relates_of (engine : Construct.Engine) : (e : Expr) →
    LookUpsRelate R s t e.variables → BuildsRelate R engine e.types →
    Relates R (e.evaluate engine s) (e.evaluate engine t)
  | .literal value _, _, _ => .pure _
  | .variable name span, hnames, _ => hnames name (.head _) span
  | .concat left right span, hnames, htypes => by
    obtain ⟨hleft, hright⟩ := List.forall_mem_append.mp hnames
    obtain ⟨hleft', hright'⟩ := List.forall_mem_append.mp htypes
    unfold Expr.evaluate
    refine .bind (left.evaluate_relates_of engine hleft hleft') fun v => ?_
    refine .bind (right.evaluate_relates_of engine hright hright') fun w => ?_
    cases joinValues v w with
    | ok joined => exact .pure joined
    | error fault => exact .throw _
  | .array tag items span, hnames, htypes => by
    unfold Expr.evaluate
    refine .bind (ofExcept_relates R _) fun declared => ?_
    refine .bind (Expr.evaluateAll_relates_of engine items hnames htypes) fun values => ?_
    exact ofExcept_relates R _
  | .construct type arguments named span, hnames, htypes => by
    obtain ⟨harguments, hnamed⟩ := List.forall_mem_append.mp hnames
    obtain ⟨htype, hinside⟩ := List.forall_mem_cons.mp htypes
    obtain ⟨harguments', hnamed'⟩ := List.forall_mem_append.mp hinside
    unfold Expr.evaluate
    refine .bind (Expr.evaluateAll_relates_of engine arguments harguments harguments')
      fun values => ?_
    refine .bind (Expr.evaluateNamed_relates_of engine named hnamed hnamed')
      fun namedValues => ?_
    exact htype values namedValues span

/-- Several expressions are related if their variables and types are. -/
theorem Expr.evaluateAll_relates_of (engine : Construct.Engine) : (es : List Expr) →
    LookUpsRelate R s t (Expr.variablesAll es) → BuildsRelate R engine (Expr.typesAll es) →
    Relates R (Expr.evaluateAll engine s es) (Expr.evaluateAll engine t es)
  | [], _, _ => .pure _
  | e :: es, hnames, htypes => by
    obtain ⟨hfirst, hrest⟩ := List.forall_mem_append.mp hnames
    obtain ⟨hfirst', hrest'⟩ := List.forall_mem_append.mp htypes
    unfold Expr.evaluateAll
    refine .bind (e.evaluate_relates_of engine hfirst hfirst') fun v => ?_
    exact .bind (Expr.evaluateAll_relates_of engine es hrest hrest') fun vs => .pure _

/-- Named arguments are related if their variables and types are. -/
theorem Expr.evaluateNamed_relates_of (engine : Construct.Engine) : (es : List (Name × Expr)) →
    LookUpsRelate R s t (Expr.variablesNamed es) → BuildsRelate R engine (Expr.typesNamed es) →
    Relates R (Expr.evaluateNamed engine s es) (Expr.evaluateNamed engine t es)
  | [], _, _ => .pure _
  | (name, e) :: rest, hnames, htypes => by
    obtain ⟨hfirst, hrest⟩ := List.forall_mem_append.mp hnames
    obtain ⟨hfirst', hrest'⟩ := List.forall_mem_append.mp htypes
    unfold Expr.evaluateNamed
    refine .bind (e.evaluate_relates_of engine hfirst hfirst') fun v => ?_
    exact .bind (Expr.evaluateNamed_relates_of engine rest hrest hrest') fun vs => .pure _

end

end Parts

/-- Related stores give an expression the same value. -/
theorem Expr.evaluate_relates (engine : Construct.Engine) (hS : Store.Simulation S) (h : S s t)
    (e : Expr) : Relates Trail.OneMachine (e.evaluate engine s) (e.evaluate engine t) :=
  e.evaluate_relates_of engine (fun name _ span => lookUp_relates hS h name span)
    fun _ _ _ _ _ => Evaluation.ofBuild_relates _ _

end Syntax

namespace LoadStep

variable {S : Store → Store → Prop}

/-- An evaluation that related stores agree on leaves them as they are. -/
theorem evaluate_relates {α : Type} {e e' : Store → Evaluation α}
    (h : ∀ s t, S s t → Relates Trail.OneMachine (e s) (e' t)) :
    Relates (Loading.Over S) (evaluate e) (evaluate e') := by
  intro l k hover
  obtain ⟨hresult, hmachine⟩ := h _ _ hover.stores _ _ hover.machine
  rw [outcome_evaluate, outcome_evaluate]
  exact ⟨hresult, hover.stores, hmachine⟩

/-- Evaluations whose log is dropped are related in related stores. -/
theorem evaluateInPassing_relates {α : Type} {e e' : Store → Evaluation α}
    (h : ∀ s t, S s t → Relates Trail.OneMachine (e s) (e' t)) :
    Relates (Loading.Over S) (evaluateInPassing e) (evaluateInPassing e') := by
  intro l k hover
  have howner : Trail.OneMachine { l.trail with machine := l.trail.machine.withOwner "" }
      { k.trail with machine := k.trail.machine.withOwner "" } :=
    congrArg (fun m : Machine => m.withOwner "") hover.machine
  obtain ⟨hresult, hmachine⟩ := h _ _ hover.stores _ _ howner
  rw [outcome_evaluateInPassing, outcome_evaluateInPassing]
  refine ⟨hresult, hover.stores, ?_⟩
  change Machine.identifyingAs _ _ = Machine.identifyingAs _ _
  rw [hmachine, hover.machine]

/-- Related stores are asked alike for a key. -/
theorem contains_relates (hS : Store.Simulation S) (key : String) :
    Relates (Loading.Over S) (ask (Store.contains key)) (ask (Store.contains key)) := by
  intro l k hover
  rw [outcome_ask, outcome_ask]
  exact ⟨congrArg Except.ok (hS.contains hover.stores key), hover.stores, hover.machine⟩

/-- The machine notes alike who is loading. -/
theorem setOwner_relates (key : String) :
    Relates (Loading.Over S) (setOwner key) (setOwner key) := by
  intro l k hover
  exact ⟨rfl, hover.stores, congrArg (fun m : Machine => m.withOwner key) hover.machine⟩

/-- Puts lead related stores to related ones. -/
theorem put_relates (hS : Store.Simulation S) (key : String) (v : Value) :
    Relates (Loading.Over S) (put key v) (put key v) := by
  intro l k hover
  exact ⟨rfl, hS.put hover.stores key v, hover.machine⟩

end LoadStep

namespace Syntax

variable {S : Store → Store → Prop}

/-- Assignments lead related stores to related ones. -/
theorem assign_relates (hS : Store.Simulation S) (engine : Construct.Engine) (key : Name)
    (e : Expr) : Relates (Loading.Over S) (assign engine key e) (assign engine key e) := by
  unfold assign
  refine .bind (LoadStep.setOwner_relates key.text) fun _ => ?_
  refine .bind (LoadStep.evaluate_relates fun s t h => e.evaluate_relates engine hS h) fun v => ?_
  exact LoadStep.put_relates hS key.text v

/-- A statement keeps related stores related if the loads of included sources do. -/
theorem Statement.run_relates (hS : Store.Simulation S) (engine : Construct.Engine)
    {load : TextSource → Load Unit}
    (hload : ∀ source, Relates (Loading.Over S) (load source) (load source)) (s : Statement) :
    Relates (Loading.Over S) (s.run engine load) (s.run engine load) := by
  obtain ⟨_ | _ | e, span⟩ := s
  · exact assign_relates hS engine _ _
  · refine .bind (LoadStep.contains_relates hS _) fun present => ?_
    cases present with
    | true => exact .pure _
    | false => exact assign_relates hS engine _ _
  · refine .bind (LoadStep.evaluateInPassing_relates fun s t h =>
      e.evaluate_relates engine hS h) fun v => ?_
    cases sourceOf v with
    | error fault => exact .throw _
    | ok source => exact .adapt _ (hload source)

/-- Statements lead related stores to related ones. -/
theorem Statement.runAll_relates (hS : Store.Simulation S) (engine : Construct.Engine)
    {load : TextSource → Load Unit}
    (hload : ∀ source, Relates (Loading.Over S) (load source) (load source))
    (program : List Statement) :
    Relates (Loading.Over S) (Statement.runAll engine load program)
      (Statement.runAll engine load program) := by
  induction program with
  | nil => exact .pure _
  | cons s rest ih => exact .bind (s.run_relates hS engine hload) fun _ => ih

end Syntax

namespace Load

variable {S : Store → Store → Prop}

/-- A text leads related stores to related ones. -/
theorem text_relates (hS : Store.Simulation S) (engine : Construct.Engine)
    {load : TextSource → Load Unit}
    (hload : ∀ source, Relates (Loading.Over S) (load source) (load source))
    (origin source : String) :
    Relates (Loading.Over S) (text engine load origin source) (text engine load origin source) := by
  unfold text
  cases Syntax.parse source with
  | error e => exact .throw _
  | ok program => exact .adapt _ (Syntax.Statement.runAll_relates hS engine hload program)

/-- Related stores on one machine stay related under the load of a source, which has the same
result for both. -/
theorem source_relates (hS : Store.Simulation S) (engine : Construct.Engine) (levels : Nat) :
    ∀ s, Relates (Loading.Over S) (source engine levels s) (source engine levels s) := by
  induction levels with
  | zero => exact fun s => .throw _
  | succ levels ih =>
    intro s l k hover
    rw [source, outcome_bind_ok (outcome_get l), outcome_bind_ok (outcome_get k), hover.machine]
    cases fetch k.trail.machine s with
    | error e => exact ⟨rfl, hover⟩
    | ok fetched => exact text_relates hS engine ih s.text fetched l k hover

/-- The location of a file is put alike. -/
theorem putLocation_relates (hS : Store.Simulation S) (path : String) :
    Relates (Loading.Over S) (putLocation path) (putLocation path) := by
  intro l k hover
  refine ⟨rfl, ?_⟩
  change Loading.Over S
    ⟨(l.store.put locationKey
        (.object (l.trail.machine.withOwner locationKey).issue.1 (.file path))).result.2,
      (l.trail.machine.withOwner locationKey).issue.2, _⟩
    ⟨(k.store.put locationKey
        (.object (k.trail.machine.withOwner locationKey).issue.1 (.file path))).result.2,
      (k.trail.machine.withOwner locationKey).issue.2, _⟩
  rw [hover.machine]
  exact ⟨hS.put hover.stores locationKey _, rfl⟩

end Load

/-- Related stores on one machine stay related under the load of an entry. -/
theorem Entry.load_relates {S : Store → Store → Prop} (hS : Store.Simulation S)
    (engine : Construct.Engine) (entry : Entry) :
    Relates (Loading.Over S) (entry.load engine) (entry.load engine) := by
  have hsource := Load.source_relates hS engine
  cases entry with
  | text source => exact Load.text_relates hS engine (hsource maxIncludeDepth) "string" source
  | bytes content =>
    simp only [Entry.load]
    cases File.Tree.decode content with
    | error e => exact .throw _
    | ok source => exact Load.text_relates hS engine (hsource maxIncludeDepth) "stream" source
  | resource name => exact hsource _ _
  | path file => exact .bind (hsource _ _) fun _ => Load.putLocation_relates hS file
  | url address => exact hsource _ _

/-- Related stores are loaded into with the same result, and stay related. -/
theorem Store.Simulation.load {S : Store → Store → Prop} (hS : Store.Simulation S)
    (engine : Construct.Engine) (m : Machine) (entry : Entry) {s t : Store} (h : S s t) :
    (s.load engine m entry).result = (t.load engine m entry).result ∧
      (s.load engine m entry).machine = (t.load engine m entry).machine ∧
      S (s.load engine m entry).store (t.load engine m entry).store := by
  obtain ⟨hresult, hover⟩ := entry.load_relates hS engine ⟨s, m, []⟩ ⟨t, m, []⟩ ⟨h, rfl⟩
  exact ⟨hresult, hover.machine, hover.stores⟩

end TypedConfig
