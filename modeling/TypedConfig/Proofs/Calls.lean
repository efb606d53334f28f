import TypedConfig.Proofs.Constructions

/-!
# Loads as calls

A load reads and changes its store by a few operations only. Whatever a program does is a series of
calls of them: the log grows by what the calls report, and the store becomes what they make of it,
also where the program fails. Evaluations make calls that read. The puts among the calls are those
of the executed assignments, in the order in which these are executed.
-/

namespace TypedConfig

namespace Operation

/-- Whether an operation changes the store that is observed. -/
def changes : Operation → Bool
  | put .. => true
  | remove _ => true
  | clear => true
  | _ => false

/-- The entry that an operation puts. -/
def put? : Operation → Option (String × Value)
  | put key value => some (key, value)
  | _ => none

end Operation

/-- A call of one of the operations of which views and loads are made. -/
inductive Call where
  | get (key : String)
  | contains (key : String)
  | keys
  | put (key : String) (value : Value)
  | remove (key : String)
  | clear

namespace Call

/-- A call as it is reported. -/
def operation : Call → Operation
  | get key => .get key
  | contains key => .contains key
  | keys => .keys
  | put key value => .put key value
  | remove key => .remove key
  | clear => .clear

/-- Whether a call does more than read. -/
def changes (c : Call) : Bool := c.operation.changes

/-- The entry that a call puts. -/
def put? (c : Call) : Option (String × Value) := c.operation.put?

/-- Makes a call; with the store behind it. -/
def run : Call → Store → Logged Store
  | get key, s => do
    let _ ← s.get? key
    return s
  | contains key, s => do
    let _ ← s.contains key
    return s
  | keys, s => do
    let _ ← s.keys
    return s
  | put key value, s => do
    let (_, s) ← s.put key value
    return s
  | remove key, s => do
    let (_, s) ← s.remove key
    return s
  | clear, s => s.clear

/-- Makes several calls one after the other. -/
def runAll : List Call → Store → Logged Store
  | [], s => return s
  | c :: calls, s => do runAll calls (← c.run s)

variable {c : Call} {calls rest : List Call} {s : Store}

/-- One call is made as it is. -/
theorem runAll_singleton (c : Call) (s : Store) : runAll [c] s = c.run s := bind_pure _

/-- Calls are made one after the other. -/
theorem runAll_append (calls rest : List Call) (s : Store) :
    runAll (calls ++ rest) s = runAll calls s >>= runAll rest := by
  induction calls generalizing s with
  | nil => rfl
  | cons c calls ih => simp only [List.cons_append, runAll, ih, bind_assoc]

/-- A call that reads leaves the store as it is. -/
theorem run_result_of_reads (h : c.changes = false) (s : Store) : (c.run s).result = s := by
  cases c with
  | put => cases h
  | remove => cases h
  | clear => cases h
  | _ => rfl

/-- Calls that read leave the store as it is. -/
theorem runAll_result_of_reads (h : ∀ c ∈ calls, c.changes = false) :
    (runAll calls s).result = s := by
  induction calls generalizing s with
  | nil => rfl
  | cons c calls ih =>
    obtain ⟨hc, hcalls⟩ := List.forall_mem_cons.mp h
    rw [runAll, Logged.result_bind, run_result_of_reads hc, ih hcalls]

/-- Calls that read put nothing. -/
theorem filterMap_put?_of_reads (h : ∀ c ∈ calls, c.changes = false) :
    calls.filterMap put? = [] := by
  rw [List.filterMap_eq_nil_iff]
  intro c hc
  have hreads := h c hc
  cases c with
  | put => cases hreads
  | _ => rfl

end Call

namespace Store

variable {α β : Type} {s : Store}

/-- What is reported of an answer of a store is what calls report that read the store. -/
def Asks (s : Store) (x : Logged α) : Prop :=
  ∃ calls, (∀ c ∈ calls, c.changes = false) ∧ x.events = (Call.runAll calls s).events

namespace Asks

/-- An answer that is known needs no call. -/
theorem pure (a : α) : s.Asks (Pure.pure a : Logged α) := 
  ⟨[], List.forall_mem_nil _, rfl⟩

/-- Two questions to one store are asked one after the other. -/
theorem bind {x : Logged α} {f : α → Logged β} (first : s.Asks x) (rest : s.Asks (f x.result)) :
    s.Asks (x >>= f) := by
  obtain ⟨calls, hcalls, hfirst⟩ := first
  obtain ⟨calls', hcalls', hrest⟩ := rest
  refine ⟨calls ++ calls', List.forall_mem_append.mpr ⟨hcalls, hcalls'⟩, ?_⟩
  rw [Logged.events_bind, hfirst, hrest, Call.runAll_append, Logged.events_bind,
    Call.runAll_result_of_reads hcalls]

/-- A call that reads asks its question. -/
theorem of_call {x : Logged α} (c : Call) (hreads : c.changes = false)
    (h : c.run s = x >>= fun _ => Pure.pure s) : s.Asks x := by
  refine ⟨[c], List.forall_mem_singleton.mpr hreads, ?_⟩
  rw [Call.runAll_singleton, h, Logged.events_bind, Logged.events_pure, List.append_nil]

/-- To look up an entry is a call. -/
theorem get? (key : String) (s : Store) : s.Asks (s.get? key) := .of_call (.get key) rfl rfl

/-- To look for an entry is a call. -/
theorem contains (key : String) (s : Store) : s.Asks (s.contains key) :=
  .of_call (.contains key) rfl rfl

/-- To list the keys is a call. -/
theorem keys (s : Store) : s.Asks s.keys := .of_call .keys rfl rfl

/-- The values of several keys are asked for one after the other. -/
theorem valuesOf (keys : List String) (s : Store) : s.Asks (s.valuesOf keys) := by
  induction keys with
  | nil => exact .pure []
  | cons key keys ih =>
    rw [Store.valuesOf]
    refine .bind (.get? key s) ?_
    cases (s.get? key).result with
    | none => exact ih
    | some v => exact .bind ih (.pure _)

/-- The entries of several keys are asked for one after the other. -/
theorem entriesOf (keys : List String) (s : Store) : s.Asks (s.entriesOf keys) := by
  induction keys with
  | nil => exact .pure []
  | cons key keys ih =>
    rw [Store.entriesOf]
    refine .bind (.get? key s) ?_
    cases (s.get? key).result with
    | none => exact ih
    | some v => exact .bind ih (.pure _)

/-- The entries are asked for by key. -/
theorem entries (s : Store) : s.Asks s.entries := .bind (.keys s) (.entriesOf _ s)

end Asks

end Store

namespace Evaluation

variable {ε α β : Type} {s : Store}

/-- An evaluation makes calls that read a store, and nothing else is added to the log. -/
def Reads (s : Store) (x : ExceptT ε (StateM Trail) α) : Prop :=
  ∀ t, ∃ calls, (∀ c ∈ calls, c.changes = false) ∧
    (outcome x t).2.events = t.events ++ (Call.runAll calls s).events

/-- A step that logs nothing. -/
theorem Reads.of_events {x : ExceptT ε (StateM Trail) α}
    (h : ∀ t, (outcome x t).2.events = t.events) : Reads s x := by
  intro t
  refine ⟨[], List.forall_mem_nil _, ?_⟩
  rw [h t]
  exact (List.append_nil _).symm

/-- Evaluations that read, one after the other, read. -/
theorem Reads.bind {x : ExceptT ε (StateM Trail) α} {f : α → ExceptT ε (StateM Trail) β}
    (first : Reads s x) (rest : ∀ a, Reads s (f a)) : Reads s (x >>= f) := by
  intro t
  obtain ⟨calls, hcalls, hfirst⟩ := first t
  rw [outcome_bind]
  rcases hx : outcome x t with ⟨e | a, t'⟩
  · rw [hx] at hfirst
    exact ⟨calls, hcalls, hfirst⟩
  · rw [hx] at hfirst
    obtain ⟨calls', hcalls', hrest⟩ := rest a t'
    refine ⟨calls ++ calls', List.forall_mem_append.mpr ⟨hcalls, hcalls'⟩, ?_⟩
    rw [hrest, hfirst, Call.runAll_append, Logged.events_bind, Call.runAll_result_of_reads hcalls,
      List.append_assoc]

/-- A question to the store reads it. -/
theorem Reads.ofLogged {x : Logged α} (h : s.Asks x) : Reads s (ofLogged x) := by
  intro t
  obtain ⟨calls, hcalls, hevents⟩ := h
  exact ⟨calls, hcalls, congrArg (t.events ++ ·) hevents⟩

/-- A construction does not touch the store. -/
theorem Reads.ofBuild (span : Source.Span) (b : Construct.Build α) : Reads s (ofBuild span b) :=
  .of_events fun t => by rw [outcome_ofBuild]

/-- A failure that is known needs no call. -/
theorem Reads.liftM (x : Except Located α) : Reads s (liftM x : Evaluation α) :=
  .of_events fun t => by rw [outcome_liftM]

/-- A value that is known needs no call. -/
theorem Reads.pure (a : α) : Reads s (Pure.pure a : ExceptT ε (StateM Trail) α) :=
  .of_events fun _ => rfl

/-- To fail needs no call. -/
theorem Reads.throw (e : ε) : Reads s (MonadExcept.throw e : ExceptT ε (StateM Trail) α) :=
  .of_events fun _ => rfl

end Evaluation

namespace Syntax

open Evaluation (Reads)

/-- A variable is looked up by a call that reads. -/
theorem lookUp_reads (s : Store) (name : String) (span : Source.Span) :
    Reads s (lookUp s name span) := by
  unfold lookUp
  split
  · exact .bind (.ofLogged (.entries s)) fun _ => .ofBuild _ _
  · refine .bind (.ofLogged (.get? name s)) fun found => ?_
    cases found with
    | none => exact .throw _
    | some v => exact .pure v

mutual

/-- An expression reads the store. -/
theorem Expr.evaluate_reads (engine : Construct.Engine) (s : Store) :
    (e : Expr) → Reads s (e.evaluate engine s)
  | .literal value _ => .pure _
  | .variable name span => lookUp_reads s name span
  | .concat left right span => by
    unfold Expr.evaluate
    refine .bind (left.evaluate_reads engine s) fun v => ?_
    refine .bind (right.evaluate_reads engine s) fun w => ?_
    cases joinValues v w with
    | ok joined => exact .pure joined
    | error fault => exact .throw _
  | .array tag items span => by
    unfold Expr.evaluate
    refine .bind (.liftM _) fun declared => ?_
    exact .bind (Expr.evaluateAll_reads engine s items) fun values => .liftM _
  | .construct type arguments named span => by
    unfold Expr.evaluate
    refine .bind (Expr.evaluateAll_reads engine s arguments) fun values => ?_
    exact .bind (Expr.evaluateNamed_reads engine s named) fun namedValues => .ofBuild _ _

/-- Several expressions read the store. -/
theorem Expr.evaluateAll_reads (engine : Construct.Engine) (s : Store) :
    (es : List Expr) → Reads s (Expr.evaluateAll engine s es)
  | [] => .pure _
  | e :: es => by
    unfold Expr.evaluateAll
    refine .bind (e.evaluate_reads engine s) fun v => ?_
    exact .bind (Expr.evaluateAll_reads engine s es) fun vs => .pure _

/-- The values of named arguments read the store. -/
theorem Expr.evaluateNamed_reads (engine : Construct.Engine) (s : Store) :
    (es : List (Name × Expr)) → Reads s (Expr.evaluateNamed engine s es)
  | [] => .pure _
  | (name, e) :: rest => by
    unfold Expr.evaluateNamed
    refine .bind (e.evaluate_reads engine s) fun v => ?_
    exact .bind (Expr.evaluateNamed_reads engine s rest) fun vs => .pure _

end

end Syntax

namespace Loading

variable {calls rest : List Call} {l k l' : Loading}

/-- Calls lead from one loading to another: they make the one store of the other, and what they
report is what the log grows by. -/
structure CallsTo (calls : List Call) (l l' : Loading) : Prop where
  store : l'.store = (Call.runAll calls l.store).result
  events : l'.trail.events = l.trail.events ++ (Call.runAll calls l.store).events

namespace CallsTo

/-- Where store and log stay, no call is made. -/
theorem none (hstore : l'.store = l.store) (hevents : l'.trail.events = l.trail.events) :
    CallsTo [] l l' :=
  ⟨hstore, hevents.trans (List.append_nil _).symm⟩

/-- Calls of two steps come one behind the other. -/
theorem append (first : CallsTo calls l k) (second : CallsTo rest k l') :
    CallsTo (calls ++ rest) l l' := by
  constructor
  · rw [Call.runAll_append, Logged.result_bind, ← first.store, second.store]
  · rw [Call.runAll_append, Logged.events_bind, ← first.store, second.events, first.events,
      List.append_assoc]

/-- Calls that read lead to the same store with a longer log. -/
theorem of_reads (hcalls : ∀ c ∈ calls, c.changes = false) (hstore : l'.store = l.store)
    (hevents : l'.trail.events = l.trail.events ++ (Call.runAll calls l.store).events) :
    CallsTo calls l l' :=
  ⟨by rw [hstore, Call.runAll_result_of_reads hcalls], hevents⟩

/-- A put changes the store as the call does and logs what the call reports. -/
theorem put (key : String) (v : Value) (m : Machine) :
    CallsTo [.put key v] l ⟨(l.store.put key v).result.2,
      ⟨m, l.trail.events ++ (l.store.put key v).events⟩⟩ := by
  constructor
  · rw [Call.runAll_singleton]
    rfl
  · rw [Call.runAll_singleton]
    exact congrArg (l.trail.events ++ ·) (List.append_nil _).symm

end CallsTo

/-- Calls that lead from one loading to another put some entries, and nothing else. -/
def Puts (entries : List (String × Value)) (l l' : Loading) : Prop :=
  ∃ calls, CallsTo calls l l' ∧ calls.filterMap Call.put? = entries

namespace Puts

variable {entries further : List (String × Value)}

/-- Where store and log stay, nothing is put. -/
theorem none (hstore : l'.store = l.store) (hevents : l'.trail.events = l.trail.events) :
    Puts [] l l' :=
  ⟨[], .none hstore hevents, rfl⟩

/-- Entries of two steps are put one behind the other. -/
theorem append (first : Puts entries l k) (second : Puts further k l') :
    Puts (entries ++ further) l l' := by
  obtain ⟨calls, hcalls, rfl⟩ := first
  obtain ⟨rest, hrest, rfl⟩ := second
  exact ⟨calls ++ rest, hcalls.append hrest, List.filterMap_append⟩

/-- Calls that read put nothing, whatever they report. -/
theorem of_reads (hcalls : ∀ c ∈ calls, c.changes = false) (hstore : l'.store = l.store)
    (hevents : l'.trail.events = l.trail.events ++ (Call.runAll calls l.store).events) :
    Puts [] l l' :=
  ⟨calls, .of_reads hcalls hstore hevents, Call.filterMap_put?_of_reads hcalls⟩

end Puts

end Loading

namespace Syntax

open Loading (Puts)

variable {engine : Construct.Engine}

/-- The value that the expression of an assignment has. -/
def assigned? (engine : Construct.Engine) (key : Name) (e : Expr) (l : Loading) :
    Option (String × Value) :=
  ((outcome (e.evaluate engine l.store)
    ⟨l.trail.machine.withOwner key.text, l.trail.events⟩).1.toOption).map (key.text, ·)

/-- The entry that a statement stores when it is executed from a loading: an assignment that
evaluates stores its value, unless it is a default for a key that is there. -/
def Statement.stored? (engine : Construct.Engine) (s : Statement) (l : Loading) :
    Option (String × Value) :=
  match s.action with
  | .set key e => assigned? engine key e l
  | .default key e =>
    let found := l.store.contains key.text
    if found.result then none
    else assigned? engine key e ⟨l.store, ⟨l.trail.machine, l.trail.events ++ found.events⟩⟩
  | .include _ => none

/-- The program that a statement includes, with the loading in which it begins. -/
def Statement.opens? (engine : Construct.Engine) (s : Statement) (l : Loading) :
    Option (Program × Loading) :=
  match s.action with
  | .include e =>
    match outcome (e.named engine) l with
    | (.ok source, l') =>
      (OpenText.opened l'.trail.machine source).toOption.map fun t => (t.pending, l')
    | (.error _, _) => none
  | _ => none

/-- The statements that a program executes, in order, each with the loading in which it begins.
`inside` lists those of an included program, which follow the include. -/
def executedWith (engine : Construct.Engine) (levels : Nat)
    (inside : Program → Loading → List (Statement × Loading)) :
    Program → Loading → List (Statement × Loading)
  | [], _ => []
  | s :: rest, l =>
    (s, l) :: ((s.opens? engine l).elim [] fun included => inside included.1 included.2) ++
      match outcome (s.run engine (Load.source engine levels)) l with
      | (.ok (), l') => executedWith engine levels inside rest l'
      | (.error _, _) => []

/-- The statements that a program executes if there are some levels of includes left. -/
def executed (engine : Construct.Engine) : Nat → Program → Loading → List (Statement × Loading)
  | 0 => executedWith engine 0 fun _ _ => []
  | levels + 1 => executedWith engine (levels + 1) (executed engine levels)

/-- The entries that executed statements store. -/
def storedBy (engine : Construct.Engine) (statements : List (Statement × Loading)) :
    List (String × Value) :=
  statements.filterMap fun (s, l) => s.stored? engine l

/-- An assignment puts its entry, if it comes to one. -/
theorem assign_puts (engine : Construct.Engine) (key : Name) (e : Expr) (l : Loading) :
    Puts (assigned? engine key e l).toList l (outcome (assign engine key e) l).2 := by
  obtain ⟨calls, hcalls, hevents⟩ :=
    e.evaluate_reads engine l.store ⟨l.trail.machine.withOwner key.text, l.trail.events⟩
  rw [outcome_assign, assigned?]
  rcases hvalue : outcome (e.evaluate engine l.store)
    ⟨l.trail.machine.withOwner key.text, l.trail.events⟩ with ⟨located | v, t⟩
  · rw [hvalue] at hevents
    exact .of_reads hcalls rfl hevents
  · rw [hvalue] at hevents
    have hreads : Puts [] l ⟨l.store, t⟩ := .of_reads hcalls rfl hevents
    exact hreads.append ⟨[.put key.text v], .put key.text v t.machine, rfl⟩

/-- An assignment puts what it stores. -/
theorem Statement.run_assignment_puts {s : Statement} (hs : s.isAssignment = true)
    (load : TextSource → Load Unit) (l : Loading) :
    Puts (s.stored? engine l).toList l (outcome (s.run engine load) l).2 := by
  obtain ⟨⟨key, e⟩ | ⟨key, e⟩ | e, span⟩ := s
  · exact assign_puts engine key e l
  · obtain ⟨calls, hcalls, hevents⟩ := Store.Asks.contains key.text l.store
    have hasked : Puts [] l ⟨l.store, ⟨l.trail.machine,
        l.trail.events ++ (l.store.contains key.text).events⟩⟩ :=
      .of_reads hcalls rfl (congrArg (l.trail.events ++ ·) hevents)
    rw [Statement.run_default]
    simp only [Statement.stored?]
    cases hfound : (l.store.contains key.text).result with
    | true => exact hasked
    | false => exact hasked.append (assign_puts engine key e _)
  · cases hs

/-- The expression of an include puts nothing. -/
theorem Expr.named_puts (engine : Construct.Engine) (e : Expr) (l : Loading) :
    Puts [] l (outcome (e.named engine) l).2 := by
  obtain ⟨calls, hcalls, hevents⟩ := e.evaluate_reads engine l.store
    { l.trail with machine := l.trail.machine.withOwner "" }
  have hpassing : Puts [] l
      (outcome (LoadStep.evaluateInPassing fun store => e.evaluate engine store) l).2 := by
    rw [LoadStep.outcome_evaluateInPassing]
    exact .of_reads hcalls rfl hevents
  unfold Expr.named
  rw [outcome_bind]
  rcases hvalue : outcome (LoadStep.evaluateInPassing fun store => e.evaluate engine store) l with
    ⟨located | v, l'⟩
  all_goals rw [hvalue] at hpassing
  · exact hpassing
  · cases hsource : sourceOf v <;> simpa [hsource] using hpassing

end Syntax

/-- With a level left the load of a source opens it and runs it on the levels below. -/
theorem OpenText.source_succ (engine : Construct.Engine) (levels : Nat) (source : TextSource)
    (l : Loading) :
    outcome (Load.source engine (levels + 1) source) l =
      match opened l.trail.machine source with
      | .error e => (.error e, l)
      | .ok t => outcome (ExceptT.adapt (Located.inText t.origin t.text)
          (Syntax.Statement.runAll engine (Load.source engine levels) t.pending)) l := by
  rw [Load.source, outcome_bind_ok (outcome_get l), opened]
  cases Load.fetch l.trail.machine source with
  | error e => rfl
  | ok fetched =>
    change outcome (Load.text engine (Load.source engine levels) source.text fetched) l =
      match parsed source.text fetched with
      | .error e => (.error e, l)
      | .ok t => _
    unfold parsed
    cases hparse : Syntax.parse fetched with
    | error e =>
      unfold Load.text
      rw [hparse]
      rfl
    | ok program => rw [Load.text_eq _ _ _ hparse]

namespace Syntax

open Loading (Puts)

variable {engine : Construct.Engine} {levels : Nat}

/-- Statements that are executed later put later. -/
theorem storedBy_append (statements further : List (Statement × Loading)) :
    storedBy engine (statements ++ further) =
      storedBy engine statements ++ storedBy engine further :=
  List.filterMap_append

/-- A program puts what its statements store, if each include puts what is stored inside. -/
theorem Statement.runAll_puts_of_include {inside : Program → Loading → List (Statement × Loading)}
    (hinclude : ∀ e span l, Puts
      (storedBy engine ((Statement.opens? engine ⟨.include e, span⟩ l).elim [] fun included =>
        inside included.1 included.2)) l
      (outcome (Statement.run engine (Load.source engine levels) ⟨.include e, span⟩) l).2)
    (program : Program) (l : Loading) :
    Puts (storedBy engine (executedWith engine levels inside program l)) l
      (outcome (Statement.runAll engine (Load.source engine levels) program) l).2 := by
  induction program generalizing l with
  | nil => exact .none rfl rfl
  | cons s rest ih =>
    have hs : Puts (storedBy engine ((s, l) :: ((s.opens? engine l).elim [] fun included =>
        inside included.1 included.2))) l
        (outcome (s.run engine (Load.source engine levels)) l).2 := by
      cases hassignment : s.isAssignment with
      | true =>
        have hopens : s.opens? engine l = none := by
          obtain ⟨_ | _ | _, _⟩ := s
          · rfl
          · rfl
          · cases hassignment
        have hstored : storedBy engine [(s, l)] = (s.stored? engine l).toList := by
          unfold storedBy
          cases h : s.stored? engine l <;> simp [h]
        rw [hopens, Option.elim_none, hstored]
        exact Statement.run_assignment_puts hassignment _ l
      | false =>
        obtain ⟨_ | _ | e, span⟩ := s
        · cases hassignment
        · cases hassignment
        · exact hinclude e span l
    rw [executedWith, storedBy_append]
    change Puts _ l (outcome (s.run engine _ >>= fun _ => Statement.runAll engine _ rest) l).2
    rw [outcome_bind]
    rcases hrun : outcome (s.run engine (Load.source engine levels)) l with ⟨located | _, l'⟩
    · rw [hrun] at hs
      exact hs.append (.none rfl rfl)
    · rw [hrun] at hs
      exact hs.append (ih l')

/-- A program puts the entries that the statements which it executes store, one after the other. -/
theorem Statement.runAll_puts (engine : Construct.Engine) (levels : Nat) (program : Program)
    (l : Loading) :
    Puts (storedBy engine (executed engine levels program l)) l
      (outcome (Statement.runAll engine (Load.source engine levels) program) l).2 := by
  induction levels generalizing program l with
  | zero =>
    refine Statement.runAll_puts_of_include (fun e span l => ?_) program l
    have hnamed := e.named_puts engine l
    have hnothing (found : Option (Program × Loading)) :
        storedBy engine (found.elim [] fun _ => []) = [] := by
      cases found <;> rfl
    rw [hnothing, Statement.run_include_eq, outcome_bind]
    rcases hnames : outcome (e.named engine) l with ⟨located | source, l'⟩
    all_goals rwa [hnames] at hnamed
  | succ levels ih =>
    refine Statement.runAll_puts_of_include (fun e span l => ?_) program l
    have hnamed := e.named_puts engine l
    simp only [Statement.opens?]
    rw [Statement.run_include_eq, outcome_bind]
    rcases hnames : outcome (e.named engine) l with ⟨located | source, l'⟩
    · rwa [hnames] at hnamed
    · rw [hnames] at hnamed
      simp only [outcome_adapt, OpenText.source_succ]
      cases OpenText.opened l'.trail.machine source with
      | error error => exact hnamed
      | ok t => exact hnamed.append (ih t.pending l')

end Syntax

namespace Entry

/-- The statements that the load of an entry executes, in order. -/
def executed (engine : Construct.Engine) (m : Machine) (entry : Entry) (s : Store) :
    List (Syntax.Statement × Loading) :=
  match entry.opened m with
  | .ok t => Syntax.executed engine maxIncludeDepth t.pending ⟨s, m, []⟩
  | .error _ => []

/-- What the load of an entry that has ended puts last: the file, if it is that of a file and has
succeeded. -/
def Leaves (entry : Entry) (result : Except LoadError Unit) (last : List (String × Value)) : Prop :=
  match entry, result with
  | .path file, .ok () => ∃ id, last = [(Load.locationKey, .object id (.file file))]
  | _, _ => last = []

/-- What an entry puts behind its text are the entries that it leaves. -/
theorem close_puts (entry : Entry) (l : Loading) :
    ∃ last, entry.Leaves (.ok ()) last ∧ Loading.Puts last l (outcome entry.close l).2 := by
  cases entry with
  | path file =>
    let issued := (l.trail.machine.withOwner Load.locationKey).issue
    let v : Value := .object issued.1 (.file file)
    exact ⟨[(Load.locationKey, v)], ⟨issued.1, rfl⟩,
      [.put Load.locationKey v], .put Load.locationKey v issued.2, rfl⟩
  | _ => exact ⟨[], rfl, .none rfl rfl⟩

end Entry

/-- The load of an entry makes calls only. They put the entries that the executed statements store,
and the file if the entry is one and its load succeeds. -/
theorem Store.load_calls (engine : Construct.Engine) (m : Machine) (entry : Entry) (s : Store) :
    ∃ calls last, (s.load engine m entry).store = (Call.runAll calls s).result ∧
      (s.load engine m entry).events = (Call.runAll calls s).events ∧
      entry.Leaves (s.load engine m entry).result last ∧
      calls.filterMap Call.put? = Syntax.storedBy engine (entry.executed engine m s) ++ last := by
  have hload := entry.load_eq engine ⟨s, m, []⟩
  rw [load_eq, Entry.executed]
  simp only [hload]
  cases hopened : entry.opened m with
  | error e =>
    refine ⟨[], [], rfl, rfl, ?_, rfl⟩
    cases entry <;> rfl
  | ok t =>
    have hrun : Loading.Puts (Syntax.storedBy engine
        (Syntax.executed engine maxIncludeDepth t.pending ⟨s, m, []⟩)) ⟨s, m, []⟩
        (outcome (t.run engine 0) ⟨s, m, []⟩).2 :=
      Syntax.Statement.runAll_puts engine maxIncludeDepth t.pending ⟨s, m, []⟩
    simp only [outcome_bind]
    rcases hended : outcome (t.run engine 0) ⟨s, m, []⟩ with ⟨error | _, l⟩
    · rw [hended] at hrun
      obtain ⟨calls, hcalls, hputs⟩ := hrun
      refine ⟨calls, [], hcalls.store, hcalls.events, ?_, ?_⟩
      · cases entry <;> rfl
      · rw [hputs, List.append_nil]
    · rw [hended] at hrun
      obtain ⟨last, hlast, hclosed⟩ := entry.close_puts l
      obtain ⟨calls, hcalls, hputs⟩ := hrun.append hclosed
      refine ⟨calls, last, hcalls.store, hcalls.events, ?_, hputs⟩
      rw [entry.close_ok]
      exact hlast

end TypedConfig
