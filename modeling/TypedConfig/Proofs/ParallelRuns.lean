import Mathlib.Data.List.FinRange
import TypedConfig.Proofs.Outcome
import TypedConfig.Run.Object

/-!
# Runs for several items

The configuration is loaded for all items, in their order, before anything is run. The first load
that fails or leaves nothing to run ends the run. Otherwise the pool runs each job once, in an order
of its own and whatever the others return, and the failures are collected in the order of the items.
What is shown here holds of every pool and of every way to run a single job.
-/

namespace TypedConfig.Run

section Loads

variable (path name : String) (extras : List (String × Value))

/-- The load of the configuration for an item, from the machine on which it starts. -/
def loadFor (item : Value) (m : Machine) : Loaded :=
  (itemStore name extras item).readFrom m (.path path)

/-- The load for an item succeeds and leaves an object to run. -/
structure ItemLoads (item : Value) (m : Machine) (job : Content) (m' : Machine) : Prop where
  loads : (loadFor path name extras item m).result = .ok ()
  finds : ∃ id, ((loadFor path name extras item m).store.get? runKey).result =
    some (.object id job)
  runnable : job.isRunnable = true
  leaves : (loadFor path name extras item m).machine = m'

/-- The load for an item fails, or it leaves nothing under the key for objects to run, or a value
that cannot be run. -/
inductive ItemFails (item : Value) (m : Machine) : RunError → Machine → Prop
  | notLoaded {cause} : (loadFor path name extras item m).result = .error cause →
    ItemFails item m (.notLoaded path name item.text cause)
      (loadFor path name extras item m).machine
  | missing : (loadFor path name extras item m).result = .ok () →
    ((loadFor path name extras item m).store.get? runKey).result = none →
    ItemFails item m (.nothingToRun name item.text (.missing runKey))
      (loadFor path name extras item m).machine
  | notRunnable {v} : (loadFor path name extras item m).result = .ok () →
    ((loadFor path name extras item m).store.get? runKey).result = some v →
    (∀ id content, v = .object id content → content.isRunnable = false) →
    ItemFails item m (.nothingToRun name item.text (.notRunnable runKey v.kind))
      (loadFor path name extras item m).machine

/-- The loads for several items succeed one after the other, each from the machine that the one
before has left. -/
inductive ItemsLoad : List Value → Machine → List Content → Machine → Prop
  | nil {m} : ItemsLoad [] m [] m
  | cons {item items m job m' jobs m''} : ItemLoads path name extras item m job m' →
    ItemsLoad items m' jobs m'' → ItemsLoad (item :: items) m (job :: jobs) m''

/-- The load for one of several items is the first that fails. -/
def FirstFails (items : List Value) (m : Machine) (e : RunError) (m' : Machine) : Prop :=
  ∃ front item back jobs between, items = front ++ item :: back ∧
    ItemsLoad path name extras front m jobs between ∧
    ItemFails path name extras item between e m'

variable {path name extras} {item : Value} {items : List Value} {m m' : Machine} {job : Content}
  {jobs : List Content} {e : RunError}

/-- A job is what the load for its item has left under the key for objects to run. -/
theorem outcome_loadJob (item : Value) (m : Machine) :
    outcome (loadJob path name extras item) m =
      ((match (loadFor path name extras item m).result with
        | .error cause => .error (.notLoaded path name item.text cause)
        | .ok _ =>
          match ofFound runKey ((loadFor path name extras item m).store.get? runKey).result with
          | .error cause => .error (.nothingToRun name item.text cause)
          | .ok found => .ok found.2),
        (loadFor path name extras item m).machine) := by
  have hfound (s : Store) :
      (runnable runKey s).result = ofFound runKey (s.get? runKey).result := rfl
  unfold loadJob
  rw [outcome_bind_ok (outcome_get m), outcome_bind_ok (outcome_set m _)]
  simp only [hfound, loadFor]
  cases ((itemStore name extras item).readFrom m (.path path)).result with
  | error cause => rfl
  | ok u =>
    dsimp only
    cases ofFound runKey _ <;> rfl

/-- An item that loads gives its job. -/
theorem ItemLoads.outcome_eq (h : ItemLoads path name extras item m job m') :
    outcome (loadJob path name extras item) m = (.ok job, m') := by
  obtain ⟨hloads, ⟨id, hfinds⟩, hrunnable, rfl⟩ := h
  rw [outcome_loadJob, hloads, hfinds, ofFound, if_pos hrunnable]

/-- An item that fails to load gives its error. -/
theorem ItemFails.outcome_eq (h : ItemFails path name extras item m e m') :
    outcome (loadJob path name extras item) m = (.error e, m') := by
  cases h with
  | notLoaded hloads => rw [outcome_loadJob, hloads]
  | missing hloads hfinds => rw [outcome_loadJob, hloads, hfinds, ofFound]
  | @notRunnable v hloads hfinds hrunnable =>
    rw [outcome_loadJob, hloads, hfinds]
    cases v with
    | object id content => rw [ofFound, if_neg (by simp [hrunnable id content rfl])]
    | _ => rfl

/-- The load for an item leaves an object to run, or it fails. -/
theorem itemLoads_or_itemFails (item : Value) (m : Machine) :
    (∃ job m', ItemLoads path name extras item m job m') ∨
      ∃ e m', ItemFails path name extras item m e m' := by
  cases hloads : (loadFor path name extras item m).result with
  | error cause => exact .inr ⟨_, _, .notLoaded hloads⟩
  | ok u =>
    cases hfinds : ((loadFor path name extras item m).store.get? runKey).result with
    | none => exact .inr ⟨_, _, .missing hloads hfinds⟩
    | some v =>
      by_cases hrunnable : ∀ id content, v = .object id content → content.isRunnable = false
      · exact .inr ⟨_, _, .notRunnable hloads hfinds hrunnable⟩
      · simp only [not_forall, Bool.not_eq_false] at hrunnable
        obtain ⟨id, content, rfl, hcontent⟩ := hrunnable
        exact .inl ⟨content, _, hloads, ⟨id, hfinds⟩, hcontent, rfl⟩

/-- Items that load give their jobs in order. -/
theorem ItemsLoad.outcome_eq (h : ItemsLoad path name extras items m jobs m') :
    outcome (loadJobs path name extras items) m = (.ok jobs, m') := by
  induction h with
  | nil => rfl
  | cons hitem _ ih => rw [loadJobs, outcome_bind_ok hitem.outcome_eq, outcome_bind_ok ih]; rfl

/-- There is a job for each item. -/
theorem ItemsLoad.length_eq (h : ItemsLoad path name extras items m jobs m') :
    jobs.length = items.length := by
  induction h with
  | nil => rfl
  | cons _ _ ih => exact congrArg (· + 1) ih

/-- The first load that fails ends the loads with its error. -/
theorem FirstFails.outcome_eq (h : FirstFails path name extras items m e m') :
    outcome (loadJobs path name extras items) m = (.error e, m') := by
  obtain ⟨front, item, back, jobs, between, rfl, hfront, hitem⟩ := h
  induction hfront with
  | nil => exact outcome_bind_error hitem.outcome_eq
  | cons hfirst _ ih =>
    rw [List.cons_append, loadJobs, outcome_bind_ok hfirst.outcome_eq]
    exact outcome_bind_error (ih hitem)

/-- All loads succeed, or there is a first one that fails. -/
theorem itemsLoad_or_firstFails (items : List Value) (m : Machine) :
    (∃ jobs m', ItemsLoad path name extras items m jobs m') ∨
      ∃ e m', FirstFails path name extras items m e m' := by
  induction items generalizing m with
  | nil => exact .inl ⟨[], m, .nil⟩
  | cons item items ih =>
    rcases @itemLoads_or_itemFails path name extras item m with
      ⟨job, between, hitem⟩ | ⟨e, m', hitem⟩
    · rcases ih between with ⟨jobs, m', hitems⟩ | ⟨e, m', hfails⟩
      · exact .inl ⟨job :: jobs, m', .cons hitem hitems⟩
      · obtain ⟨front, later, back, jobs, between', rfl, hfront, hlater⟩ := hfails
        exact .inr ⟨e, m', item :: front, later, back, job :: jobs, between', rfl,
          .cons hitem hfront, hlater⟩
    · exact .inr ⟨e, m', [], item, items, [], m, rfl, .nil, hitem⟩

end Loads

section Runs

/-- Jobs are run in an order of their positions, each from the machine that the one before has left,
and each returns what is noted for its position. -/
inductive RunsInOrder (run : Content → Running Unit) (jobs : List Content)
    (results : Fin jobs.length → Except RunError Unit) :
    List (Fin jobs.length) → Machine → Machine → Prop
  | done {m} : RunsInOrder run jobs results [] m m
  | next {i order m m' m''} : outcome (run (jobs.get i)) m = (results i, m') →
    RunsInOrder run jobs results order m' m'' → RunsInOrder run jobs results (i :: order) m m''

/-- The errors among what several jobs return, in the order of the jobs. -/
def errorsOf {count : Nat} (results : Fin count → Except RunError Unit) : List RunError :=
  (List.finRange count).filterMap fun i => errorOf? (results i)

variable {run : Content → Running Unit} {jobs : List Content}
  {results results' : Fin jobs.length → Except RunError Unit}
  {order : List (Fin jobs.length)} {m m' : Machine}

/-- A job without an error has succeeded. -/
theorem errorOf?_eq_none_iff {result : Except RunError Unit} :
    errorOf? result = none ↔ result = .ok () := by
  cases result <;> simp [errorOf?]

/-- No errors are collected exactly if all jobs succeed. -/
theorem errorsOf_eq_nil_iff {count : Nat} {results : Fin count → Except RunError Unit} :
    errorsOf results = [] ↔ ∀ i, results i = .ok () := by
  simp [errorsOf, List.filterMap_eq_nil_iff, errorOf?_eq_none_iff]

/-- Only what is noted for the positions in the order matters. -/
theorem RunsInOrder.congr (h : RunsInOrder run jobs results order m m')
    (hsame : ∀ i ∈ order, results i = results' i) : RunsInOrder run jobs results' order m m' := by
  induction h with
  | done => exact .done
  | next hrun _ ih =>
    rw [hsame _ (.head _)] at hrun
    exact .next hrun (ih fun i hi => hsame i (.tail _ hi))

/-- Jobs that are run in an order without repetitions return something for each position in it. -/
theorem exists_runsInOrder (hnodup : order.Nodup) (m : Machine) :
    ∃ results m', RunsInOrder run jobs results order m m' ∧
      (runInOrder run jobs order).run m = (order.map fun i => (i, results i), m') := by
  induction order generalizing m with
  | nil => exact ⟨fun _ => .ok (), m, .done, rfl⟩
  | cons i order ih =>
    obtain ⟨hi, hrest⟩ := List.nodup_cons.mp hnodup
    obtain ⟨results, m', hruns, hreturned⟩ := ih hrest (outcome (run (jobs.get i)) m).2
    -- What has been noted for `i` is never looked at again, since `i` does not come back.
    have hsame : ∀ j ∈ order, results j =
        Function.update results i (outcome (run (jobs.get i)) m).1 j := fun j hj =>
      (Function.update_of_ne (ne_of_mem_of_not_mem hj hi) _ _).symm
    refine ⟨Function.update results i (outcome (run (jobs.get i)) m).1, m', ?_, ?_⟩
    · refine .next ?_ (hruns.congr hsame)
      rw [Function.update_self]
    · have hstep : (runInOrder run jobs (i :: order)).run m =
          let rest := (runInOrder run jobs order).run (outcome (run (jobs.get i)) m).2
          ((i, (outcome (run (jobs.get i)) m).1) :: rest.1, rest.2) := rfl
      rw [hstep, hreturned, List.map_cons, Function.update_self]
      exact congrArg (fun pairs => ((i, _) :: pairs, m'))
        (List.map_congr_left fun j hj => congrArg (j, ·) (hsame j hj))

/-- What is returned in an order is looked up by the positions in it. -/
theorem lookup_map_pair {i : Fin jobs.length} (hi : i ∈ order) :
    (order.map fun j => (j, results j)).lookup i = some (results i) := by
  induction order with
  | nil => cases hi
  | cons j order ih =>
    rw [List.map_cons, List.lookup_cons]
    by_cases hij : i = j
    · subst hij
      simp
    · rw [beq_false_of_ne hij]
      exact ih ((List.mem_cons.mp hi).resolve_left hij)

/-- A pool runs each job once, and what the jobs return is in their order. -/
theorem exists_runJobs (pool : Pool) (run : Content → Running Unit) (jobs : List Content)
    (m : Machine) :
    ∃ results m', RunsInOrder run jobs results (pool.order jobs.length) m m' ∧
      (runJobs pool run jobs).run m = ((List.finRange jobs.length).map results, m') := by
  have hperm := pool.order_perm jobs.length
  have hnodup := hperm.nodup_iff.mpr (List.nodup_finRange jobs.length)
  obtain ⟨results, m', hruns, hreturned⟩ := @exists_runsInOrder run jobs _ hnodup m
  refine ⟨results, m', hruns, ?_⟩
  have hstep : (runJobs pool run jobs).run m =
      let returned := (runInOrder run jobs (pool.order jobs.length)).run m
      ((List.finRange jobs.length).filterMap (returned.1.lookup ·), returned.2) := rfl
  have hfound : ∀ i ∈ List.finRange jobs.length,
      ((pool.order jobs.length).map fun j => (j, results j)).lookup i = some (results i) :=
    fun i hi => lookup_map_pair (hperm.mem_iff.mpr hi)
  rw [hstep, hreturned]
  dsimp only
  rw [List.filterMap_congr hfound]
  exact congrArg (·, m') (congrFun List.filterMap_eq_map' _)

/-- As many errors are collected as there are jobs that fail. -/
theorem length_errorsOf {count : Nat} (results : Fin count → Except RunError Unit) :
    (errorsOf results).length = (List.finRange count).countP fun i => !(results i).isOk := by
  rw [errorsOf, List.length_filterMap_eq_countP]
  refine List.countP_congr fun i _ => ?_
  cases results i <;> simp [errorOf?, Except.isOk, Except.toBool]

/-- Once all loads have succeeded, the pool runs all jobs. The run fails with the errors of those
that fail, if there are any. -/
theorem ItemsLoad.outcome_runItems {path name : String} {items : List Value}
    {extras : List (String × Value)} {between : Machine} (pool : Pool)
    (run : Content → Running Unit)
    (h : ItemsLoad path name extras items m jobs between) :
    ∃ results m', RunsInOrder run jobs results (pool.order jobs.length) between m' ∧
      outcome (runItems pool run path name items extras) m =
        (if errorsOf results = [] then .ok ()
          else .error (.failures jobs.length (errorsOf results)), m') := by
  obtain ⟨results, m', hruns, hreturned⟩ := exists_runJobs pool run jobs between
  refine ⟨results, m', hruns, ?_⟩
  unfold runItems
  rw [outcome_bind_ok h.outcome_eq]
  have hlifted : outcome (liftM (runJobs pool run jobs) : Running (List (Except RunError Unit)))
      between = (.ok ((List.finRange jobs.length).map results), m') := by
    change (Prod.map Except.ok id) ((runJobs pool run jobs).run between) = _
    rw [hreturned]
    rfl
  have herrors : ((List.finRange jobs.length).map results).filterMap errorOf? =
      errorsOf results := List.filterMap_map ..
  rw [outcome_bind_ok hlifted]
  dsimp only
  rw [herrors]
  cases errorsOf results <;> rfl

end Runs

/-- A run for several items runs nothing unless the loads for all of them succeed; else it fails as
the first load does that fails. With all loads done each job is run exactly once, in the order of
the pool, and the run fails exactly if a job does, with the errors of just those that do. -/
theorem runItems_all_or_nothing (pool : Pool) (run : Content → Running Unit) (path name : String)
    (items : List Value) (extras : List (String × Value)) (m : Machine) :
    (∀ levels workers,
      runContent pool (levels + 1) (.parallel (some path) (some items) (some name) workers extras) =
        runItems pool (runContent pool levels) path name items extras) ∧
    ((∃ jobs between, ItemsLoad path name extras items m jobs between) ∨
      ∃ e m', FirstFails path name extras items m e m') ∧
    (∀ e m', FirstFails path name extras items m e m' →
      outcome (runItems pool run path name items extras) m = (.error e, m')) ∧
    ∀ jobs between, ItemsLoad path name extras items m jobs between →
      jobs.length = items.length ∧ ∃ results m',
        RunsInOrder run jobs results (pool.order jobs.length) between m' ∧
        (∀ i, (pool.order jobs.length).count i = 1) ∧
        (outcome (runItems pool run path name items extras) m).2 = m' ∧
        ((outcome (runItems pool run path name items extras) m).1 = .ok () ↔
          ∀ i, results i = .ok ()) ∧
        ∀ e, (outcome (runItems pool run path name items extras) m).1 = .error e →
          e = .failures items.length (errorsOf results) ∧
          e.message = toString ((List.finRange jobs.length).countP fun i => !(results i).isOk) ++
            " of " ++ toString items.length ++ " runs failed" := by
  refine ⟨fun _ _ => rfl, itemsLoad_or_firstFails items m,
    fun e m' hfails => outcome_bind_error hfails.outcome_eq, fun jobs between hloads => ?_⟩
  obtain ⟨results, m', hruns, houtcome⟩ := hloads.outcome_runItems pool run
  have hperm := pool.order_perm jobs.length
  refine ⟨hloads.length_eq, results, m', hruns, fun i => ?_, ?_, ?_, fun e he => ?_⟩
  · rw [hperm.count_eq]
    exact List.count_eq_one_of_mem (List.nodup_finRange _) (List.mem_finRange i)
  · rw [houtcome]
  · rw [houtcome, ← errorsOf_eq_nil_iff]
    simp
  · have hfailures : e = .failures items.length (errorsOf results) := by
      rw [houtcome] at he
      dsimp only at he
      rw [← hloads.length_eq]
      split at he
      · cases he
      · exact (Except.error.inj he).symm
    refine ⟨hfailures, ?_⟩
    rw [← length_errorsOf, hfailures]
    rfl

/-- A pool that begins with the last job, and two items that name commands, the first of which does
not exist; and a configuration that does not exist. -/
theorem runItems_all_or_nothing_from_last :
    let tree : File.Tree := ⟨.directory [("job.o", .file "run = ShellExecutor(item);".toUTF8)], []⟩
    let m := Machine.start tree []
    let pool : Pool := ⟨fun count => (List.finRange count).reverse, fun _ => List.reverse_perm _⟩
    let items : List Value := [.string "unknown", .string "true"]
    let ended (path : String) :=
      outcome (runItems pool (runContent pool 1) path "item" items []) m
    let notLoaded : RunError :=
      .notLoaded "other.o" "item" "unknown" (.unreadable "file 'other.o'" .notFound)
    (∃ jobs between, ItemsLoad "job.o" "item" [] items m jobs between) ∧
    (ended "job.o").2.printed =
      " => executing command 'true'\n => executing command 'unknown'\n" ∧
    (∃ errors, (ended "job.o").1 = .error (.failures 2 errors) ∧
      RunError.message (.failures 2 errors) = "1 of 2 runs failed") ∧
    ∃ m', FirstFails "other.o" "item" [] items m notLoaded m' ∧
      ended "other.o" = (.error notLoaded, m') := by
  intro tree m pool items ended notLoaded
  obtain ⟨-, -, hfails, -⟩ :=
    runItems_all_or_nothing pool (runContent pool 1) "other.o" "item" items [] m
  obtain ⟨-, hload, -, hruns⟩ :=
    runItems_all_or_nothing pool (runContent pool 1) "job.o" "item" items [] m
  -- The loads and the run are evaluated only once.
  obtain ⟨hprinted, hmessage, hok⟩ :
      (ended "job.o").2.printed =
        " => executing command 'true'\n => executing command 'unknown'\n" ∧
      (errorOf? (ended "job.o").1).map RunError.message = some "1 of 2 runs failed" ∧
      (outcome (loadJobs "job.o" "item" [] items) m).1.isOk = true := by
    decide +kernel
  have hloads : ∃ jobs between, ItemsLoad "job.o" "item" [] items m jobs between := by
    refine hload.resolve_right ?_
    rintro ⟨e, m', hfirst⟩
    rw [hfirst.outcome_eq] at hok
    cases hok
  refine ⟨hloads, hprinted, ?_, ?_⟩
  · obtain ⟨jobs, between, hjobs⟩ := hloads
    obtain ⟨-, results, m', -, -, -, -, hfailed⟩ := hruns jobs between hjobs
    cases hended : (ended "job.o").1 with
    | ok u =>
      rw [hended] at hmessage
      cases hmessage
    | error e =>
      rw [hended] at hmessage
      obtain ⟨rfl, -⟩ := hfailed e hended
      exact ⟨errorsOf results, rfl, Option.some.inj hmessage⟩
  · have hfirst : FirstFails "other.o" "item" [] items m notLoaded
        (loadFor "other.o" "item" [] (.string "unknown") m).machine :=
      ⟨[], _, _, [], m, rfl, .nil, .notLoaded rfl⟩
    exact ⟨_, hfirst, hfails _ _ hfirst⟩

end TypedConfig.Run
