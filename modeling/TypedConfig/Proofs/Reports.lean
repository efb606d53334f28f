import TypedConfig.Proofs.Calls
import TypedConfig.Proofs.Requests

/-!
# Reports of observers

What observers report is well nested: each operation that begins also ends, the last one that has
begun first, and nothing is open when a request is answered. What an observed store wraps changes
between the beginning and the end of a put, a removal or a clearing only, so the reports of the
outermost observer tell what becomes of the store that it wraps. In a load each observer reports one
put for each executed assignment that stores a value.

A log holds no stores. Where in a log a store changes is said by a relation between two stores and
the events that are reported while the first one becomes the second one.
-/

namespace TypedConfig

namespace Operation

/-- Whether an operation is a series of others. -/
def isSeries : Operation → Bool
  | putAll _ => true
  | read _ => true
  | _ => false

/-- What an operation makes of a store, the parts of a series apart. -/
def next (s : Store) : Operation → Store
  | put key value => (s.put key value).result.2
  | remove key => (s.remove key).result.2
  | clear => s.clear.result
  | _ => s

variable {operation : Operation}

/-- An operation that changes the store is not a series of others. -/
theorem not_isSeries_of_changes (h : operation.changes = true) : operation.isSeries = false := by
  cases operation with
  | putAll => cases h
  | read => cases h
  | _ => rfl

/-- An operation that does not change the store leaves it as it is. -/
theorem next_of_not_changes (h : operation.changes = false) (s : Store) : operation.next s = s := by
  cases operation with
  | put => cases h
  | remove => cases h
  | clear => cases h
  | _ => rfl

end Operation

/-- In a log each beginning of an operation has its own end, and what begins in between ends in
between. -/
inductive Bracketed : List Event → Prop
  | nil : Bracketed []
  | around {operation : Operation} {inside rest : List Event} : Bracketed inside → Bracketed rest →
    Bracketed (.before operation :: inside ++ .after operation :: rest)

namespace Event

/-- The operations that a log reports at a level: those that begin inside as many others. A series
counts as its parts. -/
def reportedAt (level : Nat) : Nat → List Event → List Operation
  | _, [] => []
  | depth, .before operation :: rest =>
    if operation.isSeries then reportedAt level depth rest
    else if depth = level then operation :: reportedAt level (depth + 1) rest
    else reportedAt level (depth + 1) rest
  | depth, .after operation :: rest =>
    if operation.isSeries then reportedAt level depth rest
    else reportedAt level (depth - 1) rest

/-- What an operation reports, if the depth is the same before and behind what it reports inside:
itself, unless it is a series, what is reported inside, and then the rest. -/
theorem reportedAt_around {level : Nat} {inside : List Event}
    (hinside : ∀ depth rest, reportedAt level depth (inside ++ rest) =
      reportedAt level depth inside ++ reportedAt level depth rest)
    (operation : Operation) (depth : Nat) (rest : List Event) :
    reportedAt level depth (.before operation :: inside ++ .after operation :: rest) =
      (if operation.isSeries then reportedAt level depth inside
        else (if depth = level then [operation] else []) ++ reportedAt level (depth + 1) inside) ++
      reportedAt level depth rest := by
  cases hseries : operation.isSeries with
  | true => simp [reportedAt, hinside, hseries]
  | false => by_cases hlevel : depth = level <;> simp [reportedAt, hinside, hseries, hlevel]

end Event

namespace Bracketed

open Event (reportedAt reportedAt_around)

variable {events : List Event}

/-- Logs in order stay in order one behind the other. -/
theorem append {rest : List Event} (h : Bracketed events) (hrest : Bracketed rest) :
    Bracketed (events ++ rest) := by
  induction h with
  | nil => exact hrest
  | around hinside _ _ ih => simpa using Bracketed.around hinside ih

/-- Behind a well nested log the depth is what it was before. -/
theorem reportedAt_append (h : Bracketed events) (level depth : Nat) (rest : List Event) :
    reportedAt level depth (events ++ rest) =
      reportedAt level depth events ++ reportedAt level depth rest := by
  induction h generalizing depth rest with
  | nil => rfl
  | @around operation inside further _ _ ihinside ihfurther =>
    have hshape : .before operation :: inside ++ .after operation :: further ++ rest =
        .before operation :: inside ++ .after operation :: (further ++ rest) := by simp
    rw [hshape, reportedAt_around ihinside, reportedAt_around ihinside, ihfurther,
      List.append_assoc]

/-- Nothing inside an operation is at the outermost level. -/
theorem reportedAt_zero_succ (h : Bracketed events) (depth : Nat) :
    reportedAt 0 (depth + 1) events = [] := by
  induction h generalizing depth with
  | nil => rfl
  | @around operation inside further hinside _ ihinside ihfurther =>
    rw [reportedAt_around (hinside.reportedAt_append 0), ihinside, ihinside, ihfurther]
    simp

/-- A level further in counts from one operation further in. -/
theorem reportedAt_succ_succ (h : Bracketed events) (level depth : Nat) :
    reportedAt (level + 1) (depth + 1) events = reportedAt level depth events := by
  induction h generalizing depth with
  | nil => rfl
  | @around operation inside further hinside _ ihinside ihfurther =>
    rw [reportedAt_around (hinside.reportedAt_append _), reportedAt_around
      (hinside.reportedAt_append _), ihinside, ihinside, ihfurther]
    simp only [Nat.add_right_cancel_iff]

/-- An operation that is no series reports itself and what is reported inside. -/
theorem reportedAt_operation {operation : Operation} (h : Bracketed events)
    (hseries : operation.isSeries = false) (level : Nat) :
    reportedAt level 0 (.before operation :: events ++ [.after operation]) =
      if level = 0 then [operation] else reportedAt (level - 1) 0 events := by
  rw [reportedAt_around (h.reportedAt_append level), hseries]
  cases level with
  | zero => simp [h.reportedAt_zero_succ, reportedAt]
  | succ level => simp [h.reportedAt_succ_succ, reportedAt]

/-- A series reports what is reported inside. -/
theorem reportedAt_series {operation : Operation} (h : Bracketed events)
    (hseries : operation.isSeries = true) (level depth : Nat) :
    reportedAt level depth (.before operation :: events ++ [.after operation]) =
      reportedAt level depth events := by
  rw [reportedAt_around (h.reportedAt_append level), if_pos hseries]
  exact List.append_nil _

end Bracketed

/-- While a store becomes another one, events are reported. The flag says whether anything may
change: a map and the own map of a scope change without a report, but what an observed store wraps
changes only between the beginning and the end of a changing operation, and then as the operation
says. -/
inductive Store.Reports : Bool → Store → List Event → Store → Prop
  | none {changing : Bool} {s : Store} : Reports changing s [] s
  | append {changing : Bool} {s t u : Store} {events further : List Event} :
    Reports changing s events t → Reports changing t further u →
      Reports changing s (events ++ further) u
  | map {entries entries' : Entries Value} : Reports true (.map entries) [] (.map entries')
  | own {own own' : Entries Value} {outer : Store} :
    Reports true (.scope own outer) [] (.scope own' outer)
  | outer {changing : Bool} {own : Entries Value} {s t : Store} {events : List Event} :
    Reports changing s events t → Reports changing (.scope own s) events (.scope own t)
  | locked {changing : Bool} {s t : Store} {events : List Event} :
    Reports changing s events t → Reports changing (.locked s) events (.locked t)
  | reading {changing : Bool} {operation : Operation} {s t : Store} {events : List Event} :
    operation.changes = false → operation.isSeries = false → Reports false s events t →
      Reports changing (.observed s) (.before operation :: events ++ [.after operation])
        (.observed t)
  | changing {operation : Operation} {s : Store} {events : List Event} :
    operation.changes = true → Reports true s events (operation.next s) →
      Reports true (.observed s) (.before operation :: events ++ [.after operation])
        (.observed (operation.next s))
  | series {operation : Operation} {s t : Store} {events : List Event} :
    operation.isSeries = true → Reports true (.observed s) events t →
      Reports true (.observed s) (.before operation :: events ++ [.after operation]) t

/-- The number of observers that a change passes one after the other: those outside the topmost
map. -/
def Store.observers : Store → Nat
  | observed inner => inner.observers + 1
  | locked inner => inner.observers
  | _ => 0

namespace Store.Reports

open Event (reportedAt)

variable {changing : Bool} {s t : Store} {events : List Event}

/-- What is reported is well nested. -/
theorem bracketed (h : Reports changing s events t) : Bracketed events := by
  induction h with
  | none => exact .nil
  | append _ _ ih ih' => exact ih.append ih'
  | map => exact .nil
  | own => exact .nil
  | outer _ ih => exact ih
  | locked _ ih => exact ih
  | reading _ _ _ ih => exact .around ih .nil
  | changing _ _ ih => exact .around ih .nil
  | series _ _ ih => exact .around ih .nil

/-- Where nothing may change, the store is the same. -/
theorem eq_of_reading (h : Reports false s events t) : t = s := by
  generalize hflag : false = flag at h
  induction h with
  | none => rfl
  | append _ _ ih ih' => rw [ih' hflag, ih hflag]
  | map => cases hflag
  | own => cases hflag
  | outer _ ih => rw [ih hflag]
  | locked _ ih => rw [ih hflag]
  | reading _ _ _ ih => rw [ih rfl]
  | changing => cases hflag
  | series => cases hflag

/-- What the outermost observer reports has been done to the store that it wraps, and nothing else
has. -/
theorem replay (h : Reports changing (.observed s) events t) :
    t = .observed ((reportedAt 0 0 events).foldl Operation.next s) := by
  generalize hs : Store.observed s = u at h
  induction h generalizing s with
  | none => exact hs.symm
  | append hfirst _ ih ih' =>
    rw [hfirst.bracketed.reportedAt_append, List.foldl_append]
    exact ih' (ih hs).symm
  | map => cases hs
  | own => cases hs
  | outer => cases hs
  | locked => cases hs
  | reading hchanges hseries hinside =>
    cases hs
    rw [hinside.bracketed.reportedAt_operation hseries, hinside.eq_of_reading]
    exact congrArg Store.observed (Operation.next_of_not_changes hchanges _).symm
  | changing hchanges hinside =>
    cases hs
    rw [hinside.bracketed.reportedAt_operation (Operation.not_isSeries_of_changes hchanges)]
    rfl
  | series hseries hinside ih =>
    rw [hinside.bracketed.reportedAt_series hseries]
    exact ih hs

end Store.Reports

namespace Call

variable {calls : List Call} {changing : Bool}

/-- No call is a series of others. -/
theorem isSeries_operation (c : Call) : c.operation.isSeries = false := by cases c <;> rfl

/-- A call leaves what its operation makes of the store. -/
theorem run_result (c : Call) (s : Store) : (c.run s).result = c.operation.next s := by
  cases c <;> rfl

/-- A call of an observed store is reported around the call of the store inside. -/
theorem run_observed (c : Call) (s : Store) :
    c.run (.observed s) = (Store.observed <$> c.run s).around c.operation := by
  cases c <;> exact Logged.ext rfl (by simp [run, operation, Store.get?, Store.contains, Store.keys,
    Store.put, Store.remove, Store.clear])

/-- A call to a locked store is the call to the store inside. -/
theorem run_locked (c : Call) (s : Store) : c.run (.locked s) = Store.locked <$> c.run s := by
  cases c <;> exact Logged.ext rfl (by simp [run, Store.get?, Store.contains, Store.keys,
    Store.put, Store.remove, Store.clear])

/-- A call of a scope is one of its own map, or else one of the store below. -/
theorem run_scope (c : Call) (own : Entries Value) (outer : Store) :
    (∃ own', c.run (.scope own outer) = pure (.scope own' outer) ∧
      (c.changes = true ∨ own' = own)) ∨
    c.put? = none ∧ c.run (.scope own outer) = Store.scope own <$> c.run outer := by
  cases c with
  | get key =>
    cases hfound : Entries.get? key own with
    | some v => exact .inl ⟨own, Logged.ext rfl (by simp [run, Store.get?, hfound]), .inr rfl⟩
    | none => exact .inr ⟨rfl, Logged.ext rfl (by simp [run, Store.get?, hfound])⟩
  | contains key =>
    cases hfound : Entries.contains key own with
    | true =>
      exact .inl ⟨own, Logged.ext rfl (by simp [run, Store.contains, hfound]), .inr rfl⟩
    | false => exact .inr ⟨rfl, Logged.ext rfl (by simp [run, Store.contains, hfound])⟩
  | keys => exact .inr ⟨rfl, Logged.ext rfl (by simp [run, Store.keys])⟩
  | put key value => exact .inl ⟨_, rfl, .inl rfl⟩
  | remove key =>
    cases hfound : Entries.contains key own with
    | true =>
      refine .inl ⟨Entries.erase key own, ?_, .inl rfl⟩
      simp [run, Store.remove, hfound]
    | false =>
      exact .inr ⟨rfl, Logged.ext (by simp [run, Store.remove, hfound])
        (by simp [run, Store.remove, hfound])⟩
  | clear => exact .inl ⟨_, rfl, .inl rfl⟩

/-- A call reports what it does to a store. -/
theorem reports (c : Call) (s : Store) (h : c.changes = true → changing = true) :
    Store.Reports changing s (c.run s).events (c.run s).result := by
  induction s generalizing changing with
  | map entries =>
    cases c with
    | put => exact h rfl ▸ .map
    | remove => exact h rfl ▸ .map
    | clear => exact h rfl ▸ .map
    | _ => exact .none
  | scope own outer ih =>
    obtain ⟨own', hrun, hchanges | rfl⟩ | ⟨-, hrun⟩ := c.run_scope own outer
    · rw [hrun]
      exact h hchanges ▸ .own
    · rw [hrun]
      exact .none
    · rw [hrun, Logged.result_map, Logged.events_map]
      exact .outer (ih h)
  | observed inner ih =>
    rw [run_observed, Logged.result_around, Logged.events_around, Logged.result_map,
      Logged.events_map]
    cases hchanges : c.changes with
    | true =>
      have hinner : Store.Reports true inner (c.run inner).events (c.run inner).result :=
        ih fun _ => rfl
      rw [run_result] at hinner ⊢
      exact h hchanges ▸ .changing hchanges hinner
    | false =>
      exact .reading hchanges (isSeries_operation c)
        (ih fun hc => (Bool.eq_false_iff.mp hchanges hc).elim)
  | locked inner ih =>
    rw [run_locked, Logged.result_map, Logged.events_map]
    exact .locked (ih h)

/-- Calls report what they do to a store. -/
theorem runAll_reports (s : Store) (h : ∀ c ∈ calls, c.changes = true → changing = true) :
    Store.Reports changing s (runAll calls s).events (runAll calls s).result := by
  induction calls generalizing s with
  | nil => exact .none
  | cons c calls ih =>
    obtain ⟨hc, hcalls⟩ := List.forall_mem_cons.mp h
    exact .append (c.reports s hc) (ih _ hcalls)

/-- The number of observers stays. -/
theorem observers_run (c : Call) (s : Store) : (c.run s).result.observers = s.observers := by
  induction s with
  | map entries => cases c <;> rfl
  | scope own outer ih =>
    obtain ⟨own', hrun, -⟩ | ⟨-, hrun⟩ := c.run_scope own outer
    · rw [hrun]
      rfl
    · rw [hrun]
      rfl
  | observed inner ih =>
    rw [run_observed]
    exact congrArg (· + 1) ih
  | locked inner ih =>
    rw [run_locked]
    exact ih

/-- Each observer of a store reports a put once. -/
theorem reportedAt_run (c : Call) (s : Store) (level : Nat) :
    (Event.reportedAt level 0 (c.run s).events).filterMap Operation.put? =
      if level < s.observers then c.put?.toList else [] := by
  induction s generalizing level with
  | map entries =>
    cases c <;> rfl
  | scope own outer ih =>
    obtain ⟨own', hrun, -⟩ | ⟨hput, hrun⟩ := c.run_scope own outer
    · rw [hrun]
      rfl
    · rw [hrun, Logged.events_map, ih, hput]
      exact ite_self _
  | observed inner ih =>
    have hinner : Bracketed (c.run inner).events := (c.reports inner fun _ => rfl).bracketed
    rw [run_observed, Logged.events_around, Logged.events_map,
      hinner.reportedAt_operation (isSeries_operation c)]
    cases level with
    | zero => cases c <;> rfl
    | succ level => simpa [Store.observers] using ih level
  | locked inner ih =>
    rw [run_locked, Logged.events_map]
    exact ih level

/-- Each observer of a store reports the puts among some calls, in order. -/
theorem reportedAt_runAll (calls : List Call) (s : Store) (level : Nat) :
    (Event.reportedAt level 0 (runAll calls s).events).filterMap Operation.put? =
      if level < s.observers then calls.filterMap put? else [] := by
  induction calls generalizing s with
  | nil => exact (ite_self _).symm
  | cons c calls ih =>
    have hc : Bracketed (c.run s).events := (c.reports s fun _ => rfl).bracketed
    rw [runAll, Logged.events_bind, hc.reportedAt_append, List.filterMap_append, reportedAt_run,
      ih, observers_run]
    split
    · cases hput : c.put? <;> simp [hput]
    · rfl

end Call

namespace Store

variable {α : Type} {changing : Bool} {s : Store}

/-- An answer is reported without a change. -/
theorem Asks.reports {x : Logged α} (h : s.Asks x) : Reports changing s x.events s := by
  obtain ⟨calls, hcalls, hevents⟩ := h
  have hreports : Reports changing s (Call.runAll calls s).events (Call.runAll calls s).result :=
    Call.runAll_reports s fun c hc hchanges => (Bool.eq_false_iff.mp (hcalls c hc) hchanges).elim
  rw [Call.runAll_result_of_reads hcalls] at hreports
  rwa [hevents]

/-- The values are asked for by key. -/
theorem Asks.values (s : Store) : s.Asks s.values := .bind (.keys s) (.valuesOf _ s)

/-- The size is asked for by the keys. -/
theorem Asks.size (s : Store) : s.Asks s.size := by
  cases s with
  | map entries => exact .pure entries.length
  | _ => exact .bind (.keys _) (.pure _)

/-- An object is asked for by its key. -/
theorem Asks.readObject (type : ObjectType) (key : String) (s : Store) :
    s.Asks (s.readObject type key) := .bind (.get? key s) (.pure _)

/-- A typed read is reported without a change. It need not be a call: a scope passes over a value
of its own that does not fit. -/
theorem read_reports (r : Reading α) (key : String) (s : Store) :
    Reports changing s (s.read r key).events s := by
  induction s with
  | scope own outer ih =>
    rw [read]
    cases r.ofFound key (Entries.get? key own) with
    | ok x => exact .none
    | error mismatch =>
      change Reports changing _ (outer.read r key >>= _).events _
      rw [Logged.events_bind_of_quiet]
      · exact .outer ih
      · intro result
        cases result with
        | ok x => rfl
        | error further => cases mismatch <;> rfl
  | _ => exact (Asks.bind (.get? key _) (.pure _)).reports

/-- Several puts are calls. -/
theorem putEach_eq_runAll (new : List (String × Value)) (s : Store) :
    s.putEach new = Call.runAll (new.map fun entry => .put entry.1 entry.2) s := by
  induction new generalizing s with
  | nil => rfl
  | cons entry new ih =>
    rw [putEach, List.map_cons, Call.runAll, Call.run, bind_assoc]
    simp only [ih, pure_bind]

/-- Puts one after the other are reported one by one. -/
theorem putEach_reports (new : List (String × Value)) (s : Store) :
    Reports true s (s.putEach new).events (s.putEach new).result := by
  rw [putEach_eq_runAll]
  exact Call.runAll_reports s fun _ _ _ => rfl

/-- A put of several entries is reported as a series. -/
theorem putAll_reports (new : List (String × Value)) (s : Store) :
    Reports true s (s.putAll new).events (s.putAll new).result := by
  cases s with
  | observed inner => exact .series rfl (putEach_reports new _)
  | _ => exact putEach_reports new _

/-- A load reports what it does to the store. -/
theorem load_reports (engine : Construct.Engine) (m : Machine) (entry : Entry) (s : Store) :
    Reports true s (s.load engine m entry).events (s.load engine m entry).store := by
  obtain ⟨calls, _, hstore, hevents, _⟩ := s.load_calls engine m entry
  rw [hstore, hevents]
  exact Call.runAll_reports s fun _ _ _ => rfl

/-- A load with the types that are built in reports what it does to the store. -/
theorem readFrom_reports (m : Machine) (entry : Entry) (s : Store) :
    Reports true s (s.readFrom m entry).events (s.readFrom m entry).store := by
  cases s with
  | observed inner => exact .series rfl (load_reports _ m entry _)
  | _ => exact load_reports _ m entry _

/-- The report of a load counts as what is reported inside. -/
theorem reportedAt_readFrom (level : Nat) (m : Machine) (entry : Entry) (s : Store) :
    Event.reportedAt level 0 (s.readFrom m entry).events =
      Event.reportedAt level 0 (s.load (.standard m.libraries) m entry).events := by
  cases s with
  | observed inner => exact (load_reports _ m entry _).bracketed.reportedAt_series rfl level 0
  | _ => rfl

end Store

namespace Request

open Store (Reports Asks)

/-- A question is reported and changes nothing. -/
theorem asking_reports {α : Type} {s : Store} {question : Store → Logged α}
    (h : Reports true s (question s).events s) :
    Reports true s (asking question s).events (asking question s).result.2 := by
  rw [asking, Logged.events_bind_of_quiet fun _ => rfl]
  exact h

/-- A request reports what it does to a store. -/
theorem run_reports (q : Request) (s : Store) : Reports true s (q.run s).events (q.next s) := by
  have hentries {α : Type} (f : Entries Value → α) :
      s.Asks (do return f (← s.entries)) := .bind (.entries s) (.pure _)
  have hread {α β : Type} (r : Reading α) (key : String) {f : _ → Logged β}
      (hf : ∀ result, (f result).events = []) :
      Reports true s (s.read r key >>= f).events s := by
    rw [Logged.events_bind_of_quiet hf]
    exact Store.read_reports r key s
  cases q with
  | get key => exact asking_reports (Asks.get? key s).reports
  | put key v =>
    have hput := (Call.put key v).reports s fun _ => rfl
    rwa [Call.run, Logged.events_bind_of_quiet fun _ => rfl] at hput
  | remove key =>
    have hremove := (Call.remove key).reports s fun _ => rfl
    rwa [Call.run, Logged.events_bind_of_quiet fun _ => rfl] at hremove
  | contains key => exact asking_reports (Asks.contains key s).reports
  | clear =>
    rw [run, Logged.events_bind_of_quiet fun _ => rfl]
    exact Call.clear.reports s fun _ => rfl
  | keys => exact asking_reports (Asks.keys s).reports
  | values => exact asking_reports (Asks.values s).reports
  | size => exact asking_reports (Asks.size s).reports
  | isEmpty => exact asking_reports (Asks.bind (Asks.size s) (.pure _)).reports
  | putAll new =>
    rw [run, Logged.events_bind_of_quiet fun _ => rfl]
    exact Store.putAll_reports new s
  | entries => exact asking_reports (Asks.entries s).reports
  | propertyMap => exact asking_reports (hentries _).reports
  | flatMap => exact asking_reports (hentries _).reports
  | validateEntries validator => exact asking_reports (hentries _).reports
  | read getter key => exact asking_reports (Store.read_reports getter.reading key s)
  | readOr getter key default =>
    refine asking_reports (hread getter.reading key fun result => ?_)
    rcases result with (_ | _) | _ <;> rfl
  | canRead getter key => exact asking_reports (hread getter.reading key fun _ => rfl)
  | readObject type key => exact asking_reports (Asks.readObject type key s).reports
  | containsObject type key =>
    exact asking_reports (Asks.bind (Asks.readObject type key s) (.pure _)).reports
  | load m entry => exact Store.readFrom_reports m entry s

/-- Several requests report what they do to a store. -/
theorem logs_reports (requests : List Request) (s : Store) :
    Reports true s (logs requests s).flatten (after requests s) := by
  induction requests generalizing s with
  | nil => exact .none
  | cons q rest ih => exact .append (q.run_reports s) (ih (q.next s))

/-- The log of each request is in order. -/
theorem logs_bracketed (requests : List Request) (s : Store) :
    ∀ log ∈ logs requests s, Bracketed log := by
  induction requests generalizing s with
  | nil => exact List.forall_mem_nil _
  | cons q rest ih =>
    exact List.forall_mem_cons.mpr ⟨(q.run_reports s).bracketed, ih (q.next s)⟩

end Request

/-- Whatever is asked of a store, what is reported of each request is well nested, also of a load
that fails, and what an observed store wraps changes inside reported changes only. What an observed
store wraps is therefore what the puts, removals and clearings that are reported make of it. In a
load each observer, on each level, reports one put for each executed assignment that stores a value,
in the order of execution, and one for the file if that is noted; a store that is no observed one
hands no put of a load on to an observer. -/
theorem Store.reports_wellNested :
    (∀ (requests : List Request) (s : Store), (∀ log ∈ Request.logs requests s, Bracketed log) ∧
      Reports true s (Request.logs requests s).flatten (Request.after requests s)) ∧
    (∀ (requests : List Request) (inner : Store), Request.after requests (observed inner) =
      observed ((Event.reportedAt 0 0 (Request.logs requests (observed inner)).flatten).foldl
        Operation.next inner)) ∧
    (∀ (m : Machine) (entry : Entry) (s : Store),
      let engine := Construct.Engine.standard m.libraries
      ∃ last, entry.Leaves (s.readFrom m entry).result last ∧
      ∀ level, (Event.reportedAt level 0 (s.readFrom m entry).events).filterMap Operation.put? =
        if level < s.observers then Syntax.storedBy engine (entry.executed engine m s) ++ last
        else []) := by
  refine ⟨fun requests s => ⟨Request.logs_bracketed requests s, Request.logs_reports requests s⟩,
    fun requests inner => (Request.logs_reports requests (observed inner)).replay,
    fun m entry s => ?_⟩
  intro engine
  obtain ⟨calls, last, -, hevents, hlast, hputs⟩ := s.load_calls engine m entry
  refine ⟨last, ?_, fun level => ?_⟩
  · rwa [(s.readFrom_eq m entry).1]
  · rw [reportedAt_readFrom, hevents, Call.reportedAt_runAll, hputs]

end TypedConfig
