import TypedConfig.Proofs.Simulation
import TypedConfig.Proofs.StoreInvariants
import TypedConfig.Proofs.TypedReads

/-!
# Observation and answers

An observed store answers as the store that it wraps, and does to it what is asked, with one
exception. A scope makes a typed read of its own map and, if the value there is of another sort, of
the store below. The observer asks the scope for the value under the key instead, and stops at a
value of another sort. So the two answers differ exactly where a typed read passes over such a value
and finds what it asks for further out.
-/

namespace TypedConfig

namespace Store

variable {s : Store}

/-- An observed store finds what the store inside does. -/
theorem get?_observed (key : String) : ((observed s).get? key).result = (s.get? key).result := rfl

/-- An observed store has the values of the store inside. -/
theorem values_observed : (observed s).values.result = s.values.result :=
  valuesOf_congr get?_observed _

/-- An observed store has the entries of the store inside. -/
theorem entries_observed : (observed s).entries.result = s.entries.result :=
  entriesOf_congr get?_observed _

/-- Several puts through an observer are made in the store that it wraps. -/
theorem putEach_observed (new : List (String × Value)) :
    ((observed s).putEach new).result = .observed (s.putEach new).result := by
  induction new generalizing s with
  | nil => rfl
  | cons entry new ih => exact ih

/-- A load does not tell an observed store from the one that it wraps. -/
theorem Simulation.observed : Simulation fun s t => s = .observed t where
  get h key := by rw [h, get?_observed]
  contains h key := by
    rw [h]
    rfl
  entries h := by
    rw [h]
    exact entries_observed
  put h key v := by
    rw [h]
    rfl

/-- A load into an observed store is one into the store inside. -/
theorem readFrom_observed (m : Machine) (entry : Entry) (s : Store) :
    ((observed s).readFrom m entry).result = (s.readFrom m entry).result ∧
      ((observed s).readFrom m entry).machine = (s.readFrom m entry).machine ∧
      ((observed s).readFrom m entry).store = .observed (s.readFrom m entry).store := by
  obtain ⟨hresult, hmachine, hstore⟩ := s.readFrom_eq m entry
  obtain ⟨hresult', hmachine', hstore'⟩ := (observed s).readFrom_eq m entry
  obtain ⟨hsame, hmachines, hstores⟩ :=
    Simulation.observed.load (.standard m.libraries) m entry (rfl : observed s = .observed s)
  rw [hresult, hmachine, hstore, hresult', hmachine', hstore']
  exact ⟨hsame, hmachines, hstores⟩

/-- A typed read passes over a value that is not of its sort, and finds one further out. -/
def PassesMisfit {α : Type} (r : Reading α) (key : String) (s : Store) : Prop :=
  ∃ v x, (s.get? key).result = some v ∧ r.take v = none ∧ (s.read r key).result = .ok x

/-- A typed read is made of the value under the key, unless it passes over it. -/
theorem read_eq_or_passesMisfit {α : Type} (r : Reading α) (key : String) (s : Store) :
    (s.read r key).result = r.ofFound key (s.get? key).result ∨ s.PassesMisfit r key := by
  induction s with
  | map entries => exact .inl rfl
  | observed inner => exact .inl rfl
  | locked inner => exact .inl rfl
  | scope own outer ih =>
    rw [PassesMisfit, get?_scope]
    cases hown : Entries.get? key own with
    | none =>
      rw [read_scope_of_none hown, Option.none_or]
      exact ih
    | some v =>
      rw [Option.some_or]
      cases hfit : r.take v with
      | some x =>
        rw [read_scope_of_fit hown hfit]
        simp [Reading.ofFound, hfit]
      | none =>
        rw [read_scope_of_misfit hown hfit]
        cases (outer.read r key).result with
        | error further => simp [Reading.ofFound, Reading.past, hfit]
        | ok x => exact .inr ⟨v, x, rfl, hfit, rfl⟩

/-- A store that is itself a scope, whatever else is further in. -/
def isScope : Store → Bool
  | scope .. => true
  | _ => false

/-- Only a scope has something further out to be found. -/
theorem not_passesMisfit_of_isScope {α : Type} (r : Reading α) (key : String)
    (h : s.isScope = false) : ¬ s.PassesMisfit r key := by
  rintro ⟨v, x, hv, hfit, hread⟩
  have hfound : (s.read r key).result = r.ofFound key (s.get? key).result := by
    cases s with
    | scope => cases h
    | _ => rfl
  rw [hfound, hv] at hread
  simp only [Reading.ofFound, hfit] at hread
  cases hread

/-- Where a read passes over a misfit, it succeeds though the value under the key does not fit. -/
theorem PassesMisfit.differ {α : Type} {r : Reading α} {key : String} (h : s.PassesMisfit r key) :
    ∃ (v : Value) (x : α),
      ((observed s).read r key).result = .error (.wrongType key r.expected v.kind) ∧
      (s.read r key).result = .ok x := by
  obtain ⟨v, x, hv, hfit, hread⟩ := h
  refine ⟨v, x, ?_, hread⟩
  change r.ofFound key (s.get? key).result = _
  rw [hv]
  simp only [Reading.ofFound, hfit]

/-- Whatever is made of a read tells an observed store from the one inside only where the read
passes over a misfit; and there it does, if it tells a wrong type from a success. -/
theorem read_observed_iff {α β : Type} {r : Reading α} {key : String}
    {f : Except PropertyError α → β} (hf : ∀ expected found x,
      f (.error (.wrongType key expected found)) ≠ f (.ok x)) :
    f ((observed s).read r key).result = f (s.read r key).result ↔ ¬ s.PassesMisfit r key := by
  constructor
  · intro hsame hmisfit
    obtain ⟨v, x, hobserved, hread⟩ := hmisfit.differ
    rw [hobserved, hread] at hsame
    exact hf _ _ _ hsame
  · intro hmisfit
    exact congrArg f ((s.read_eq_or_passesMisfit r key).resolve_right hmisfit).symm

end Store

namespace Request

/-- A request is a typed read that passes over a value of another sort. -/
def PassesMisfit : Request → Store → Prop
  | read g key, s => s.PassesMisfit g.reading key
  | readOr g key _, s => s.PassesMisfit g.reading key
  | canRead g key, s => s.PassesMisfit g.reading key
  | _, _ => False

variable {s : Store}

/-- What a request does to an observed store it does to the store inside. -/
theorem next_observed (q : Request) (s : Store) : q.next (.observed s) = .observed (q.next s) := by
  cases q with
  | putAll new =>
    change (Store.putAll new (.observed s)).result = .observed (Store.putAll new s).result
    rw [Store.putAll_result, Store.putAll_result, Store.putEach_observed]
  | load m entry => exact (Store.readFrom_observed m entry s).2.2
  | _ => rfl

/-- An observed store answers a request as the store inside, unless the request passes over a
misfit. -/
theorem answer_observed_iff (q : Request) (s : Store) :
    q.answer (.observed s) = q.answer s ↔ ¬ q.PassesMisfit s := by
  have hsize : (Store.size (.observed s)).result = s.size.result :=
    (Store.observed s).size_eq.trans s.size_eq.symm
  cases q with
  | values => exact iff_of_true (Store.values_observed) id
  | size => exact iff_of_true hsize id
  | isEmpty => exact iff_of_true (congrArg (· == 0) hsize) id
  | entries => exact iff_of_true Store.entries_observed id
  | propertyMap => exact iff_of_true (congrArg Content.map Store.entries_observed) id
  | flatMap =>
    refine iff_of_true (congrArg (List.map _) Store.entries_observed) id
  | validateEntries validator =>
    refine iff_of_true (congrArg (List.filterMap _) Store.entries_observed) id
  | read g key => exact Store.read_observed_iff (f := id) nofun
  | readOr g key default =>
    change (Store.readOr g.reading key default (.observed s)).result =
      (Store.readOr g.reading key default s).result ↔ _
    rw [Store.readOr_result, Store.readOr_result]
    refine Store.read_observed_iff (f := Reading.orDefault default) fun _ _ _ h => ?_
    cases h
  | canRead g key =>
    exact Store.read_observed_iff (f := fun result => result.toOption.isSome) nofun
  | load m entry =>
    obtain ⟨hresult, hmachine, _⟩ := Store.readFrom_observed m entry s
    exact iff_of_true (Prod.ext hresult hmachine) id
  | _ => exact iff_of_true rfl id

/-- None of several requests passes over a misfit when its turn comes. -/
def PassNoMisfit : List Request → Store → Prop
  | [], _ => True
  | q :: rest, s => ¬ q.PassesMisfit s ∧ PassNoMisfit rest (q.next s)

/-- Requests to an observed store lead the store inside where they lead it directly. -/
theorem after_observed (requests : List Request) (s : Store) :
    after requests (.observed s) = .observed (after requests s) := by
  induction requests generalizing s with
  | nil => rfl
  | cons q rest ih => rw [after, after, next_observed, ih]

/-- An observed store answers as the store inside if no read passes over a misfit. -/
theorem answers_observed_iff (requests : List Request) (s : Store) :
    answers requests (.observed s) = answers requests s ↔ PassNoMisfit requests s := by
  induction requests generalizing s with
  | nil => exact iff_of_true rfl trivial
  | cons q rest ih =>
    rw [answers, answers, List.cons.injEq, Sigma.mk.injEq, heq_eq_eq, next_observed, ih,
      answer_observed_iff, PassNoMisfit]
    exact and_congr_left' (and_iff_right rfl)

/-- No request makes a scope of another store. -/
theorem next_isScope (q : Request) (s : Store) (h : s.isScope = false) :
    (q.next s).isScope = false := by
  refine next_keeps (P := fun t => t.isScope = false) ?_ ?_ ?_ q h
  · intro key v t ht
    cases t with
    | scope => cases ht
    | _ => rfl
  · intro key t ht
    cases t with
    | scope => cases ht
    | _ => rfl
  · intro t ht
    cases t with
    | scope => cases ht
    | _ => rfl

/-- Requests to a store that is no scope pass over no misfit. -/
theorem passNoMisfit_of_isScope (requests : List Request) (h : s.isScope = false) :
    PassNoMisfit requests s := by
  induction requests generalizing s with
  | nil => trivial
  | cons q rest ih =>
    refine ⟨?_, ih (q.next_isScope s h)⟩
    cases q with
    | read g key => exact Store.not_passesMisfit_of_isScope g.reading key h
    | readOr g key default => exact Store.not_passesMisfit_of_isScope g.reading key h
    | canRead g key => exact Store.not_passesMisfit_of_isScope g.reading key h
    | _ => exact id

end Request

/-- Any requests leave an observed store with what they leave the store inside with. They are
answered alike exactly if no typed read among them passes over a value of another sort when its
turn comes; in particular if the store inside is no scope. -/
theorem Store.observed_answers (requests : List Request) (inner : Store) :
    Request.after requests (.observed inner) = .observed (Request.after requests inner) ∧
      (Request.answers requests (.observed inner) = Request.answers requests inner ↔
        Request.PassNoMisfit requests inner) ∧
      (inner.isScope = false → Request.PassNoMisfit requests inner) ∧
      ∀ q : Request, q.answer (Request.after requests (.observed inner)) =
        q.answer (Request.after requests inner) ↔ ¬ q.PassesMisfit (Request.after requests inner) := by
  refine ⟨Request.after_observed requests inner, Request.answers_observed_iff requests inner,
    Request.passNoMisfit_of_isScope requests, fun q => ?_⟩
  rw [Request.after_observed]
  exact q.answer_observed_iff _

/-- A sequence on an observed scope that passes over nothing, with a load at its end. -/
theorem Store.observed_scope_answers :
    let inner := scope [("x", .int 7)] (map [("y", .string "a")])
    let m := Machine.start ⟨.directory [], []⟩ []
    let requests : List Request := [.read .long "x", .put "x" (.string "b"), .canRead .string "y",
      .readOr .bool "z" true, .load m (.text "x = y; z = x ^ w;")]
    Request.PassNoMisfit requests inner ∧
      Request.answers requests (.observed inner) = Request.answers requests inner := by
  intro inner m requests
  have hpass : Request.PassNoMisfit requests inner := by
    refine ⟨?_, id, ?_, ?_, id, trivial⟩
    · rintro ⟨v, x, hv, hfit, _⟩
      cases hv
      cases hfit
    · rintro ⟨v, x, hv, hfit, _⟩
      cases hv
      cases hfit
    · rintro ⟨v, x, hv, _⟩
      cases hv
  exact ⟨hpass, (Store.observed_answers requests inner).2.1.mpr hpass⟩

/-- A scope finds a number below a text, and an observed scope does not. -/
theorem Store.observed_scope_misreads :
    let outer := (empty.put "x" (.int 7)).result.2
    let s := (outer.scopeOver.put "x" (.string "seven")).result.2
    Request.answer (.read .int "x") s = .ok (7 : Int32) ∧
      Request.answer (.read .int "x") (.observed s) = .error (.wrongType "x" "int" .string) ∧
      Request.answers [.read .int "x"] (.observed s) ≠ Request.answers [.read .int "x"] s := by
  intro outer s
  refine ⟨rfl, rfl, fun hsame => ?_⟩
  cases hsame

end TypedConfig
