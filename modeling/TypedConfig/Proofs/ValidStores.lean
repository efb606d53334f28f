import TypedConfig.Command.Basic
import TypedConfig.Proofs.Flattening
import TypedConfig.Proofs.HomogeneousStores

/-!
# Valid stores

A value is valid if it breaks no constraint, itself or in an element. Where the validator of an
engine checks constraints, only valid values enter a store by a load. What is constructed has been
checked, and what is read, joined or coerced is made of values that were valid before. What the
steps of a type make therefore does not matter here, and neither does the registry.

The entries of a loaded file hence have nothing to report, and a check of the file finds what
reading and loading it find.
-/

namespace TypedConfig

namespace Value

/-- Values violate nothing if none of them does. -/
theorem violationsOfAll_eq_nil_iff (vs : List Value) :
    violationsOfAll vs = [] ↔ ∀ v ∈ vs, v.violations = [] := by
  induction vs with
  | nil => simp [violationsOfAll]
  | cons v vs ih => simp [violationsOfAll, ih]

/-- An array is as valid as its items. -/
theorem violations_array (element : Kind) (items : List Value) :
    (array element items).violations = [] ↔ ∀ v ∈ items, v.violations = [] := by
  rw [violations, violationsOfAll_eq_nil_iff]

/-- Two arrays are appended item by item, whatever they declare. -/
theorem appendArrays_items {k l element : Kind} {xs ys items : List Value}
    (h : appendArrays k xs l ys = some (element, items)) : items = xs ++ ys := by
  unfold appendArrays at h
  split at h
  · cases h
    rfl
  · split at h
    · cases h
      rfl
    · cases h

end Value

/-- Coercion keeps values valid. -/
theorem Kind.coerce_violations {kind : Kind} {v w : Value} (hv : v.violations = [])
    (h : kind.coerce v = some w) : w.violations = [] := by
  refine coerce_keeps (P := (·.violations = [])) (fun _ => rfl) (fun _ => rfl) ?_ ?_ hv h
  · intro given items hv
    exact (Value.violations_array given items).mp hv
  · intro want items hitems
    exact (Value.violations_array want items).mpr fun w hw => (hitems w hw).2

namespace Construct

/-- The validator of constraints passes exactly the valid values. -/
theorem Validator.constraints_eq_none_iff (v : Value) :
    Validator.constraints v = none ↔ v.violations = [] := by
  unfold constraints
  rw [← List.isEmpty_iff]
  cases v.violations.isEmpty <;> simp

/-- What an engine builds has passed its validator. -/
theorem Engine.build_validated (engine : Engine) (type : String) (arguments : List Value)
    (named : List (String × Value)) :
    Yields (fun v => engine.validator v = none) (engine.build type arguments named) := by
  unfold build
  cases engine.construct type arguments with
  | error e => exact .throw e
  | ok i =>
    dsimp only
    cases i.inject named with
    | error e => exact .throw e
    | ok i =>
      dsimp only
      unfold Instance.finalize
      cases i.blueprint.init i.state with
      | error fault => exact .throw _
      | ok state =>
        refine .after fun v => ?_
        cases hv : engine.validator v with
        | none => exact .pure hv
        | some e => exact .throw _

end Construct

namespace Store

variable {s : Store} {v : Value}

/-- The entries of a store are what it has under the other keys than the one for itself. -/
theorem mem_entries {key : String} :
    (key, v) ∈ s.entries.result ↔ key ≠ selfKey ∧ (s.get? key).result = some v := by
  change (key, v) ∈ (s.entriesOf (s.keys.result.filter (· != selfKey))).result ↔ _
  rw [mem_entriesOf, List.mem_filter, mem_keys, bne_iff_ne]
  constructor
  · exact fun ⟨⟨_, hkey⟩, hv⟩ => ⟨hkey, hv⟩
  · exact fun ⟨hkey, hv⟩ => ⟨⟨by rw [hv]; rfl, hkey⟩, hv⟩

/-- Each entry of a store breaks no constraint. -/
def IsValid (s : Store) : Prop := ∀ entry ∈ s.entries.result, entry.2.violations = []

/-- A store is valid if nothing that is found under another key than the reserved one breaks a
constraint. -/
theorem isValid_iff_get? :
    s.IsValid ↔ ∀ key v, key ≠ selfKey → (s.get? key).result = some v → v.violations = [] := by
  constructor
  · exact fun h key v hkey hv => h (key, v) (mem_entries.mpr ⟨hkey, hv⟩)
  · rintro h ⟨key, v⟩ hentry
    obtain ⟨hkey, hv⟩ := mem_entries.mp hentry
    exact h key v hkey hv

/-- Validation finds nothing exactly if each entry passes. -/
theorem validateEntries_eq_nil_iff (validator : Construct.Validator) :
    (s.validateEntries validator).result = [] ↔
      ∀ entry ∈ s.entries.result, validator entry.2 = none := by
  change s.entries.result.filterMap (fun entry => validator entry.2) = [] ↔ _
  exact List.filterMap_eq_nil_iff

/-- A store is valid if the validator finds nothing wrong with its entries. -/
theorem isValid_iff_constraints :
    s.IsValid ↔ ∀ entry ∈ s.entries.result, Construct.Validator.constraints entry.2 = none := by
  simp only [Construct.Validator.constraints_eq_none_iff]
  rfl

/-- A new store is valid. -/
theorem empty_isValid : empty.IsValid := isValid_iff_get?.mpr fun _ _ _ hv => by
  rw [eq_storeMarker_of_fresh hv]
  rfl

/-- A put of a valid value keeps a store valid. -/
theorem IsValid.put (h : s.IsValid) (key : String) (hv : v.violations = []) :
    (s.put key v).result.2.IsValid := by
  rw [isValid_iff_get?] at h ⊢
  intro other w hother hw
  rw [get?_put] at hw
  split at hw
  · cases hw
    exact hv
  · exact h other w hother hw

end Store

namespace Syntax

/-- Valid values joined are valid. -/
theorem joinValues_violations {v w joined : Value} (hv : v.violations = [])
    (hw : w.violations = []) (h : joinValues v w = .ok joined) : joined.violations = [] := by
  unfold joinValues at h
  split at h
  · cases h
    rfl
  · split at h
    next happend =>
      cases h
      rw [Value.violations_array] at hv hw ⊢
      rw [Value.appendArrays_items happend]
      exact fun item hitem => (List.mem_append.mp hitem).elim (hv item) (hw item)
    next => cases h
  · cases h

/-- An array of valid items is valid. -/
theorem arrayOf_violations {declared : Option Kind} {items : List Value}
    {places : List Source.Span} {span : Source.Span} {v : Value}
    (hitems : ∀ v ∈ items, v.violations = []) (h : arrayOf declared items places span = .ok v) :
    v.violations = [] := by
  obtain ⟨element, fitted, rfl, hfitted⟩ := arrayOf_eq_ok h
  rw [Value.violations_array]
  intro w hw
  obtain ⟨v, hv, hcoerce⟩ := hfitted w hw
  exact Kind.coerce_violations (hitems v hv) hcoerce

/-- What is looked up in a valid store is valid. -/
theorem lookUp_isValid {store : Store} (hstore : store.IsValid) (name : String)
    (span : Source.Span) : Yields (·.violations = []) (lookUp store name span) := by
  unfold lookUp
  split
  · -- The map for the store itself has no constraints, whatever its entries are.
    refine .after fun entries => Evaluation.ofBuild_yields (fun m v m' hv => ?_) span
    cases hv
    rfl
  next hname =>
    refine .bind (fun found => ∀ v, found = some v → v.violations = [])
      (Evaluation.ofLogged_yields fun v => Store.isValid_iff_get?.mp hstore name v hname)
      fun found hfound => ?_
    cases found with
    | none => exact .throw _
    | some v => exact .pure (hfound v rfl)

section Evaluation

variable {registry : Construct.Registry} {store : Store}

mutual

/-- An expression is evaluated to a valid value. What is constructed on the way to it may be handed
to other constructions only, and those are validated again. -/
theorem Expr.evaluate_isValid (hstore : store.IsValid) :
    (e : Expr) → Yields (·.violations = []) (e.evaluate ⟨registry, .constraints⟩ store)
  | .literal value _ => by
    unfold Expr.evaluate
    exact .pure (by cases value <;> rfl)
  | .variable name span => by
    unfold Expr.evaluate
    exact lookUp_isValid hstore name span
  | .concat left right span => by
    unfold Expr.evaluate
    refine .bind _ (left.evaluate_isValid hstore) fun v hv => ?_
    refine .bind _ (right.evaluate_isValid hstore) fun w hw => ?_
    cases hjoined : joinValues v w with
    | error fault => exact .throw _
    | ok joined => exact .pure (joinValues_violations hv hw hjoined)
  | .array tag items span => by
    unfold Expr.evaluate
    refine .after fun declared => ?_
    refine .bind _ (Expr.evaluateAll_isValid hstore items) fun values hvalues t v t' h => ?_
    rw [Evaluation.outcome_liftM] at h
    exact arrayOf_violations hvalues (Prod.mk.inj h).1
  | .construct type arguments named span => by
    unfold Expr.evaluate
    refine .after fun values => .after fun namedValues => ?_
    refine Evaluation.ofBuild_yields (fun m v m' hv => ?_) span
    have hvalidated := Construct.Engine.build_validated _ _ _ _ m v m' hv
    exact (Construct.Validator.constraints_eq_none_iff v).mp hvalidated

/-- Expressions evaluate to valid values in a valid store. -/
theorem Expr.evaluateAll_isValid (hstore : store.IsValid) :
    (es : List Expr) → Yields (fun vs => ∀ v ∈ vs, v.violations = [])
      (Expr.evaluateAll ⟨registry, .constraints⟩ store es)
  | [] => by
    unfold Expr.evaluateAll
    exact .pure nofun
  | e :: es => by
    unfold Expr.evaluateAll
    refine .bind _ (e.evaluate_isValid hstore) fun v hv => ?_
    refine .bind _ (Expr.evaluateAll_isValid hstore es) fun vs hvs => ?_
    exact .pure (List.forall_mem_cons.mpr ⟨hv, hvs⟩)

end

end Evaluation

end Syntax

namespace Store

variable {registry : Construct.Registry} {s : Store}

/-- A load keeps a store valid, whether or not it succeeds. -/
theorem IsValid.load (h : s.IsValid) (m : Machine) (entry : Entry) :
    (s.load ⟨registry, .constraints⟩ m entry).store.IsValid := by
  refine load_keeps m entry s ?_ (fun file t id _ _ ht => ht.put Load.locationKey rfl) h
  intro opened hopened depth statement l hexecutes hstatement hl
  obtain hsame | ⟨e, t, key, v, t', _, _, hvalue, _, hput⟩ :=
    Syntax.Statement.run_store hstatement ⟨registry, .constraints⟩ (Load.source _ 0) l
  · rw [hsame]
    exact hl
  · rw [hput]
    exact hl.put key (e.evaluate_isValid hl t v t' hvalue)

/-- Loads keep a store valid. -/
theorem IsValid.loadAll (h : s.IsValid) (loads : List (Machine × Entry)) :
    (s.loadAll ⟨registry, .constraints⟩ loads).IsValid := by
  induction loads generalizing s with
  | nil => exact h
  | cons load rest ih => exact ih (h.load load.1 load.2)

end Store

/-- A check reads its file and loads it. It finds no further problems among the entries. -/
theorem Command.check_eq (file : String) (m : Machine) :
    Command.check file m =
      match m.tree.text file with
      | .error e => ⟨.error (.unreadable file e), m, []⟩
      | .ok _ =>
        let loaded := Store.empty.readFrom m (.path file)
        match loaded.result with
        | .error e =>
          ⟨.error (.problems file 1), loaded.machine, [Report.ofLoadError file e]⟩
        | .ok _ => ⟨.ok (), loaded.machine, []⟩ := by
  unfold check
  cases m.tree.text file with
  | error e => rfl
  | ok text =>
    dsimp only
    cases (Store.empty.readFrom m (.path file)).result with
    | error e => rfl
    | ok done =>
      have hvalid : (Store.empty.readFrom m (.path file)).store.IsValid :=
        Store.empty_isValid.load m (.path file)
      rw [(Store.validateEntries_eq_nil_iff _).mpr (Store.isValid_iff_constraints.mp hvalid)]
      rfl

namespace Store

/-- Where constraints are checked, loads of any sources keep the entries of a store valid, whether
or not they succeed, and validation has nothing to report. A check therefore succeeds exactly if its
file can be read and loaded. Otherwise it reports that the file cannot be read, or the one problem
with which the load ends. -/
theorem loadAll_isValid :
    (∀ (registry : Construct.Registry) (loads : List (Machine × Entry)) (s : Store),
      (∀ entry ∈ s.entries.result, Construct.Validator.constraints entry.2 = none) →
      let loaded := s.loadAll ⟨registry, .constraints⟩ loads
      (∀ entry ∈ loaded.entries.result, Construct.Validator.constraints entry.2 = none) ∧
        (loaded.validateEntries .constraints).result = []) ∧
    ∀ (file : String) (m : Machine),
      let loaded := empty.readFrom m (.path file)
      let finished := Command.check file m
      (finished.result = .ok () ↔
        (∃ text, m.tree.text file = .ok text) ∧ loaded.result = .ok ()) ∧
      (finished.result = .ok () → finished.reports = []) ∧
      (∀ e, m.tree.text file = .error e → finished = ⟨.error (.unreadable file e), m, []⟩) ∧
      ∀ text e, m.tree.text file = .ok text → loaded.result = .error e →
        finished = ⟨.error (.problems file 1), loaded.machine, [.ofLoadError file e]⟩ := by
  constructor
  · intro registry loads s hs loaded
    have hloaded : loaded.IsValid := (isValid_iff_constraints.mpr hs).loadAll loads
    rw [validateEntries_eq_nil_iff, and_self]
    exact isValid_iff_constraints.mp hloaded
  · intro file m loaded finished
    have hcheck : finished = _ := Command.check_eq file m
    cases htext : m.tree.text file with
    | error e =>
      have hfinished : finished = ⟨.error (.unreadable file e), m, []⟩ := by
        rw [hcheck, htext]
      simp [hfinished]
    | ok text =>
      cases hresult : loaded.result with
      | error e =>
        have hfinished : finished =
            ⟨.error (.problems file 1), loaded.machine, [.ofLoadError file e]⟩ := by
          rw [hcheck, htext]
          change (match loaded.result with | .error e => _ | .ok _ => _) = _
          rw [hresult]
        simp [hfinished]
      | ok done =>
        have hfinished : finished = ⟨.ok (), loaded.machine, []⟩ := by
          rw [hcheck, htext]
          change (match loaded.result with | .error e => _ | .ok _ => _) = _
          rw [hresult]
        simp [hfinished]

/-- A command of a blank line is refused. What the load has put before stays, and is valid. -/
theorem load_blank_command_isValid :
    let registry := Construct.Registry.ofList [Construct.Builtin.shellExecutor] []
    let text := "b = a ^ a; c = omni.run.ShellExecutor(\" \"); d = 1;"
    let m := Machine.start ⟨.directory [("f", .file "c = x;".toUTF8)], []⟩ []
    let s := (empty.put "a" (.array .any [.object ⟨"a", 0⟩ (.shell ⟨"ls", [], none⟩)])).result.2
    let loaded := s.loadAll ⟨registry, .constraints⟩ [(m, .text text)]
    (∀ entry ∈ s.entries.result, Construct.Validator.constraints entry.2 = none) ∧
      (loaded.contains "b").result = true ∧ (loaded.contains "c").result = false ∧
      (∀ entry ∈ loaded.entries.result, Construct.Validator.constraints entry.2 = none) ∧
      ∃ e, (empty.readFrom m (.path "f")).result = .error e ∧
        (Command.check "f" m).reports = [.ofLoadError "f" e] := by
  intro registry text m s loaded
  obtain ⟨hloads, hcheck⟩ := loadAll_isValid
  have hs : ∀ entry ∈ s.entries.result, Construct.Validator.constraints entry.2 = none := by
    decide +kernel
  refine ⟨hs, by decide +kernel, by decide +kernel, (hloads _ _ s hs).1, ?_⟩
  have hfails : (empty.readFrom m (.path "f")).result.isOk = false := by decide +kernel
  have htext : (m.tree.text "f").isOk = true := by decide +kernel
  cases hresult : (empty.readFrom m (.path "f")).result with
  | ok done =>
    rw [hresult] at hfails
    cases hfails
  | error e =>
    cases hread : m.tree.text "f" with
    | error cause =>
      rw [hread] at htext
      cases htext
    | ok content =>
      obtain ⟨_, _, _, hproblem⟩ := hcheck "f" m
      refine ⟨e, rfl, ?_⟩
      rw [hproblem content e hread hresult]

end Store

end TypedConfig
