import TypedConfig.Proofs.ParallelRuns
import TypedConfig.Proofs.StoreViews

/-!
# The stores of items

A run for several items takes the named arguments that one of its settings accepts. Every other one
is an extra entry for each item, also under the name of a setting and under the key for the item.
The load for an item starts from a store into which the item is put first, and then the extra
entries. So a load finds the item it is for, unless the last extra entry under the key for the item
is another value.
-/

namespace TypedConfig

namespace Construct.Builtin

/-- Whether a named argument of a run for several items is accepted by a setting. -/
def isSetting (entry : String × Value) : Bool :=
  ((Blueprint.slotKind? parallelRunnable.setters entry.1).bind (·.coerce entry.2)).isSome

/-- The named arguments that no setting accepts. -/
def extrasOf (named : List (String × Value)) : List (String × Value) :=
  named.filter fun entry => !isSetting entry

/-- The value that was given last for a setting and accepted by it. -/
def settingOf? (key : String) (named : List (String × Value)) : Option Value :=
  Entries.get? key (named.filter isSetting).reverse

/-- The value that was given last under a key among those that no setting accepts. -/
def extraOf? (key : String) (named : List (String × Value)) : Option Value :=
  Entries.get? key (extrasOf named).reverse

/-- The items of an array. -/
def items? : Value → Option (List Value)
  | .array _ items => some items
  | _ => none

/-- A run for several items is set by the last value of each setting, and everything else that was
given is among its extra entries, in the same order. -/
structure ParallelRun.Reflects (run : ParallelRun) (named : List (String × Value)) : Prop where
  config : run.config = (settingOf? "runOprops" named).bind filePath?
  items : run.items = (settingOf? "items" named).bind items?
  itemName : run.itemName = (settingOf? "itemName" named).bind Value.string?
  extras : run.extras = extrasOf named

variable {key name : String} {v w : Value} {named : List (String × Value)} {run run' : ParallelRun}

/-- A setting that comes last counts. -/
theorem settingOf?_append_setting (h : isSetting (name, v) = true) :
    settingOf? key (named ++ [(name, v)]) =
      if name = key then some v else settingOf? key named := by
  rw [settingOf?, List.filter_append, List.filter_singleton, h]
  simp [Entries.get?_cons, settingOf?]

/-- An extra entry is no setting. -/
theorem settingOf?_append_extra (h : isSetting (name, v) = false) :
    settingOf? key (named ++ [(name, v)]) = settingOf? key named := by
  rw [settingOf?, List.filter_append, List.filter_singleton, h]
  simp [settingOf?]

/-- A setting is no extra entry. -/
theorem extrasOf_append_setting (h : isSetting (name, v) = true) :
    extrasOf (named ++ [(name, v)]) = extrasOf named := by
  rw [extrasOf, List.filter_append, List.filter_singleton, h]
  simp [extrasOf]

/-- An extra entry comes behind the others. -/
theorem extrasOf_append_extra (h : isSetting (name, v) = false) :
    extrasOf (named ++ [(name, v)]) = extrasOf named ++ [(name, v)] := by
  rw [extrasOf, List.filter_append, List.filter_singleton, h]
  rfl

/-- The settings take values as they are. -/
theorem coerce_setting {slot : Slot} (hslot : slot ∈ parallelRunnable.setters)
    (h : slot.kind.coerce v = some w) : w = v := by
  simp only [parallelRunnable, List.mem_cons, List.not_mem_nil, or_false] at hslot
  obtain ⟨rfl, -⟩ | ⟨_, hkind, _⟩ | ⟨_, hkind, _⟩ | ⟨want, given, items, _, hkind, rfl, _⟩ :=
    Kind.coerce_cases h
  · rfl
  all_goals
    rcases hslot with rfl | rfl | rfl | rfl <;> cases hkind
  -- An array of any elements keeps the kind of its elements.
  unfold Kind.coerce at h
  split at h
  · cases h
  · rw [if_pos (.inl rfl)] at h
    cases h
    rfl

/-- A named argument that a setting accepts is one of the four, and it goes there. -/
theorem route_setting (h : isSetting (name, v) = true) :
    name ∈ ["runOprops", "items", "itemName", "parallelity"] ∧
      route parallelRunnable name v = .ok (.setter name, v) := by
  obtain ⟨w, hw⟩ := Option.isSome_iff_exists.mp h
  obtain ⟨kind, hkind, hcoerce⟩ := Option.bind_eq_some_iff.mp hw
  obtain ⟨slot, hslot, rfl⟩ := Option.map_eq_some_iff.mp hkind
  have hmem := List.mem_of_find?_eq_some hslot
  have hname : slot.name = name := by simpa using List.find?_some hslot
  have hsame : w = v := coerce_setting hmem hcoerce
  subst hsame
  refine ⟨?_, by unfold route; rw [hw]⟩
  rw [← hname]
  exact List.mem_map_of_mem (f := Slot.name) hmem

/-- A named argument that no setting accepts is put. -/
theorem route_extra (h : isSetting (name, v) = false) :
    route parallelRunnable name v = .ok (.put name, v) := by
  have hnone : (Blueprint.slotKind? parallelRunnable.setters name).bind (·.coerce v) = none :=
    Option.isSome_eq_false_iff.mp h |> Option.isNone_iff_eq_none.mp
  unfold route
  rw [hnone]
  rfl

/-- A run that is handed a setting reflects it. -/
theorem ParallelRun.Reflects.setting (hrun : run.Reflects named) (h : isSetting (name, v) = true)
    (hinject : run.inject (.setter name) v = .ok run') :
    run'.Reflects (named ++ [(name, v)]) := by
  have hname := (route_setting h).1
  simp only [List.mem_cons, List.not_mem_nil, or_false] at hname
  rcases hname with rfl | rfl | rfl | rfl
  · cases v with
    | object id content =>
      cases content <;> cases hinject
      constructor <;> simp [settingOf?_append_setting h, extrasOf_append_setting h, hrun.items,
        hrun.itemName, hrun.extras, filePath?]
    | _ => cases hinject
  · cases v <;> cases hinject
    constructor <;> simp [settingOf?_append_setting h, extrasOf_append_setting h, hrun.config,
      hrun.itemName, hrun.extras, items?]
  · cases v <;> cases hinject
    constructor <;> simp [settingOf?_append_setting h, extrasOf_append_setting h, hrun.config,
      hrun.items, hrun.extras, Value.string?]
  · cases v <;> cases hinject
    constructor <;> simp [settingOf?_append_setting h, extrasOf_append_setting h, hrun.config,
      hrun.items, hrun.itemName, hrun.extras]

/-- A run that is handed an extra entry reflects it. -/
theorem ParallelRun.Reflects.extra (hrun : run.Reflects named) (h : isSetting (name, v) = false) :
    ParallelRun.Reflects { run with extras := run.extras ++ [(name, v)] }
      (named ++ [(name, v)]) where
  config := by rw [settingOf?_append_extra h, hrun.config]
  items := by rw [settingOf?_append_extra h, hrun.items]
  itemName := by rw [settingOf?_append_extra h, hrun.itemName]
  extras := by rw [extrasOf_append_extra h, hrun.extras]

/-- One more named argument is reflected. -/
theorem ParallelRun.Reflects.injectOne (hrun : run.Reflects named) {i : Instance}
    (h : (⟨parallelRunnable, run⟩ : Instance).injectOne name v = .ok i) :
    ∃ run' : ParallelRun, i = ⟨parallelRunnable, run'⟩ ∧ run'.Reflects (named ++ [(name, v)]) := by
  unfold Instance.injectOne at h
  cases hsetting : isSetting (name, v) with
  | true =>
    rw [(route_setting hsetting).2] at h
    dsimp only at h
    cases hinject : parallelRunnable.inject (.setter name) v run with
    | error fault =>
      rw [hinject] at h
      cases h
    | ok run' =>
      rw [hinject] at h
      cases h
      exact ⟨run', rfl, hrun.setting hsetting hinject⟩
  | false =>
    rw [route_extra hsetting] at h
    cases h
    exact ⟨_, rfl, hrun.extra hsetting⟩

/-- All named arguments are reflected, in their order. -/
theorem ParallelRun.Reflects.inject (hrun : run.Reflects named) {rest : List (String × Value)}
    {i : Instance} (h : (⟨parallelRunnable, run⟩ : Instance).inject rest = .ok i) :
    ∃ run' : ParallelRun, i = ⟨parallelRunnable, run'⟩ ∧ run'.Reflects (named ++ rest) := by
  induction rest generalizing run named with
  | nil =>
    cases h
    exact ⟨run, rfl, by rwa [List.append_nil]⟩
  | cons entry rest ih =>
    obtain ⟨name, v⟩ := entry
    unfold Instance.inject at h
    cases hone : (⟨parallelRunnable, run⟩ : Instance).injectOne name v with
    | error e =>
      rw [hone] at h
      cases h
    | ok next =>
      rw [hone] at h
      obtain ⟨run', rfl, hrun'⟩ := hrun.injectOne hone
      obtain ⟨run'', hi, hrun''⟩ := ih hrun' h
      exact ⟨run'', hi, by rwa [List.append_assoc] at hrun''⟩

/-- A valid run for several items has all of its settings. -/
theorem exists_settings_of_valid {config itemName : Option String} {items : Option (List Value)}
    {workers : Int32} {extras : List (String × Value)}
    (h : (Content.parallel config items itemName workers extras).violations = []) :
    ∃ path items' name, config = some path ∧ items = some items' ∧ itemName = some name := by
  simp only [Content.violations, List.append_eq_nil_iff, ite_eq_right_iff, List.cons_ne_nil,
    imp_false, Bool.not_eq_true, Option.isNone_eq_false_iff, Option.isSome_iff_exists] at h
  obtain ⟨⟨⟨⟨⟨path, hconfig⟩, items', hitems⟩, name, hname⟩, -⟩, -⟩ := h
  exact ⟨path, items', name, hconfig, hitems, hname⟩

/-- A valid run for several items that is built has the settings that were given last, and the
extra entries. -/
theorem build_parallel {registry : Registry} {type : String} {arguments : List Value}
    {m m' : Machine} (hlookup : registry.lookup type = .ok parallelRunnable)
    (hbuild : outcome ((⟨registry, .constraints⟩ : Engine).build type arguments named) m =
      (.ok v, m')) :
    ∃ id path items name workers,
      v = .object id (.parallel (some path) (some items) (some name) workers (extrasOf named)) ∧
      (settingOf? "runOprops" named).bind filePath? = some path ∧
      (settingOf? "items" named).bind items? = some items ∧
      (settingOf? "itemName" named).bind Value.string? = some name := by
  obtain ⟨f, hf, values, state, rest, i, state', hcreate, hinject, hinit, hfinish, hvalid⟩ :=
    Engine.build_ok hlookup hbuild
  have hstate : state = ({} : ParallelRun) := by
    obtain rfl := List.mem_singleton.mp hf
    cases hcreate
    rfl
  subst hstate
  have hempty : ParallelRun.Reflects {} [] := ⟨rfl, rfl, rfl, rfl⟩
  obtain ⟨run, rfl, hrun⟩ := hempty.inject hinject
  cases hinit
  cases hfinish
  have hviolations : (Content.parallel run.config run.items run.itemName
      (run.workers.getD m.workers) run.extras).violations = [] :=
    (Validator.constraints_eq_none_iff _).mp hvalid
  obtain ⟨path, items, name, hpath, hitems, hname⟩ := exists_settings_of_valid hviolations
  refine ⟨m.issue.1, path, items, name, run.workers.getD m.workers, ?_,
    hrun.config.symm.trans hpath, hrun.items.symm.trans hitems, hrun.itemName.symm.trans hname⟩
  have hextras : run.extras = extrasOf named := hrun.extras
  rw [← hpath, ← hitems, ← hname, ← hextras]
  rfl

end Construct.Builtin

namespace Run

open Construct Construct.Builtin

/-- The store from which the load for an item starts has the last extra entry under each key; the
item is below those under its key. -/
theorem get?_itemStore (name : String) (extras : List (String × Value)) (item : Value)
    (key : String) : ((itemStore name extras item).get? key).result =
      (Entries.get? key extras.reverse).or
        (if key = name then some item else (Store.empty.get? key).result) := by
  rw [itemStore, Store.putAll_result, Store.get?_putEach, Store.get?_put]

/-- A valid run for several items that is built loads the configuration for each item from a store
with the extra entry that was given last for each key, and with the item unless there is an extra
entry under its key. So each load finds its own item exactly if the last such entry, if there is
one, is the same as every item. -/
theorem items_found_unless_hidden {registry : Registry} {type : String} {arguments : List Value}
    {named : List (String × Value)} {v : Value} {m m' : Machine}
    (hlookup : registry.lookup type = .ok parallelRunnable)
    (hbuild : outcome ((⟨registry, .constraints⟩ : Engine).build type arguments named) m =
      (.ok v, m')) :
    ∃ id path items name workers,
      v = .object id (.parallel (some path) (some items) (some name) workers (extrasOf named)) ∧
      (settingOf? "runOprops" named).bind filePath? = some path ∧
      (settingOf? "items" named).bind items? = some items ∧
      (settingOf? "itemName" named).bind Value.string? = some name ∧
      (∀ (i : Nat) (item : Value), items[i]? = some item →
        let start := itemStore name (extrasOf named) item
        (∀ between, (outcome (loadJob path name (extrasOf named) item) between).2 =
          (start.readFrom between (.path path)).machine) ∧
        (∀ key, key ≠ name →
          (start.get? key).result = (extraOf? key named).or (Store.empty.get? key).result) ∧
        (start.get? name).result = some ((extraOf? name named).getD item)) ∧
      ((∀ (i : Nat) (item : Value), items[i]? = some item →
          ((itemStore name (extrasOf named) item).get? name).result = some item) ↔
        ∀ w, extraOf? name named = some w → ∀ item ∈ items, item = w) := by
  obtain ⟨id, path, items, name, workers, hv, hpath, hitems, hname⟩ :=
    build_parallel hlookup hbuild
  have hfound (item : Value) : ((itemStore name (extrasOf named) item).get? name).result =
      some ((extraOf? name named).getD item) := by
    rw [get?_itemStore, if_pos rfl, ← extraOf?]
    cases extraOf? name named <;> rfl
  refine ⟨id, path, items, name, workers, hv, hpath, hitems, hname,
    fun i item _ => ⟨fun between => ?_, fun key hkey => ?_, hfound item⟩, ?_⟩
  · rw [outcome_loadJob]
    rfl
  · rw [get?_itemStore, if_neg hkey, ← extraOf?]
  · simp only [hfound, Option.some.injEq]
    constructor
    · intro h w hw item hitem
      obtain ⟨i, hi⟩ := List.mem_iff_getElem?.mp hitem
      have hsame := h i item hi
      rw [hw, Option.getD_some] at hsame
      exact hsame.symm
    · intro h i item hi
      cases hw : extraOf? name named with
      | none => rfl
      | some w => exact (h w hw item (List.mem_of_getElem? hi)).symm

/-- The key for the item is given twice, and so is an extra entry. A number that is too wide for the
setting of its name becomes an extra entry, so that the number of workers goes by the processors. -/
theorem items_found_under_second_name :
    let file := Value.object ⟨"", 0⟩ (.file "job.o")
    let items : List Value := [.string "a", .string "b"]
    let named : List (String × Value) := [("runOprops", file), ("items", .array .string items),
      ("itemName", .string "x"), ("out", .int 1), ("itemName", .string "item"), ("out", .int 2),
      ("parallelity", .long 3)]
    let extras : List (String × Value) :=
      [("out", .int 1), ("out", .int 2), ("parallelity", .long 3)]
    let registry := Registry.standard .own Shortcuts.builtin
    let m := { Machine.start ⟨.directory [], []⟩ [] with cores := 4 }
    registry.lookup "ParallelRunnable" = .ok parallelRunnable ∧ ∃ id m',
      outcome ((⟨registry, .constraints⟩ : Engine).build "ParallelRunnable" [] named) m =
        (.ok (.object id (.parallel (some "job.o") (some items) (some "item") 4 extras)), m') ∧
      ∀ (i : Nat) (item : Value), items[i]? = some item →
        ((itemStore "item" extras item).get? "item").result = some item ∧
        ((itemStore "item" extras item).get? "out").result = some (.int 2) := by
  intro file items named extras registry m
  have hlookup : registry.lookup "ParallelRunnable" = .ok parallelRunnable :=
    Registry.lookup_of_resolve rfl rfl
  have hbuild : outcome ((⟨registry, .constraints⟩ : Engine).build "ParallelRunnable" [] named) m =
      (.ok (.object m.issue.1 (.parallel (some "job.o") (some items) (some "item") 4 extras)),
        m.issue.2) := by
    unfold Engine.build Engine.construct
    rw [hlookup]
    rfl
  obtain ⟨_, _, _, _, _, hv, -, -, -, hstores, hfound⟩ := items_found_unless_hidden hlookup hbuild
  have hextras : extrasOf named = extras := rfl
  rw [hextras] at hv hstores hfound
  cases hv
  have hitems := hfound.mpr nofun
  refine ⟨hlookup, _, _, hbuild, fun i item hitem => ⟨hitems i item hitem, ?_⟩⟩
  exact (hstores i item hitem).2.1 "out" (by decide)

/-- An extra entry under the key for the items is what every load finds there. -/
theorem items_hidden_by_extra :
    let file := Value.object ⟨"", 0⟩ (.file "job.o")
    let items : List Value := [.string "a", .string "b"]
    let named : List (String × Value) := [("runOprops", file), ("items", .array .string items),
      ("itemName", .string "item"), ("parallelity", .int 1), ("item", .string "x")]
    let m := Machine.start ⟨.directory [], []⟩ []
    ∃ id m', outcome (Engine.standard.build "ParallelRunnable" [] named) m =
        (.ok (.object id (.parallel (some "job.o") (some items) (some "item") 1
          [("item", .string "x")])), m') ∧
      items[0]? = some (.string "a") ∧
      ((itemStore "item" [("item", .string "x")] (.string "a")).get? "item").result =
        some (.string "x") := by
  intro file items named m
  have hlookup : Engine.standard.registry.lookup "ParallelRunnable" = .ok parallelRunnable :=
    Registry.lookup_of_resolve rfl rfl
  refine ⟨m.issue.1, m.issue.2, ?_, rfl, rfl⟩
  unfold Engine.build Engine.construct
  rw [hlookup]
  rfl

end Run

end TypedConfig
