import Mathlib.Data.List.Sort
import TypedConfig.Proofs.Constructions
import TypedConfig.Proofs.Simulation

/-!
# Scopes as maps

A scope stands for the map of all the entries that can be read through it, those of its own map
before those of the store below. A load cannot tell the two apart: look-ups, presence checks and the
list of entries have the same answers in both, and a put changes the answers of both alike. What the
load of a scope puts is in the own map of the scope, and nothing below changes.
-/

namespace TypedConfig

/-- Where keys occur once, the order in which the entries are searched does not matter. -/
theorem Entries.Ordered.get?_reverse {α : Type} {es : Entries α} (h : Entries.Ordered es)
    (key : String) : Entries.get? key es.reverse = Entries.get? key es := by
  induction es with
  | nil => rfl
  | cons entry rest ih =>
    obtain ⟨k, v⟩ := entry
    rw [List.reverse_cons, get?_append, ih h.tail, get?_cons, get?_cons]
    split
    next hsame =>
      subst hsame
      rw [get?_eq_none_of_lt h.head_lt, Option.none_or]
    next => rw [get?_nil, Option.or_none]

namespace Store

/-- In every map of a store the keys are in order. New stores are like that, and no operation
changes it. -/
def Ordered : Store → Prop
  | map entries => Entries.Ordered entries
  | scope own outer => Entries.Ordered own ∧ outer.Ordered
  | observed inner => inner.Ordered
  | locked inner => inner.Ordered

/-- The entries that can be read in a store; those of a scope hide the ones below them. -/
def allEntries : Store → Entries Value
  | map entries => entries
  | scope own outer => Entries.insertAll own outer.allEntries
  | observed inner => inner.allEntries
  | locked inner => inner.allEntries

/-- The map that a store stands for. -/
def flat (s : Store) : Store := map s.allEntries

/-- The map of a new store is ordered. -/
theorem ordered_fresh : Entries.Ordered fresh := .cons nofun .nil

/-- A new store is ordered. -/
theorem ordered_empty : empty.Ordered := ordered_fresh

namespace Ordered

variable {s : Store}

/-- A scope over an ordered store is ordered. -/
theorem scopeOver (h : s.Ordered) : s.scopeOver.Ordered := ⟨ordered_fresh, h⟩

/-- A put keeps the maps ordered. -/
theorem put (h : s.Ordered) (key : String) (v : Value) : (s.put key v).result.2.Ordered := by
  induction s with
  | map entries => exact Entries.Ordered.insert h key v
  | scope own outer => exact ⟨Entries.Ordered.insert h.1 key v, h.2⟩
  | observed inner ih => exact ih h
  | locked inner ih => exact ih h

/-- A removal keeps the maps ordered. -/
theorem remove (h : s.Ordered) (key : String) : (s.remove key).result.2.Ordered := by
  induction s with
  | map entries => exact Entries.Ordered.erase h key
  | scope own outer ih =>
    unfold Store.remove
    split
    · exact ⟨Entries.Ordered.erase h.1 key, h.2⟩
    · exact ⟨h.1, ih h.2⟩
  | observed inner ih => exact ih h
  | locked inner ih => exact ih h

/-- Clearing keeps the maps ordered. -/
theorem clear (h : s.Ordered) : s.clear.result.Ordered := by
  have hcleared {entries : Entries Value} (h : Entries.Ordered entries) :
      Entries.Ordered (cleared entries) :=
    List.Pairwise.sublist (List.filter_sublist.map _) h
  induction s with
  | map entries => exact hcleared h
  | scope own outer => exact ⟨hcleared h.1, h.2⟩
  | observed inner ih => exact ih h
  | locked inner ih => exact ih h

/-- A load keeps the maps ordered. -/
theorem load (h : s.Ordered) (engine : Construct.Engine) (m : Machine) (entry : Entry) :
    (s.load engine m entry).store.Ordered :=
  load_keeps_of_put (fun key v _ ht => ht.put key v) m entry h

/-- All entries of an ordered store are ordered. -/
theorem allEntries (h : s.Ordered) : Entries.Ordered s.allEntries := by
  induction s with
  | map entries => exact h
  | scope own outer ih => exact (ih h.2).insertAll own
  | observed inner ih => exact ih h
  | locked inner ih => exact ih h

/-- A look-up in all entries finds what a look-up in the store finds. -/
theorem get?_allEntries (h : s.Ordered) (key : String) :
    Entries.get? key s.allEntries = (s.get? key).result := by
  induction s with
  | map entries => rfl
  | scope own outer ih =>
    rw [Store.allEntries, Entries.get?_insertAll, h.1.get?_reverse, ih h.2, get?_scope]
  | observed inner ih => exact ih h
  | locked inner ih => exact ih h

end Ordered

/-- The keys are those under which something is found. -/
theorem mem_keys (key : String) (s : Store) :
    key ∈ s.keys.result ↔ (s.get? key).result.isSome := by
  induction s with
  | map entries => exact Entries.mem_keys_iff_get?_isSome key entries
  | scope own outer ih =>
    rw [get?_scope, Option.isSome_or, Bool.or_eq_true, ← ih, ← Entries.mem_keys_iff_get?_isSome]
    exact mem_unionKeys key _ _
  | observed inner ih => exact ih
  | locked inner ih => exact ih

/-- A key is inserted in order. -/
theorem pairwise_insertKey {keys : List String} (h : keys.Pairwise (· < ·)) (key : String) :
    (insertKey key keys).Pairwise (· < ·) := by
  have hkeys : Entries.keys (keys.map fun k => (k, Value.storeMarker)) = keys := by
    simp [Entries.keys, Function.comp_def]
  rw [← hkeys, ← keys_insert key Value.storeMarker]
  refine Entries.Ordered.insert ?_ key Value.storeMarker
  rwa [Entries.Ordered, hkeys]

/-- Keys are joined in order. -/
theorem pairwise_unionKeys {keys : List String} (h : keys.Pairwise (· < ·)) (new : List String) :
    (unionKeys new keys).Pairwise (· < ·) := by
  induction new with
  | nil => exact h
  | cons key new ih => exact pairwise_insertKey ih key

/-- The keys of a store in order are in order. -/
theorem Ordered.keys {s : Store} (h : s.Ordered) : s.keys.result.Pairwise (· < ·) := by
  induction s with
  | map entries => exact h
  | scope own outer ih => exact pairwise_unionKeys (ih h.2) _
  | observed inner ih => exact ih h
  | locked inner ih => exact ih h

/-- Two stores whose maps are in order and whose look-ups have the same answers. -/
structure Alike (s t : Store) : Prop where
  left : s.Ordered
  right : t.Ordered
  get {key : String} : (s.get? key).result = (t.get? key).result

namespace Alike

variable {s t : Store}

/-- Stores that look alike have the same keys. -/
theorem keys (h : s.Alike t) : s.keys.result = t.keys.result := by
  refine h.left.keys.eq_of_mem_iff h.right.keys fun key => ?_
  rw [mem_keys, mem_keys, h.get]

/-- All entries of two stores that are alike are the same. -/
theorem allEntries_eq (h : s.Alike t) : s.allEntries = t.allEntries := by
  refine h.left.allEntries.eq_of_get?_eq h.right.allEntries fun key => ?_
  rw [h.left.get?_allEntries, h.right.get?_allEntries, h.get]

end Alike

/-- A load does not tell stores apart that are alike. -/
theorem Simulation.alike : Simulation Alike where
  get h _ := h.get
  contains h key := by rw [contains_eq, contains_eq, h.get]
  entries {s t} h := by
    change (s.entriesOf (s.keys.result.filter _)).result =
      (t.entriesOf (t.keys.result.filter _)).result
    rw [h.keys, entriesOf_congr fun _ => h.get]
  put h key v := ⟨h.left.put key v, h.right.put key v, fun {other} => by
    rw [get?_put, get?_put, h.get]⟩

/-- A store is alike to the map that it stands for. -/
theorem Ordered.alike_flat {s : Store} (h : s.Ordered) : s.Alike s.flat where
  left := h
  right := h.allEntries
  get {key} := (h.get?_allEntries key).symm

/-- In the map that a scope stands for, the entries of the scope hide those below. -/
theorem Ordered.get?_flat_scope {own : Entries Value} {outer : Store}
    (h : (scope own outer).Ordered) (key : String) :
    ((scope own outer).flat.get? key).result =
      (Entries.get? key own).or (outer.get? key).result := by
  rw [← h.alike_flat.get, get?_scope]

/-- The load of a scope puts into the own map of the scope only. -/
theorem load_scope (engine : Construct.Engine) (m : Machine) (entry : Entry) (own : Entries Value)
    (outer : Store) : ∃ own', ((scope own outer).load engine m entry).store = scope own' outer := by
  refine load_keeps_of_put (P := fun t => ∃ own', t = scope own' outer) ?_ m entry ⟨own, rfl⟩
  rintro key v _ ⟨own', rfl⟩
  exact ⟨Entries.insert key v own', rfl⟩

/-- The load of a map leaves a map. -/
theorem load_map (engine : Construct.Engine) (m : Machine) (entry : Entry)
    (entries : Entries Value) :
    ∃ entries', ((map entries).load engine m entry).store = map entries' := by
  refine load_keeps_of_put (P := fun t => ∃ entries', t = map entries') ?_ m entry ⟨entries, rfl⟩
  rintro key v _ ⟨entries', rfl⟩
  exact ⟨Entries.insert key v entries', rfl⟩

/-- The load of a scope ends like the load of the map that the scope stands for, with the same error
if there is one, and leaves a scope that stands for what the other load leaves. The store below is
as it was, even if the load fails. -/
theorem load_scope_eq_load_flat (engine : Construct.Engine) (m : Machine) (entry : Entry)
    (own : Entries Value) (outer : Store) (h : (scope own outer).Ordered) :
    let loaded := (scope own outer).load engine m entry
    let plain := (scope own outer).flat.load engine m entry
    loaded.result = plain.result ∧ loaded.machine = plain.machine ∧
      loaded.store.flat = plain.store ∧ loaded.store.Ordered ∧
      ∃ own', loaded.store = scope own' outer := by
  intro loaded plain
  obtain ⟨hresult, hmachine, halike⟩ := Simulation.alike.load engine m entry h.alike_flat
  have hflat : loaded.store.flat = plain.store := by
    obtain ⟨entries, hplain⟩ := load_map engine m entry (scope own outer).allEntries
    change map loaded.store.allEntries = plain.store
    rw [halike.allEntries_eq]
    change map ((map _).load engine m entry).store.allEntries = ((map _).load engine m entry).store
    rw [hplain]
    rfl
  exact ⟨hresult, hmachine, hflat, h.load engine m entry, load_scope engine m entry own outer⟩

/-- A load into a scope over a scope that fails halfway. -/
theorem load_nested_scope_eq_load_flat :
    let outer := scope [("a", .int 1), ("b", .int 2)] empty
    let s := scope [("a", .int 3)] outer
    let m := Machine.start ⟨.directory [], []⟩ []
    let loaded := s.load .standard m (.text "b = a; c = d;")
    let plain := (map [("a", .int 3), ("b", .int 2), ("self", .storeMarker)]).load .standard m
      (.text "b = a; c = d;")
    loaded.result = plain.result ∧ loaded.store.flat = plain.store ∧
      ∃ own, loaded.store = scope own outer := by
  intro outer s m loaded plain
  have hordered : s.Ordered := by
    refine ⟨?_, ?_, ordered_empty⟩ <;> unfold Entries.Ordered <;> decide
  obtain ⟨hresult, _, hflat, _, hstore⟩ :=
    load_scope_eq_load_flat .standard m (.text "b = a; c = d;") [("a", .int 3)] outer hordered
  exact ⟨hresult, hflat, hstore⟩

end Store

end TypedConfig
