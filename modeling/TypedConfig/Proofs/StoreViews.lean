import TypedConfig.Proofs.Reachable
import TypedConfig.Proofs.ValidStores

/-!
# One map behind all views

The keys of a store, its presence checks, its sizes and its lists of values, entries and texts are
made in different ways, and those of a scope from two stores. In every reachable store they describe
one finite map, the one of its look-ups. The texts of the entries are a map of the same kind: put
into a store without entries as strings, they come out as they are.
-/

namespace TypedConfig.Store

variable {s t : Store} {key : String} {v : Value}

/-- All views of a store describe the map of its look-ups. -/
structure ShowsOneMap (s : Store) : Prop where
  keys_increase : s.keys.result.Pairwise (· < ·)
  contains_iff_mem (key : String) : (s.contains key).result = true ↔ key ∈ s.keys.result
  contains_iff_found (key : String) :
    (s.contains key).result = true ↔ ∃ v, (s.get? key).result = some v
  size_eq : s.size.result = s.keys.result.length
  isEmpty_iff : s.isEmpty.result = true ↔ s.size.result = 0
  values_eq : s.values.result.map some = s.keys.result.map fun key => (s.get? key).result
  keys_entries : Entries.keys s.entries.result = s.keys.result.filter (· != selfKey)
  mem_entries (key : String) (v : Value) :
    (key, v) ∈ s.entries.result ↔ key ≠ selfKey ∧ (s.get? key).result = some v
  propertyMap_eq : Request.propertyMap.answer s = .map s.entries.result
  keys_flatMap : Entries.keys s.flatMap.result = s.keys.result.filter (· != selfKey)
  mem_flatMap (key text : String) : (key, text) ∈ s.flatMap.result ↔
    key ≠ selfKey ∧ ∃ v, (s.get? key).result = some v ∧ v.text = text

/-- The values under keys that are there are what is found under them. -/
theorem valuesOf_eq {keys : List String} (h : ∀ key ∈ keys, (s.get? key).result.isSome) :
    (s.valuesOf keys).result.map some = keys.map fun key => (s.get? key).result := by
  induction keys with
  | nil => rfl
  | cons key keys ih =>
    obtain ⟨v, hv⟩ := Option.isSome_iff_exists.mp (h key (.head _))
    rw [valuesOf, Logged.result_bind, hv, List.map_cons, hv, ← ih fun k hk => h k (.tail _ hk)]
    rfl

/-- The entries for keys that are there have these keys. -/
theorem keys_entriesOf {keys : List String} (h : ∀ key ∈ keys, (s.get? key).result.isSome) :
    Entries.keys (s.entriesOf keys).result = keys := by
  induction keys with
  | nil => rfl
  | cons key keys ih =>
    obtain ⟨v, hv⟩ := Option.isSome_iff_exists.mp (h key (.head _))
    rw [entriesOf, Logged.result_bind, hv]
    exact congrArg (key :: ·) (ih fun k hk => h k (.tail _ hk))

/-- The keys of the entries are all keys but the reserved one. -/
theorem keys_entries (s : Store) :
    Entries.keys s.entries.result = s.keys.result.filter (· != selfKey) :=
  keys_entriesOf fun key hkey => (mem_keys key s).mp (List.mem_of_mem_filter hkey)

/-- The keys of the flat map are all keys but the reserved one. -/
theorem keys_flatMap (s : Store) :
    Entries.keys s.flatMap.result = s.keys.result.filter (· != selfKey) := by
  rw [← keys_entries]
  exact List.map_map

/-- The flat map is ordered. -/
theorem Ordered.flatMap (h : s.Ordered) : Entries.Ordered s.flatMap.result := by
  rw [Entries.Ordered, keys_flatMap]
  exact h.keys.filter _

/-- The entries are ordered. -/
theorem Ordered.entries (h : s.Ordered) : Entries.Ordered s.entries.result := by
  rw [Entries.Ordered, keys_entries]
  exact h.keys.filter _

/-- A look-up among the entries of a store is one in the store, but not for the store itself. -/
theorem Ordered.get?_entries (h : s.Ordered) (key : String) :
    Entries.get? key s.entries.result =
      if key = selfKey then none else (s.get? key).result := by
  have hfound (v : Value) : Entries.get? key s.entries.result = some v ↔
      key ≠ selfKey ∧ (s.get? key).result = some v := by
    rw [h.entries.get?_eq_some_iff, mem_entries]
  refine Option.ext fun v => (hfound v).trans ?_
  split
  next hself => simp [hself]
  next hself => simp [hself]

/-- The flat map has the text of what is found, and nothing under the reserved key. -/
theorem Ordered.get?_flatMap (h : s.Ordered) (key : String) :
    Entries.get? key s.flatMap.result =
      if key = selfKey then none else (s.get? key).result.map Value.text := by
  change Entries.get? key (s.entries.result.map fun entry => (entry.1, entry.2.text)) = _
  rw [Entries.get?_map, h.get?_entries, apply_ite (Option.map Value.text), Option.map_none]

/-- The entries of the flat map are the texts of what is found. -/
theorem Ordered.mem_flatMap (h : s.Ordered) {text : String} :
    (key, text) ∈ s.flatMap.result ↔
      key ≠ selfKey ∧ ∃ v, (s.get? key).result = some v ∧ v.text = text := by
  rw [← h.flatMap.get?_eq_some_iff, h.get?_flatMap]
  split
  next hself => simp [hself]
  next hself => simp [hself]

/-- All views of an ordered store show one map. -/
theorem Ordered.showsOneMap (h : s.Ordered) : s.ShowsOneMap where
  keys_increase := h.keys
  contains_iff_mem key := by rw [contains_eq, mem_keys]
  contains_iff_found key := by rw [contains_eq, Option.isSome_iff_exists]
  size_eq := s.size_eq
  isEmpty_iff := beq_iff_eq
  values_eq := valuesOf_eq fun key hkey => (mem_keys key s).mp hkey
  keys_entries := s.keys_entries
  mem_entries _ _ := mem_entries
  propertyMap_eq := rfl
  keys_flatMap := s.keys_flatMap
  mem_flatMap _ _ := h.mem_flatMap

/-- After several puts the last value that was put under the key is there, or the one from
before. -/
theorem get?_putEach (new : List (String × Value)) (key : String) (s : Store) :
    ((s.putEach new).result.get? key).result =
      (Entries.get? key new.reverse).or (s.get? key).result := by
  obtain ⟨own, outer, hmaps⟩ := s.exists_maps
  rw [get?_maps, get?_maps, putEach_maps hmaps, hmaps, List.findSome?_cons, List.findSome?_cons,
    Entries.get?_insertAll]
  cases Entries.get? key new.reverse <;> rfl

/-- Texts as strings to be put into a store. -/
def asStrings (texts : Entries String) : List (String × Value) :=
  texts.map fun entry => (entry.1, .string entry.2)

/-- The texts of a store that are put as strings into one without entries are its texts as well. -/
theorem Ordered.flatMap_asStrings (h : s.Ordered) (ht : t.Ordered)
    (hentries : t.entries.result = []) :
    (t.putAll (asStrings s.flatMap.result)).result.flatMap.result = s.flatMap.result := by
  have hput : (t.putEach (asStrings s.flatMap.result)).result.Ordered :=
    putEach_keeps (fun key v _ hs => hs.put key v) _ ht
  have hstrings : Entries.Ordered (asStrings s.flatMap.result) := by
    have hkeys : Entries.keys (asStrings s.flatMap.result) = Entries.keys s.flatMap.result :=
      List.map_map
    rw [Entries.Ordered, hkeys]
    exact h.flatMap
  -- Both lists are in the order of their keys, so it is enough to look up each key.
  rw [putAll_result]
  refine hput.flatMap.eq_of_get?_eq h.flatMap fun key => ?_
  rw [hput.get?_flatMap]
  split
  next hself => rw [h.get?_flatMap, if_pos hself]
  next hother =>
    have hnone : (t.get? key).result = none := by
      rw [← (ht.get?_entries key).trans (if_neg hother), hentries, Entries.get?_nil]
    rw [get?_putEach, hnone, Option.or_none, hstrings.get?_reverse, asStrings, Entries.get?_map,
      Option.map_map]
    exact congrFun Option.map_id _

/-- The views of a reachable store, of whatever scopes, observers and locks it is made, describe one
map: what is found under each of its keys, in the order of the keys. Its texts are put as strings
into any store without entries, such as a new one, and are the texts of that store then. -/
theorem views_describe_one_map {s : Store} (h : s.Reachable) :
    s.ShowsOneMap ∧ ∀ t : Store, t.Reachable → t.entries.result = [] →
      (t.putAll (asStrings s.flatMap.result)).result.flatMap.result = s.flatMap.result :=
  ⟨h.ordered.showsOneMap, fun _ ht hentries => h.ordered.flatMap_asStrings ht.ordered hentries⟩

/-- A locked scope that hides an entry of the observed store below, with two entries for the stores
themselves. The texts are put into a new scope. -/
theorem views_of_hidden_entry :
    let outer := Request.after [.put "b" (.int 2), .put "a" (.bool true)] (.observed empty)
    let requests : List Request := [.put "c" (.int 3), .put "b" (.string "x")]
    let s := Store.locked (Request.after requests outer.scopeOver)
    let t := empty.scopeOver
    s.Reachable ∧ t.Reachable ∧ t.entries.result = [] ∧
      s.keys.result = ["a", "b", "c", "self"] ∧
      s.flatMap.result = [("a", "true"), ("b", "x"), ("c", "3")] ∧ s.ShowsOneMap ∧
      (t.putAll (asStrings s.flatMap.result)).result.flatMap.result = s.flatMap.result := by
  intro outer requests s t
  have houter : outer.Reachable := ReachableBy.empty.observed.after fun _ _ => trivial
  have hs : s.Reachable := (houter.scopeOver.after fun _ _ => trivial).locked
  have ht : t.Reachable := ReachableBy.empty.scopeOver
  obtain ⟨hviews, hwritten⟩ := views_describe_one_map hs
  exact ⟨hs, ht, rfl, rfl, by decide +kernel, hviews, hwritten t ht rfl⟩

end TypedConfig.Store
