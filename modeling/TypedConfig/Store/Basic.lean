import TypedConfig.Entries
import TypedConfig.Store.Event

/-!
# Stores

A store maps keys to values. A plain store is one map. A scope has a map of its own over another
store: it reads through to that store, writes to its own map, and takes a key out of the store
below only if its own map does not have it. An observed store reports what is done to it, and a
locked store hands everything to the store it protects. Every map is made with the entry for the
store itself, and only a removal takes that entry out.
-/

namespace TypedConfig

/-- A store of one of the four sorts. -/
inductive Store where
  | map (entries : Entries Value)
  | scope (own : Entries Value) (outer : Store)
  | observed (inner : Store)
  | locked (inner : Store)

namespace Store

/-- The entries of a new map. -/
def fresh : Entries Value := [(selfKey, Value.storeMarker)]

/-- A plain store on which nothing has happened yet. -/
def empty : Store := .map fresh

/-- A new scope over a store. -/
def scopeOver (outer : Store) : Store := .scope fresh outer

instance : Inhabited Store := ⟨empty⟩

/-- The entries of a map after it has been cleared. -/
def cleared (entries : Entries Value) : Entries Value :=
  entries.filter fun entry => entry.1 == selfKey

/-- Adds a key to an increasing list of keys. -/
def insertKey (key : String) : List String → List String
  | [] => [key]
  | k :: ks =>
    if key < k then key :: k :: ks
    else if k = key then k :: ks
    else k :: insertKey key ks

/-- The keys of two increasing lists together, each of them once. -/
def unionKeys (xs ys : List String) : List String := xs.foldr insertKey ys

/-- The keys after a put. -/
@[simp] theorem keys_insert (key : String) (value : Value) (entries : Entries Value) :
    Entries.keys (Entries.insert key value entries) = insertKey key (Entries.keys entries) := by
  induction entries with
  | nil => rfl
  | cons entry rest ih =>
    obtain ⟨k, v⟩ := entry
    by_cases before : key < k
    · simp [Entries.insert, insertKey, Entries.keys, before]
    · by_cases same : k = key
      · subst same
        simp [Entries.insert, insertKey, Entries.keys]
      · simpa [Entries.insert, insertKey, Entries.keys, before, same] using ih

/-- To insert a key adds it. -/
@[simp] theorem mem_insertKey (key other : String) (ks : List String) :
    other ∈ insertKey key ks ↔ other = key ∨ other ∈ ks := by
  induction ks with
  | nil => simp [insertKey]
  | cons k ks ih =>
    by_cases before : key < k
    · simp [insertKey, before]
    · by_cases same : k = key
      · subst same
        simp [insertKey]
      · simp only [insertKey, before, same, if_false, List.mem_cons, ih]
        exact or_left_comm

/-- Joined keys are those of both. -/
@[simp] theorem mem_unionKeys (key : String) (xs ys : List String) :
    key ∈ unionKeys xs ys ↔ key ∈ xs ∨ key ∈ ys := by
  induction xs with
  | nil => simp [unionKeys]
  | cons x xs ih => simpa [unionKeys, or_assoc] using or_congr_right ih

/-- The value under a key. -/
def get? (key : String) : Store → Logged (Option Value)
  | .map entries => return Entries.get? key entries
  | .scope own outer =>
    match Entries.get? key own with
    | some v => return some v
    | none => outer.get? key
  | .observed inner => (inner.get? key).around (.get key)
  | .locked inner => inner.get? key

/-- Puts a value under a key; with the value that was there. -/
def put (key : String) (value : Value) : Store → Logged (Option Value × Store)
  | .map entries => return (Entries.get? key entries, .map (Entries.insert key value entries))
  | .scope own outer =>
    return (Entries.get? key own, .scope (Entries.insert key value own) outer)
  | .observed inner => Logged.around (.put key value) do
    let (previous, inner) ← inner.put key value
    return (previous, .observed inner)
  | .locked inner => do
    let (previous, inner) ← inner.put key value
    return (previous, .locked inner)

/-- Takes a key out; with the value that was there. -/
def remove (key : String) : Store → Logged (Option Value × Store)
  | .map entries => return (Entries.get? key entries, .map (Entries.erase key entries))
  | .scope own outer =>
    if Entries.contains key own then
      return (Entries.get? key own, .scope (Entries.erase key own) outer)
    else do
      let (previous, outer) ← outer.remove key
      return (previous, .scope own outer)
  | .observed inner => Logged.around (.remove key) do
    let (previous, inner) ← inner.remove key
    return (previous, .observed inner)
  | .locked inner => do
    let (previous, inner) ← inner.remove key
    return (previous, .locked inner)

/-- Whether a key is there. -/
def contains (key : String) : Store → Logged Bool
  | .map entries => return Entries.contains key entries
  | .scope own outer => if Entries.contains key own then return true else outer.contains key
  | .observed inner => (inner.contains key).around (.contains key)
  | .locked inner => inner.contains key

/-- Takes out every key of the topmost map except the one for the store itself. -/
def clear : Store → Logged Store
  | .map entries => return .map (cleared entries)
  | .scope own outer => return .scope (cleared own) outer
  | .observed inner => Logged.around .clear do return .observed (← inner.clear)
  | .locked inner => do return .locked (← inner.clear)

/-- The keys in increasing order. -/
def keys : Store → Logged (List String)
  | .map entries => return Entries.keys entries
  | .scope own outer => do return unionKeys (Entries.keys own) (← outer.keys)
  | .observed inner => inner.keys.around .keys
  | .locked inner => inner.keys

/-- Puts several values one after the other. -/
def putEach : List (String × Value) → Store → Logged Store
  | [], s => return s
  | (key, value) :: rest, s => do
    let (_, s) ← s.put key value
    s.putEach rest

/-- Puts several values; an observed store reports them as one operation as well. -/
def putAll (entries : List (String × Value)) (s : Store) : Logged Store :=
  match s with
  | .observed _ => (s.putEach entries).around (.putAll entries.length)
  | _ => s.putEach entries

/-- Runs an operation on the store that is observed or protected. -/
def onInner {α : Type} (operation : Store → Logged (α × Store)) : Store → Logged (α × Store)
  | .observed inner => do
    let (result, inner) ← operation inner
    return (result, .observed inner)
  | .locked inner => do
    let (result, inner) ← operation inner
    return (result, .locked inner)
  | s => operation s

/-- Runs an operation on the store below a scope. -/
def onOuter {α : Type} (operation : Store → Logged (α × Store)) : Store → Logged (α × Store)
  | .scope own outer => do
    let (result, outer) ← operation outer
    return (result, .scope own outer)
  | s => operation s

end Store

end TypedConfig
