import TypedConfig.Construct.Validation
import TypedConfig.Store.Basic

/-!
# Views of a store

The values, the entries and their texts, all of them in the order of the keys. Every view is made
from the keys and from a look-up for each of them.
-/

namespace TypedConfig.Store

/-- The values under several keys; keys without a value are left out. -/
def valuesOf (s : Store) : List String → Logged (List Value)
  | [] => return []
  | key :: keys => do
    match ← s.get? key with
    | some v => return v :: (← s.valuesOf keys)
    | none => s.valuesOf keys

/-- The entries for several keys; keys without a value are left out. -/
def entriesOf (s : Store) : List String → Logged (Entries Value)
  | [] => return []
  | key :: keys => do
    match ← s.get? key with
    | some v => return (key, v) :: (← s.entriesOf keys)
    | none => s.entriesOf keys

/-- The values, the one for the store itself included. -/
def values (s : Store) : Logged (List Value) := do s.valuesOf (← s.keys)

/-- The number of keys. A plain store counts its entries. -/
def size : Store → Logged Nat
  | .map entries => return entries.length
  | s => do return (← s.keys).length

/-- The size is the number of keys. -/
theorem size_eq (s : Store) : s.size.result = s.keys.result.length := by
  cases s with
  | map entries => exact (List.length_map _).symm
  | _ => rfl

def isEmpty (s : Store) : Logged Bool := do return (← s.size) == 0

/-- The entries without the one for the store itself. -/
def entries (s : Store) : Logged (Entries Value) := do
  s.entriesOf ((← s.keys).filter (· != selfKey))

/-- The entries with their values as texts. -/
def flatMap (s : Store) : Logged (Entries String) := do
  return (← s.entries).map fun (key, v) => (key, v.text)

/-- What a validator finds among the entries. -/
def validateEntries (s : Store) (validator : Construct.Validator) :
    Logged (List Construct.ValidationError) := do
  return (← s.entries).filterMap fun (_, v) => validator v

/-- A store as a text: its entries in braces. -/
def text (s : Store) : Logged String := do
  return "\x7b" ++ ", ".intercalate (Value.entryTexts (← s.entries)) ++ "\x7d"

end TypedConfig.Store
