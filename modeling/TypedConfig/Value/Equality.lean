import TypedConfig.File.Path
import TypedConfig.Value.Basic

/-!
# Equality of values

`Value.identical` decides whether two values are one and the same, identities of objects included.
`Value.equal` is the equality of the language: numbers compare as numbers, arrays by the kind and
the items, files by the components of their paths, and other objects by their contents where
their type has an equality, otherwise only when they are one object.
-/

namespace TypedConfig

mutual

/-- Whether two values are the same in every part. -/
def Value.identical : Value → Value → Bool
  | .int a, .int b => a == b
  | .long a, .long b => a == b
  | .float a, .float b => a == b
  | .double a, .double b => a == b
  | .bool a, .bool b => a == b
  | .string a, .string b => a == b
  | .array k xs, .array l ys => k == l && Value.identicalLists xs ys
  | .object i c, .object j d => i == j && Content.identical c d
  | _, _ => false

/-- Whether two lists have identical items. -/
def Value.identicalLists : List Value → List Value → Bool
  | [], [] => true
  | v :: vs, w :: ws => v.identical w && Value.identicalLists vs ws
  | _, _ => false

/-- Whether two lists of entries have the same keys and identical values. -/
def Value.identicalEntries : List (String × Value) → List (String × Value) → Bool
  | [], [] => true
  | (k, v) :: vs, (l, w) :: ws => k == l && v.identical w && Value.identicalEntries vs ws
  | _, _ => false

/-- Whether two contents are identical. -/
def Content.identical : Content → Content → Bool
  | .file p, .file q => p == q
  | .resource m, .resource n => m == n
  | .url t, .url u => t == u
  | .timeZone y, .timeZone z => y == z
  | .socket g p, .socket h q => g == h && p == q
  | .map es, .map fs => Value.identicalEntries es fs
  | .list xs, .list ys => Value.identicalLists xs ys
  | .storeMarker, .storeMarker => true
  | .shell a, .shell b => a == b
  | .parallel p (some xs) m v es, .parallel q (some ys) n w fs =>
    p == q && Value.identicalLists xs ys && m == n && v == w && Value.identicalEntries es fs
  | .parallel p none m v es, .parallel q none n w fs =>
    p == q && m == n && v == w && Value.identicalEntries es fs
  | .custom a, .custom b => a == b
  | _, _ => false

end

mutual

/-- The equality of the language. -/
def Value.equal : Value → Value → Bool
  | .int a, .int b => a == b
  | .long a, .long b => a == b
  | .float a, .float b => a.equal b
  | .double a, .double b => a.equal b
  | .bool a, .bool b => a == b
  | .string a, .string b => a == b
  | .array k xs, .array l ys => k == l && Value.equalLists xs ys
  | .object i c, .object j d => (i == j && Content.identical c d) || Content.equal c d
  | _, _ => false

/-- Whether two lists have equal items. -/
def Value.equalLists : List Value → List Value → Bool
  | [], [] => true
  | v :: vs, w :: ws => v.equal w && Value.equalLists vs ws
  | _, _ => false

/-- Whether two lists of entries have the same keys and equal values. -/
def Value.equalEntries : List (String × Value) → List (String × Value) → Bool
  | [], [] => true
  | (k, v) :: vs, (l, w) :: ws => k == l && v.equal w && Value.equalEntries vs ws
  | _, _ => false

/-- Whether two objects are equal by their contents. -/
def Content.equal : Content → Content → Bool
  | .file p, .file q => File.Path.same p q
  | .resource m, .resource n => m == n
  | .url t, .url u => t == u
  | .timeZone y, .timeZone z => y == z
  | .socket g p, .socket h q => g == h && p == q
  | .map es, .map fs => Value.equalEntries es fs
  | .list xs, .list ys => Value.equalLists xs ys
  | .storeMarker, .storeMarker => true
  | _, _ => false

end

/-- Whether a list has an item that is equal to a value. -/
def Value.isIn (v : Value) (items : List Value) : Bool := items.any fun w => w.equal v

end TypedConfig
