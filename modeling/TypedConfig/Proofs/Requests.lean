import TypedConfig.Proofs.Constructions
import TypedConfig.Store.Reading

/-!
# Requests to a store

Everything that can be asked of a store or done to it, as data: a sequence of requests is a list, so
that what holds after any sequence is proved by induction. A request is answered by the operation of
the store that it names. A load brings the machine on which it runs with it.
-/

namespace TypedConfig

/-- The typed getters of a store. -/
inductive Getter where
  | int
  | long
  | float
  | double
  | bool
  | string
  | array
  | tagged (tag : String)

namespace Getter

/-- What a getter gives. -/
def Result : Getter → Type
  | int => Int32
  | long => Int64
  | float => Decimal.Single
  | double => Decimal.Double
  | bool => Bool
  | string => String
  | array => Kind × List Value
  | tagged _ => ObjectId × Content

/-- The reading that a getter makes. -/
def reading : (g : Getter) → Reading g.Result
  | int => .int
  | long => .long
  | float => .float
  | double => .double
  | bool => .bool
  | string => .string
  | array => .array
  | tagged tag => .tagged tag

end Getter

/-- A request to a store. -/
inductive Request where
  | get (key : String)
  | put (key : String) (value : Value)
  | remove (key : String)
  | contains (key : String)
  | clear
  | keys
  | values
  | size
  | isEmpty
  | putAll (new : List (String × Value))
  | entries
  | propertyMap
  | flatMap
  | validateEntries (validator : Construct.Validator)
  | read (getter : Getter) (key : String)
  | readOr (getter : Getter) (key : String) (default : getter.Result)
  | canRead (getter : Getter) (key : String)
  | readObject (type : ObjectType) (key : String)
  | containsObject (type : ObjectType) (key : String)
  | load (m : Machine) (entry : Entry)

namespace Request

/-- What a request is answered with. -/
def Answer : Request → Type
  | get _ => Option Value
  | put .. => Option Value
  | remove _ => Option Value
  | contains _ => Bool
  | clear => Unit
  | keys => List String
  | values => List Value
  | size => Nat
  | isEmpty => Bool
  | putAll _ => Unit
  | entries => Entries Value
  | propertyMap => Content
  | flatMap => Entries String
  | validateEntries _ => List Construct.ValidationError
  | read getter _ => Except PropertyError getter.Result
  | readOr getter _ _ => Except PropertyError getter.Result
  | canRead .. => Bool
  | readObject .. => Except PropertyError (ObjectId × Content)
  | containsObject .. => Bool
  | load .. => Except LoadError Unit × Machine

/-- A question leaves the store as it is. -/
def asking {α : Type} (question : Store → Logged α) (s : Store) : Logged (α × Store) := do
  return (← question s, s)

/-- Answers a request; with the store behind it. -/
def run : (q : Request) → Store → Logged (q.Answer × Store)
  | get key => asking (Store.get? key)
  | put key value => Store.put key value
  | remove key => Store.remove key
  | contains key => asking (Store.contains key)
  | clear => fun s => do return ((), ← s.clear)
  | keys => asking Store.keys
  | values => asking Store.values
  | size => asking Store.size
  | isEmpty => asking Store.isEmpty
  | putAll new => fun s => do return ((), ← s.putAll new)
  | entries => asking Store.entries
  | propertyMap => asking fun s => do return .map (← s.entries)
  | flatMap => asking Store.flatMap
  | validateEntries validator => asking fun s => s.validateEntries validator
  | read getter key => asking (Store.read getter.reading key)
  | readOr getter key default => asking (Store.readOr getter.reading key default)
  | canRead getter key => asking (Store.canRead getter.reading key)
  | readObject type key => asking (Store.readObject type key)
  | containsObject type key => asking (Store.containsObject type key)
  | load m entry => fun s =>
    let loaded := s.readFrom m entry
    ⟨((loaded.result, loaded.machine), loaded.store), loaded.events⟩

/-- The answer to a request. -/
def answer (q : Request) (s : Store) : q.Answer := (q.run s).result.1

/-- The store behind a request. -/
def next (q : Request) (s : Store) : Store := (q.run s).result.2

/-- The store behind several requests. -/
def after : List Request → Store → Store
  | [], s => s
  | q :: rest, s => after rest (q.next s)

/-- The answers to several requests. -/
def answers : List Request → Store → List ((q : Request) × q.Answer)
  | [], _ => []
  | q :: rest, s => ⟨q, q.answer s⟩ :: answers rest (q.next s)

/-- What is reported of several requests, one log for each of them. -/
def logs : List Request → Store → List (List Event)
  | [], _ => []
  | q :: rest, s => (q.run s).events :: logs rest (q.next s)

end Request

namespace Store

/-- Several puts are the same whether or not they are reported as one operation. -/
theorem putAll_result (new : List (String × Value)) (s : Store) :
    (s.putAll new).result = (s.putEach new).result := by
  cases s <;> rfl

/-- The report of a load changes nothing but the log. -/
theorem readFrom_eq (m : Machine) (entry : Entry) (s : Store) :
    (s.readFrom m entry).result = (s.load (.standard m.libraries) m entry).result ∧
      (s.readFrom m entry).machine = (s.load (.standard m.libraries) m entry).machine ∧
      (s.readFrom m entry).store = (s.load (.standard m.libraries) m entry).store := by
  cases s <;> exact ⟨rfl, rfl, rfl⟩

/-- Several puts keep what each put keeps. -/
theorem putEach_keeps {P : Store → Prop} (hput : ∀ key v s, P s → P (s.put key v).result.2)
    (new : List (String × Value)) {s : Store} (hs : P s) : P (s.putEach new).result := by
  induction new generalizing s with
  | nil => exact hs
  | cons entry new ih => exact ih (hput entry.1 entry.2 s hs)

end Store

namespace Request

variable {P : Store → Prop} {s : Store}

/-- A request keeps what puts, removals and clearings keep. -/
theorem next_keeps (hput : ∀ key v s, P s → P (s.put key v).result.2)
    (hremove : ∀ key s, P s → P (s.remove key).result.2) (hclear : ∀ s, P s → P s.clear.result)
    (q : Request) (hs : P s) : P (q.next s) := by
  cases q with
  | put key v => exact hput key v s hs
  | remove key => exact hremove key s hs
  | clear => exact hclear s hs
  | putAll new =>
    change P (s.putAll new).result
    rw [Store.putAll_result]
    exact Store.putEach_keeps hput new hs
  | load m entry =>
    change P (s.readFrom m entry).store
    rw [(s.readFrom_eq m entry).2.2]
    exact Store.load_keeps_of_put hput m entry hs
  | _ => exact hs

/-- What each request keeps is kept by all of them. -/
theorem after_keeps (h : ∀ (q : Request) s, P s → P (q.next s)) (requests : List Request)
    (hs : P s) : P (after requests s) := by
  induction requests generalizing s with
  | nil => exact hs
  | cons q rest ih => exact ih (h q s hs)

end Request

end TypedConfig
