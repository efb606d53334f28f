import TypedConfig.Store.Basic

/-!
# Typed reads

A reading asks for a value of one sort. On a scope it takes the value of the scope's own map if
that is of the sort, and asks the store below otherwise. A mismatch further in wins over a key
that is missing further out.
-/

namespace TypedConfig

/-- Why a typed read fails. -/
inductive PropertyError where
  | notFound (key : String)
  | wrongType (key expected : String) (found : Kind)
  deriving DecidableEq, Repr

/-- The message of a read that fails. -/
def PropertyError.message : PropertyError → String
  | .notFound key => "property '" ++ key ++ "' not found"
  | .wrongType key expected found =>
    "property '" ++ key ++ "' holds a " ++ found.text ++ ", not a " ++ expected

/-- What is asked for, by name, and how it is taken out of a value. -/
structure Reading (α : Type) where
  expected : String
  take : Value → Option α

namespace Reading

def int : Reading Int32 := ⟨Kind.int.text, fun v => match v with | .int n => some n | _ => none⟩

/-- An integer of either size. -/
def long : Reading Int64 := ⟨Kind.long.text, Value.long?⟩

def float : Reading Decimal.Single :=
  ⟨Kind.float.text, fun v => match v with | .float x => some x | _ => none⟩

/-- A fraction of either size. -/
def double : Reading Decimal.Double := ⟨Kind.double.text, Value.double?⟩

def bool : Reading Bool := ⟨Kind.bool.text, fun v => match v with | .bool b => some b | _ => none⟩

def string : Reading String := ⟨Kind.string.text, Value.string?⟩

/-- An array of any elements, as their kind and the items. -/
def array : Reading (Kind × List Value) :=
  ⟨(Kind.array .any).text,
    fun v => match v with | .array element items => some (element, items) | _ => none⟩

/-- An object of a type or with a capability. -/
def tagged (tag : String) : Reading (ObjectId × Content) :=
  ⟨tag, fun v => match v with
    | .object id content => if content.isA tag then some (id, content) else none
    | _ => none⟩

/-- What a reading makes of what it finds under a key. -/
def ofFound {α : Type} (r : Reading α) (key : String) : Option Value → Except PropertyError α
  | none => .error (.notFound key)
  | some v =>
    match r.take v with
    | some x => .ok x
    | none => .error (.wrongType key r.expected v.kind)

end Reading

/-- The types of which objects can be read. -/
inductive ObjectType where
  | file
  | map
  | list
  | socket
  | url
  | timeZone
  deriving DecidableEq, Repr

namespace ObjectType

/-- The canonical id of a type. -/
def typeId : ObjectType → String
  | .file => TypeId.file
  | .map => TypeId.map
  | .list => TypeId.list
  | .socket => TypeId.socket
  | .url => TypeId.url
  | .timeZone => TypeId.timeZone

/-- A type as it is named when an object of another one is found. -/
def expected : ObjectType → String
  | .file => "omni_construct::builtins::io::File"
  | .map => "omni_ir::map::PropertyMap"
  | .list => "omni_construct::builtins::collections::ValueList"
  | .socket => "omni_construct::builtins::net::SocketAddress"
  | .url => "omni_construct::builtins::net::Url"
  | .timeZone => "omni_construct::builtins::time::TimeZone"

/-- Whether an object is of a type. -/
def holds : ObjectType → Content → Bool
  | .file, .file _ => true
  | .map, .map _ => true
  | .list, .list _ => true
  | .socket, .socket .. => true
  | .url, .url _ => true
  | .timeZone, .timeZone _ => true
  | _, _ => false

/-- Reads an object of a type. -/
def reading (type : ObjectType) : Reading (ObjectId × Content) :=
  ⟨type.expected, fun v => match v with
    | .object id content => if type.holds content then some (id, content) else none
    | _ => none⟩

end ObjectType

namespace Store

variable {α : Type}

/-- The value under a key in the form that a reading asks for. -/
def read (r : Reading α) (key : String) : Store → Logged (Except PropertyError α)
  | .scope own outer =>
    match r.ofFound key (Entries.get? key own) with
    | .ok x => return .ok x
    | .error mismatch => do
      match ← outer.read r key with
      | .ok x => return .ok x
      | .error further =>
        match mismatch with
        | .notFound _ => return .error further
        | _ => return .error mismatch
  | s => do return r.ofFound key (← s.get? key)

/-- The same, with a default for a key that is not there. -/
def readOr (r : Reading α) (key : String) (default : α) (s : Store) :
    Logged (Except PropertyError α) := do
  match ← s.read r key with
  | .error (.notFound _) => return .ok default
  | result => return result

/-- Whether a reading finds what it asks for. -/
def canRead (r : Reading α) (key : String) (s : Store) : Logged Bool := do
  return (← s.read r key).toOption.isSome

/-- The object under a key if it is of a type. A scope does not look further out when its own map
has another value there. -/
def readObject (type : ObjectType) (key : String) (s : Store) :
    Logged (Except PropertyError (ObjectId × Content)) := do
  return type.reading.ofFound key (← s.get? key)

/-- Whether there is an object of a type under a key. -/
def containsObject (type : ObjectType) (key : String) (s : Store) : Logged Bool := do
  return (← s.readObject type key).toOption.isSome

end Store

end TypedConfig
