import TypedConfig.Construct.Error
import TypedConfig.Machine
import TypedConfig.Value.Coercion

/-!
# Blueprints

A blueprint is what a type shows to constructions: factories for positional arguments, slots for
named ones, and the steps that lead from a factory to the value. A type under construction is
handed only what it has asked for, already coerced.
-/

namespace TypedConfig.Construct

/-- A step of a construction on a machine. -/
abbrev Build (α : Type) := ExceptT ConstructError (StateM Machine) α

namespace Build

/-- Fails because the type refuses. -/
def fail {α : Type} (type : String) (fault : Fault) : Build α :=
  throw (.instantiation type fault)

/-- An object with an identity of its own. -/
def object (content : Content) : Build Value := do
  let m ← get
  let (id, m) := m.issue
  set m
  return .object id content

end Build

/-- Reads the arguments of a factory one after the other. -/
abbrev Arguments (α : Type) := StateT (List Value) (Except Fault) α

namespace Arguments

/-- The next argument in the form that `use` gives it. -/
def next {α : Type} (use : Value → Option α) : Arguments α := fun values =>
  match values with
  | [] => .error .argumentMissing
  | v :: rest =>
    match use v with
    | some x => .ok (x, rest)
    | none => .error (.argumentKind v.kind)

def any : Arguments Value := next some

def string : Arguments String := next Value.string?

def int : Arguments Int32 := next fun v => match v with | .int n => some n | _ => none

def long : Arguments Int64 := next Value.long?

def double : Arguments Decimal.Double := next Value.double?

def bool : Arguments Bool := next fun v => match v with | .bool b => some b | _ => none

/-- An array, as the kind of its elements and its items. -/
def array : Arguments (Kind × List Value) :=
  next fun v => match v with | .array element items => some (element, items) | _ => none

/-- An array of texts. -/
def strings : Arguments (List String) := next Value.strings?

/-- The content of an object. -/
def content : Arguments Content :=
  next fun v => match v with | .object _ c => some c | _ => none

/-- The path of a file object. -/
def file : Arguments String :=
  next fun v => match v with | .object _ (.file path) => some path | _ => none

/-- The entries of a map object. -/
def entries : Arguments (Entries Value) :=
  next fun v => match v with | .object _ (.map entries) => some entries | _ => none

end Arguments

/-- A named place that takes values of a kind. -/
structure Slot where
  name : String
  kind : Kind
  deriving DecidableEq, Repr

/-- The way on which a named argument is handed over. -/
inductive Target where
  | setter (key : String)
  | field (key : String)
  | put (key : String)
  deriving DecidableEq, Repr

/-- The name of the argument. -/
def Target.key : Target → String
  | .setter key => key
  | .field key => key
  | .put key => key

/-- The kinds of positional arguments, and what is created from them. -/
structure Factory (State : Type) where
  parameters : List Kind
  create : Arguments State

/-- A type that constructions can build. Factories, `inject` and `init` are functions of what they
are handed: they do nothing on the machine, and fail only with a fault of the type or of the
injection. All types here keep to that. A type in general may have effects in each of these steps
and fail with any error of a construction, as `finish` does here. -/
structure Blueprint where
  typeId : String
  State : Type
  factories : List (Factory State)
  setters : List Slot := []
  fields : List Slot := []
  put : Option Kind := none
  inject : Target → Value → State → Except InjectionFault State :=
    fun _ _ _ => .error .notInjectable
  init : State → Except Fault State := .ok
  finish : State → Build Value

namespace Blueprint

/-- The parameters of each factory. -/
def signatures (b : Blueprint) : List (List Kind) := b.factories.map (·.parameters)

/-- The kind of the first slot with a name. -/
def slotKind? (slots : List Slot) (name : String) : Option Kind :=
  (slots.find? (·.name == name)).map (·.kind)

end Blueprint

end TypedConfig.Construct
