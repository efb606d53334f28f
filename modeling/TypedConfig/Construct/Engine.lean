import TypedConfig.Construct.Blueprint
import TypedConfig.Construct.Shortcuts
import TypedConfig.Construct.Validation

/-!
# Building values

A registry holds the blueprints of all types under their ids. A construction looks its type up,
calls the one factory that accepts the arguments, hands over the named arguments in order, runs
the last steps, and validates the value.
-/

namespace TypedConfig.Construct

/-- The known types, and the short names for them. -/
structure Registry where
  blueprints : Entries Blueprint
  shortcuts : Shortcuts

namespace Registry

/-- A registry of some blueprints; a later one wins over an earlier one with the same id. -/
def ofList (blueprints : List Blueprint) (shortcuts : Shortcuts) : Registry :=
  ⟨Entries.insertAll (blueprints.map fun b => (b.typeId, b)) [], shortcuts⟩

/-- The canonical id of a name. -/
def canonical (r : Registry) (name : String) : String := r.shortcuts.resolve name

/-- The blueprint of a type. -/
def lookup (r : Registry) (name : String) : Except ConstructError Blueprint :=
  match Entries.get? (r.canonical name) r.blueprints with
  | some b => .ok b
  | none => .error (.typeNotFound (r.canonical name))

def contains (r : Registry) (name : String) : Bool :=
  Entries.contains (r.canonical name) r.blueprints

end Registry

/-- A type under construction. -/
structure Instance where
  blueprint : Blueprint
  state : blueprint.State

/-- Whether parameters accept arguments, one each. -/
def acceptsAll : List Kind → List Value → Bool
  | [], [] => true
  | kind :: kinds, v :: vs => kind.accepts v && acceptsAll kinds vs
  | _, _ => false

/-- The arguments as values of the kinds of the parameters. -/
def coerceAll : List Kind → List Value → Option (List Value)
  | kind :: kinds, v :: vs => do
    let w ← kind.coerce v
    let ws ← coerceAll kinds vs
    return w :: ws
  | _, _ => some []

/-- Calls the one factory of a blueprint that accepts the arguments. -/
def create (b : Blueprint) (arguments : List Value) : Except ConstructError Instance :=
  match b.factories.filter fun f => acceptsAll f.parameters arguments with
  | [] => .error (.noFactory b.typeId (arguments.map Value.kind))
  | [factory] =>
    match coerceAll factory.parameters arguments with
    | none => .error (.instantiation b.typeId .argumentsNotCoerced)
    | some values =>
      match factory.create.run values with
      | .ok (state, _) => .ok ⟨b, state⟩
      | .error fault => .error (.instantiation b.typeId fault)
  | several => .error (.ambiguous b.typeId (arguments.map Value.kind) several.length)

/-- Where a named argument goes, and in which form: to the setter if there is one that accepts it,
else to the field, else to `put`. -/
def route (b : Blueprint) (key : String) (v : Value) : Except InjectionFault (Target × Value) :=
  match (Blueprint.slotKind? b.setters key).bind (·.coerce v) with
  | some w => .ok (.setter key, w)
  | none =>
    match Blueprint.slotKind? b.fields key with
    | some kind =>
      match kind.coerce v with
      | some w => .ok (.field key, w)
      | none => .error (.fieldKind kind v.kind)
    | none =>
      match b.put.bind (·.coerce v) with
      | some w => .ok (.put key, w)
      | none => .error .noSlot

namespace Instance

/-- Hands over one named argument. -/
def injectOne (i : Instance) (key : String) (v : Value) : Except ConstructError Instance :=
  match route i.blueprint key v with
  | .error fault => .error (.injection i.blueprint.typeId key fault)
  | .ok (target, w) =>
    match i.blueprint.inject target w i.state with
    | .ok state => .ok ⟨i.blueprint, state⟩
    | .error fault => .error (.injection i.blueprint.typeId key fault)

/-- Hands over named arguments in order. -/
def inject (i : Instance) : List (String × Value) → Except ConstructError Instance
  | [] => .ok i
  | (key, v) :: rest =>
    match i.injectOne key v with
    | .ok next => next.inject rest
    | .error e => .error e

/-- Runs the last steps and validates the value. -/
def finalize (i : Instance) (validator : Validator) : Build Value :=
  match i.blueprint.init i.state with
  | .error fault => Build.fail i.blueprint.typeId fault
  | .ok state => do
    let v ← i.blueprint.finish state
    match validator v with
    | none => return v
    | some e => throw (.validation e)

end Instance

/-- What constructions are built with. -/
structure Engine where
  registry : Registry
  validator : Validator

namespace Engine

/-- The type under construction after its factory has been called. -/
def construct (e : Engine) (type : String) (arguments : List Value) :
    Except ConstructError Instance :=
  match e.registry.lookup type with
  | .ok b => create b arguments
  | .error err => .error err

/-- Builds the value of a construction. -/
def build (e : Engine) (type : String) (arguments : List Value) (named : List (String × Value)) :
    Build Value :=
  match e.construct type arguments with
  | .error err => throw err
  | .ok i =>
    match i.inject named with
    | .error err => throw err
    | .ok i => i.finalize e.validator

end Engine

end TypedConfig.Construct
