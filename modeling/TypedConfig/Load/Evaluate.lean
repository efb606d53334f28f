import TypedConfig.Construct.Engine
import TypedConfig.Load.Error
import TypedConfig.Store.Views

/-!
# Evaluation

An expression is evaluated from left to right against a store, which it reads and never changes.
What it does change is kept apart from the store: the machine on which constructions work, and
the log of what has been read.
-/

namespace TypedConfig

/-- What an evaluation leaves behind. -/
structure Trail where
  machine : Machine
  events : List Event

/-- A fault with its place in the text. -/
structure Located where
  span : Source.Span
  fault : TextFault

/-- A step of an evaluation. -/
abbrev Evaluation (α : Type) := ExceptT Located (StateM Trail) α

namespace Evaluation

/-- Fails at a place of the text. -/
def fail {α : Type} (span : Source.Span) (fault : TextFault) : Evaluation α := throw ⟨span, fault⟩

/-- Reads from a store and keeps what is reported. -/
def ofLogged {α : Type} (x : Logged α) : Evaluation α := do
  modify fun trail => { trail with events := trail.events ++ x.events }
  return x.result

/-- A construction at a place of the text. -/
def ofBuild {α : Type} (span : Source.Span) (b : Construct.Build α) : Evaluation α := do
  let trail ← get
  let (result, machine) := (b.run.run trail.machine : Except Construct.ConstructError α × Machine)
  set { trail with machine := machine }
  match result with
  | .ok x => return x
  | .error e => fail span (.construction e)

end Evaluation

namespace Syntax

/-- Two values joined: a text with anything, or an array with an array. -/
def joinValues (left right : Value) : Except TextFault Value :=
  match left, right with
  | .string s, v => .ok (.string (s ++ v.text))
  | .array k xs, .array l ys =>
    match Value.appendArrays k xs l ys with
    | some (element, items) => .ok (.array element items)
    | none => .error (.notAppended k l)
  | v, w => .error (.notJoined v.kind w.kind)

/-- The kind that an array tag names: a primitive one or a registered type. -/
def tagKind (registry : Construct.Registry) (tag : Name) : Except Located Kind :=
  match Kind.ofPrimitiveTag tag.text with
  | some kind => .ok kind
  | none =>
    match registry.lookup tag.text with
    | .ok _ => .ok (.object (registry.canonical tag.text))
    | .error e => .error ⟨tag.span, .construction e⟩

/-- The items of an array as values of the kind of its elements. -/
def fitItems (element : Kind) (misfit : Source.Span → Kind → Located) :
    List Value → List Source.Span → Except Located (List Value)
  | v :: vs, span :: spans =>
    match element.coerce v with
    | some w => do return w :: (← fitItems element misfit vs spans)
    | none => .error (misfit span v.kind)
  | _, _ => .ok []

/-- An array of some items. Without a declared kind the first item decides, and a misfit is a fault
of the whole array. -/
def arrayOf (declared : Option Kind) (items : List Value) (places : List Source.Span)
    (span : Source.Span) : Except Located Value :=
  match declared with
  | some element => do
    let items ← fitItems element (fun place given => ⟨place, .misfit given element⟩) items places
    return .array element items
  | none => do
    let element := (items.head?.map Value.kind).getD .any
    let items ← fitItems element (fun _ given => ⟨span, .mixed given element⟩) items places
    return .array element items

/-- The kind that an array declares, if it has a tag. -/
def declaredKind (registry : Construct.Registry) : Option Name → Except Located (Option Kind)
  | none => .ok none
  | some tag => (tagKind registry tag).map some

/-- The value of a variable. The key for the store itself stands for a map of all entries. -/
def lookUp (store : Store) (name : String) (span : Source.Span) : Evaluation Value := do
  if name = selfKey then
    let entries ← Evaluation.ofLogged store.entries
    Evaluation.ofBuild span (Construct.Build.object (.map entries))
  else
    match ← Evaluation.ofLogged (store.get? name) with
    | some v => return v
    | none => Evaluation.fail span (.undefined name)

mutual

/-- The value of an expression. -/
def Expr.evaluate (engine : Construct.Engine) (store : Store) : Expr → Evaluation Value
  | .literal value _ => return value.value
  | .variable name span => lookUp store name span
  | .concat left right span => do
    let v ← left.evaluate engine store
    let w ← right.evaluate engine store
    match joinValues v w with
    | .ok joined => return joined
    | .error fault => Evaluation.fail span fault
  | .array tag items span => do
    let declared ← declaredKind engine.registry tag
    let values ← Expr.evaluateAll engine store items
    arrayOf declared values (items.map Expr.span) span
  | .construct type arguments named span => do
    let arguments ← Expr.evaluateAll engine store arguments
    let named ← Expr.evaluateNamed engine store named
    Evaluation.ofBuild span (engine.build type.text arguments named)

/-- The values of several expressions, from left to right. -/
def Expr.evaluateAll (engine : Construct.Engine) (store : Store) :
    List Expr → Evaluation (List Value)
  | [] => return []
  | e :: es => do
    let v ← e.evaluate engine store
    return v :: (← Expr.evaluateAll engine store es)

/-- The values of named arguments, from left to right. -/
def Expr.evaluateNamed (engine : Construct.Engine) (store : Store) :
    List (Name × Expr) → Evaluation (List (String × Value))
  | [] => return []
  | (name, e) :: rest => do
    let v ← e.evaluate engine store
    return (name.text, v) :: (← Expr.evaluateNamed engine store rest)

end

end Syntax

end TypedConfig
