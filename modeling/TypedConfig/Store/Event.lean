import TypedConfig.Value.Basic

/-!
# Events

An observed store reports each operation twice, before and after it runs. What an operation
reports is kept beside its result, in the order in which it happens. Logged results are a lawful
monad: how steps are grouped does not show in the log.
-/

universe u v

namespace TypedConfig

/-- An operation on a store, as it is reported. -/
inductive Operation where
  | get (key : String)
  | put (key : String) (value : Value)
  | remove (key : String)
  | contains (key : String)
  | clear
  | keys
  | putAll (count : Nat)
  | read (origin : String)

/-- An operation as it is written in a log. -/
def Operation.text : Operation → String
  | .get key => "get " ++ key
  | .put key value => "put " ++ key ++ " = " ++ value.text
  | .remove key => "remove " ++ key
  | .contains key => "contains " ++ key
  | .clear => "clear"
  | .keys => "keys"
  | .putAll count => "put all (" ++ toString count ++ " entries)"
  | .read origin => "read " ++ origin

/-- The beginning or the end of an operation. -/
inductive Event where
  | before (operation : Operation)
  | after (operation : Operation)

/-- An event as it is written in a log. -/
def Event.text : Event → String
  | .before operation => "before " ++ operation.text
  | .after operation => "after " ++ operation.text

/-- A result with the events that led to it. -/
@[ext]
structure Logged (α : Type u) where
  result : α
  events : List Event

namespace Logged

variable {α : Type u} {β : Type v}

/-- A result without events. -/
def quiet (x : α) : Logged α := ⟨x, []⟩

/-- Goes on with the result, and keeps the events of both steps. -/
def andThen (x : Logged α) (f : α → Logged β) : Logged β :=
  ⟨(f x.result).result, x.events ++ (f x.result).events⟩

/-- Puts the report of an operation around the events of a step. -/
def around (operation : Operation) (x : Logged α) : Logged α :=
  ⟨x.result, .before operation :: x.events ++ [.after operation]⟩

end Logged

instance : Monad Logged where
  pure := Logged.quiet
  bind := Logged.andThen

namespace Logged

variable {α β : Type u}

/-- A value that is known is the result. -/
@[simp] theorem result_pure (x : α) : (pure x : Logged α).result = x := rfl

/-- A value that is known is not logged. -/
@[simp] theorem events_pure (x : α) : (pure x : Logged α).events = [] := rfl

/-- The result of the first step is handed to the second one. -/
@[simp] theorem result_bind (x : Logged α) (f : α → Logged β) :
    (x >>= f).result = (f x.result).result := rfl

/-- The events of the second step come behind those of the first one. -/
@[simp] theorem events_bind (x : Logged α) (f : α → Logged β) :
    (x >>= f).events = x.events ++ (f x.result).events := rfl

/-- To report an operation does not change its result. -/
@[simp] theorem result_around (operation : Operation) (x : Logged α) :
    (x.around operation).result = x.result := rfl

/-- An operation is reported before and after its own events. -/
@[simp] theorem events_around (operation : Operation) (x : Logged α) :
    (x.around operation).events = .before operation :: x.events ++ [.after operation] := rfl

end Logged

instance : LawfulMonad Logged :=
  LawfulMonad.mk' Logged
    (fun x => Logged.ext rfl (List.append_nil x.events))
    (fun _ _ => rfl)
    (fun x f g => Logged.ext rfl (List.append_assoc x.events _ _))

namespace Logged

variable {α β : Type u}

/-- A result may be changed. -/
@[simp] theorem result_map (f : α → β) (x : Logged α) : (f <$> x).result = f x.result := rfl

/-- To change a result is not logged. -/
@[simp] theorem events_map (f : α → β) (x : Logged α) : (f <$> x).events = x.events :=
  List.append_nil _

/-- A step without events adds none. -/
theorem events_bind_of_quiet {f : α → Logged β} (hf : ∀ a, (f a).events = []) (x : Logged α) :
    (x >>= f).events = x.events := by
  rw [events_bind, hf, List.append_nil]

end Logged

end TypedConfig
