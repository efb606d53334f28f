import TypedConfig.Construct.Error

/-!
# Validation

A validator looks at a value before it is handed out. The one for constraints collects what the
object, or each element of an array, reports about itself.
-/

namespace TypedConfig.Construct

/-- Says what is wrong with a value, if anything is. -/
abbrev Validator := Value → Option ValidationError

namespace Validator

/-- Accepts every value. -/
def lenient : Validator := fun _ => none

/-- Accepts the values that break no constraint. -/
def constraints : Validator := fun v =>
  if v.violations.isEmpty then none else some ⟨v.kind.text, v.violations⟩

end Validator

/-- A field that may not be missing. -/
def notNull {α : Type} (field : String) (value : Option α) : List Violation :=
  if value.isNone then [.null field] else []

/-- A field that may not be empty. -/
def notEmpty (field : String) (isEmpty : Bool) : List Violation :=
  if isEmpty then [.empty field] else []

/-- A field with a least value. -/
def atLeast (field : String) (value least : Int) : List Violation :=
  if value < least then [.below field value least] else []

end TypedConfig.Construct
