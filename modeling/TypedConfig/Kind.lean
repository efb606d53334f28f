/-!
# Kinds

The kind of a value, which is also what a parameter or a slot asks for. A kind accepts another
one if a value of the second may stand where the first is asked for: `any` accepts all kinds,
numbers widen within the integers and within the fractions, and arrays follow their elements.
-/

namespace TypedConfig

/-- The kind of a value, or of a place that takes values. -/
inductive Kind where
  | int
  | long
  | float
  | double
  | bool
  | string
  | object (tag : String)
  | array (element : Kind)
  | any
  deriving DecidableEq, Repr, Inhabited

namespace Kind

/-- The kind that a primitive type tag names; `none` for the tags of constructed types. -/
def ofPrimitiveTag (tag : String) : Option Kind :=
  if tag = "int" ∨ tag = "Integer" then some .int
  else if tag = "long" ∨ tag = "Long" then some .long
  else if tag = "float" ∨ tag = "Float" then some .float
  else if tag = "double" ∨ tag = "Double" then some .double
  else if tag = "boolean" ∨ tag = "Boolean" ∨ tag = "bool" then some .bool
  else if tag = "String" ∨ tag = "string" then some .string
  else none

/-- Whether a value of the second kind may stand where the first kind is asked for. -/
def acceptsKind : Kind → Kind → Bool
  | .any, _ => true
  | .long, .int => true
  | .double, .float => true
  | .array want, .array given => acceptsKind want given
  | want, given => want == given

/-- A kind as it is written in messages. -/
def text : Kind → String
  | .int => "int"
  | .long => "long"
  | .float => "float"
  | .double => "double"
  | .bool => "boolean"
  | .string => "String"
  | .object tag => tag
  | .array element => element.text ++ "[]"
  | .any => "any"

end Kind

end TypedConfig
