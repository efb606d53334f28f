import TypedConfig.Token.Basic
import TypedConfig.Value.Basic

/-!
# Syntax trees

A configuration text is a list of statements. Every node carries the span of the text that it was
read from.
-/

namespace TypedConfig.Syntax

open Source (Span)

/-- The name of a key or of a type, as it stands in the text. -/
structure Name where
  text : String
  span : Span
  deriving DecidableEq, Repr

/-- A value that is written out. -/
inductive Literal where
  | int (n : Int32)
  | long (n : Int64)
  | float (x : Decimal.Single)
  | double (x : Decimal.Double)
  | bool (b : Bool)
  | string (s : String)
  deriving DecidableEq, Repr

/-- The value that a literal stands for. -/
def Literal.value : Literal → Value
  | .int n => .int n
  | .long n => .long n
  | .float x => .float x
  | .double x => .double x
  | .bool b => .bool b
  | .string s => .string s

/-- An expression. -/
inductive Expr where
  | literal (value : Literal) (span : Span)
  | variable (name : String) (span : Span)
  | concat (left right : Expr) (span : Span)
  | array (tag : Option Name) (items : List Expr) (span : Span)
  | construct (type : Name) (arguments : List Expr) (named : List (Name × Expr)) (span : Span)
  deriving Repr

/-- The text that an expression was read from. -/
def Expr.span : Expr → Span
  | .literal _ s => s
  | .variable _ s => s
  | .concat _ _ s => s
  | .array _ _ s => s
  | .construct _ _ _ s => s

instance : Inhabited Expr := ⟨.variable "" default⟩

/-- What a statement does: it sets a key, sets a key that is not there yet, or reads another
source. -/
inductive Action where
  | set (key : Name) (value : Expr)
  | default (key : Name) (value : Expr)
  | include (source : Expr)
  deriving Repr

/-- A statement with its place in the text, the semicolon included. -/
structure Statement where
  action : Action
  span : Span
  deriving Repr

/-- The statements of a text, in order. -/
abbrev Program := List Statement

end TypedConfig.Syntax
