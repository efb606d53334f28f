import TypedConfig.Value.Basic

/-!
# Acceptance and coercion

A kind accepts a value that may be stored where the kind is asked for, and coercion turns such a
value into one of the kind by widening its numbers. An empty array is accepted by the kind of its
elements, any other array by its items.
-/

namespace TypedConfig.Kind

/-- Whether a value may be stored where a kind is asked for. -/
def accepts : Kind → Value → Bool
  | .any, _ => true
  | .int, .int _ => true
  | .long, .int _ => true
  | .long, .long _ => true
  | .float, .float _ => true
  | .double, .float _ => true
  | .double, .double _ => true
  | .bool, .bool _ => true
  | .string, .string _ => true
  | .object tag, .object _ content => content.isA tag
  | .array want, .array given items =>
    if items.isEmpty then given == .any || want.acceptsKind given
    else items.all fun item => want.accepts item
  | _, _ => false

/-- A value as one of a kind; `none` if the kind does not accept it. -/
def coerce : Kind → Value → Option Value
  | .any, v => some v
  | .long, .int n => some (.long n.toInt64)
  | .double, .float x => some (.double x.widen)
  | .array want, .array given items =>
    if !(Kind.array want).accepts (.array given items) then none
    else if want = .any ∨ given = want then some (.array given items)
    else (items.mapM fun item => want.coerce item).map (.array want)
  | kind, v => if kind.accepts v then some v else none

end TypedConfig.Kind
