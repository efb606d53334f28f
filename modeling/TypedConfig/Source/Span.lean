/-!
# Spans of a source text

A span is a range of byte offsets, its end exclusive. Offsets are kept within 32 bits: larger
ones are cut to the largest offset there is.
-/

namespace TypedConfig.Source

/-- The largest offset that a span holds. -/
def maxOffset : Nat := Nat.pow 2 32 - 1

/-- A range of byte offsets, end exclusive. -/
structure Span where
  start : Nat
  stop : Nat
  deriving DecidableEq, Repr, Inhabited

namespace Span

/-- The span of a range of offsets of any size. -/
def ofRange (start stop : Nat) : Span := ⟨min start maxOffset, min stop maxOffset⟩

/-- The empty span at an offset. -/
def point (offset : Nat) : Span := ⟨offset, offset⟩

/-- The number of bytes from the start to the end. -/
def length (s : Span) : Nat := s.stop - s.start

def isEmpty (s : Span) : Bool := s.start == s.stop

/-- The smallest span that covers both. -/
def merge (s t : Span) : Span := ⟨min s.start t.start, max s.stop t.stop⟩

/-- The two offsets with two dots between them. -/
def text (s : Span) : String := toString s.start ++ ".." ++ toString s.stop

end Span

end TypedConfig.Source
