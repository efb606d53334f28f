import TypedConfig.Source.Span

/-!
# Lines and columns

A line table holds the byte offset of each line start of a text. It turns an offset into a line
and a column, both counted from one; the column counts characters. An offset past the end stands
for the end, and an offset inside a character for the start of its line.

Lines and columns are numbers of 32 bits, as offsets are. There is one offset more than there are
numbers that start at one, so that the last line or column may have no number.
-/

namespace TypedConfig.Source

/-- A line and a column, counted from one in 32 bits. -/
structure Position where
  line : UInt32
  column : UInt32
  deriving DecidableEq, Repr, Inhabited

/-- The numbers of a position are read as natural numbers. -/
instance numberToNat : Coe UInt32 Nat := ⟨UInt32.toNat⟩

/-- The number of the line or the column at an index. Indices above the largest offset have the
largest number. The largest offset itself is not cut, and the step to its number goes round to zero
(where overflow is checked, the program stops instead). -/
def numbered (index : Nat) : UInt32 :=
  (if index ≤ maxOffset then UInt32.ofNat index else UInt32.ofNat (maxOffset - 1)) + 1

/-- The number of bytes of a list of characters. -/
def byteLength : List Char → Nat
  | [] => 0
  | c :: cs => c.utf8Size + byteLength cs

/-- The offsets just after each line feed, for a text that begins at `offset`. -/
def lineStartsAfter (offset : Nat) : List Char → List Nat
  | [] => []
  | c :: cs =>
    let next := offset + c.utf8Size
    if c == '\n' then min next maxOffset :: lineStartsAfter next cs else lineStartsAfter next cs

/-- The offset of each character of a text that begins at `offset`, and the offset of its end. -/
def boundaries (offset : Nat) : List Char → List Nat
  | [] => [offset]
  | c :: cs => offset :: boundaries (offset + c.utf8Size) cs

/-- The number of characters between two offsets; `none` if one of them is no boundary. -/
def charsBetween (text : List Char) (start stop : Nat) : Option Nat :=
  let bs := boundaries 0 text
  if bs.contains start && bs.contains stop then
    some (bs.countP fun b => start ≤ b && b < stop)
  else none

/-- The line starts of a text, with the text. -/
structure LineTable where
  text : List Char
  starts : List Nat
  deriving Repr

namespace LineTable

/-- The line table of a text. -/
def ofText (text : List Char) : LineTable := ⟨text, 0 :: lineStartsAfter 0 text⟩

/-- The number of lines. -/
def lineCount (t : LineTable) : Nat := t.starts.length

/-- The index of the line that holds an offset: the last line that starts at it or before it. Of
several line starts that have been cut to the largest offset, the last one counts. -/
def lineIndex (t : LineTable) (offset : Nat) : Nat :=
  (t.starts.takeWhile (· ≤ offset)).length - 1

/-- The line that holds an offset. -/
def lineOf (t : LineTable) (offset : Nat) : UInt32 := numbered (t.lineIndex offset)

/-- The line and the column of an offset. The line start is looked up by the number of the line. -/
def position (t : LineTable) (offset : Nat) : Position :=
  let line := t.lineOf offset
  let start := t.starts.getD (line - 1).toNat 0
  let stop := max start (min offset (byteLength t.text))
  ⟨line, numbered ((charsBetween t.text start stop).getD 0)⟩

end LineTable

end TypedConfig.Source
