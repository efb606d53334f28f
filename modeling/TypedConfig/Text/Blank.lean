/-!
# White space, words and lines

White space is the Unicode property `White_Space`. Texts are cut into words at runs of it, and
into lines at a line feed with an optional carriage return before it. A text that ends with a
line break has no empty last line.
-/

namespace TypedConfig.Text

/-- The characters with the Unicode property `White_Space`. -/
def isBlank (c : Char) : Bool :=
  let n := c.toNat
  (9 ≤ n && n ≤ 13) || n == 0x20 || n == 0x85 || n == 0xA0 || n == 0x1680 ||
    (0x2000 ≤ n && n ≤ 0x200A) || n == 0x2028 || n == 0x2029 || n == 0x202F || n == 0x205F ||
    n == 0x3000

/-- Drops what satisfies `p` at the end of a list. -/
def dropWhileEnd {α : Type} (p : α → Bool) (xs : List α) : List α :=
  (xs.reverse.dropWhile p).reverse

/-- Drops white space at both ends. -/
def trim (cs : List Char) : List Char :=
  dropWhileEnd isBlank (cs.dropWhile isBlank)

/-- Adds a character in front of the first piece. -/
def consHead (c : Char) : List (List Char) → List (List Char)
  | [] => [[c]]
  | piece :: pieces => (c :: piece) :: pieces

/-- The pieces between the characters that satisfy `p`, with the empty ones. -/
def splitOn (p : Char → Bool) : List Char → List (List Char)
  | [] => [[]]
  | c :: cs => if p c then [] :: splitOn p cs else consHead c (splitOn p cs)

/-- The maximal runs of characters that are not white space. -/
def words (cs : List Char) : List (List Char) :=
  (splitOn isBlank cs).filter (!·.isEmpty)

/-- The lines of a text without their line breaks. -/
def lines : List Char → List (List Char)
  | [] => []
  | '\n' :: cs => [] :: lines cs
  | '\r' :: '\n' :: cs => [] :: lines cs
  | c :: cs => consHead c (lines cs)

/-- The white space of ASCII is white space. -/
theorem isBlank_of_isWhitespace {c : Char} (h : c.isWhitespace = true) : isBlank c = true := by
  simp only [Char.isWhitespace, Bool.or_eq_true, decide_eq_true_eq] at h
  rcases h with ((rfl | rfl) | rfl) | rfl <;> rfl

/-- A character in front of the pieces is in front of their text. -/
@[simp] theorem flatten_consHead (c : Char) (pieces : List (List Char)) :
    (consHead c pieces).flatten = c :: pieces.flatten := by
  cases pieces <;> simp [consHead]

/-- There is always a piece. -/
theorem splitOn_ne_nil (p : Char → Bool) (cs : List Char) : splitOn p cs ≠ [] := by
  cases cs with
  | nil => simp [splitOn]
  | cons c cs => by_cases h : p c <;> cases hs : splitOn p cs <;> simp [splitOn, h, hs, consHead]

/-- A split takes the separators out and keeps all else in its order. -/
theorem flatten_splitOn (p : Char → Bool) (cs : List Char) :
    (splitOn p cs).flatten = cs.filter (!p ·) := by
  induction cs with
  | nil => rfl
  | cons c cs ih => by_cases h : p c <;> simp [splitOn, h, ih]

/-- No piece of a split contains a separator. -/
theorem eq_false_of_mem_splitOn {p : Char → Bool} {cs piece : List Char} {c : Char}
    (hpiece : piece ∈ splitOn p cs) (hc : c ∈ piece) : p c = false := by
  have kept : c ∈ cs.filter (!p ·) :=
    flatten_splitOn p cs ▸ List.mem_flatten.2 ⟨piece, hpiece, hc⟩
  simpa using (List.mem_filter.1 kept).2

/-- There is one piece more than there are separators. -/
theorem length_splitOn (p : Char → Bool) (cs : List Char) :
    (splitOn p cs).length = cs.countP p + 1 := by
  induction cs with
  | nil => rfl
  | cons c cs ih =>
    by_cases h : p c
    · simp [splitOn, h, ih]
    · cases hs : splitOn p cs with
      | nil => exact absurd hs (splitOn_ne_nil p cs)
      | cons piece pieces => simpa [splitOn, h, hs, consHead] using ih

end TypedConfig.Text
