/-!
# Punycode

A label of a domain name in ASCII. The ASCII characters come first; then each further character is
inserted, in the order of the code points, by a number that tells how far it is from the last one.
The numbers are written in a mixed base whose thresholds follow the numbers before.
-/

namespace TypedConfig.Net.Punycode

/-- The digit for a number below 36. -/
def digit (n : Nat) : Char := Char.ofNat (if n < 26 then 97 + n else 22 + n)

/-- The threshold of the digit at a position under a bias. -/
def threshold (bias position : Nat) : Nat := max 1 (min 26 (position - bias))

/-- The digits of a number, from a position on. -/
def digitsFrom (bias position n : Nat) : List Char :=
  let t := threshold bias position
  if n < t then [digit n]
  else digit (t + (n - t) % (36 - t)) :: digitsFrom bias (position + 36) ((n - t) / (36 - t))
  termination_by n
  decreasing_by
    have ht : 1 ≤ threshold bias position := Nat.le_max_left _ _
    have hd := Nat.div_le_self (n - threshold bias position) (36 - threshold bias position)
    omega

/-- The bias that a number of this size leads to. -/
def biasFrom (k delta : Nat) : Nat :=
  if 455 < delta then biasFrom (k + 36) (delta / 35) else k + 36 * delta / (delta + 38)
  termination_by delta
  decreasing_by omega

/-- The bias after a number, when `count` characters have been placed. -/
def adapt (delta count : Nat) (first : Bool) : Nat :=
  let delta := if first then delta / 700 else delta / 2
  biasFrom 0 (delta + delta / count)

/-- An encoding that is under way: the next code point, the distance so far, the bias, the number
of characters that have been placed, and the text. -/
structure Progress where
  next : Nat
  delta : Nat
  bias : Nat
  placed : Nat
  text : List Char

/-- Goes over one character of the label while the characters with the code point `n` are placed. -/
def Progress.pass (ascii n : Nat) (p : Progress) (c : Nat) : Progress :=
  if c < n then { p with delta := p.delta + 1 }
  else if c = n then
    { p with
      delta := 0
      bias := adapt p.delta (p.placed + 1) (p.placed == ascii)
      placed := p.placed + 1
      text := p.text ++ digitsFrom p.bias 36 p.delta }
  else p

/-- Places all characters with the code point `n`. -/
def Progress.place (label : List Nat) (ascii : Nat) (p : Progress) (n : Nat) : Progress :=
  let start := { p with delta := p.delta + (n - p.next) * (p.placed + 1) }
  let done := label.foldl (Progress.pass ascii n) start
  { done with delta := done.delta + 1, next := n + 1 }

/-- The encoding of a label. -/
def encode (label : List Char) : List Char :=
  let ascii := label.filter fun c => c.toNat < 128
  let codes := label.map Char.toNat
  let further := (codes.filter (128 ≤ ·)).mergeSort.eraseDups
  let start : Progress :=
    ⟨128, 0, 72, ascii.length, ascii ++ if ascii.isEmpty then [] else ['-']⟩
  (further.foldl (Progress.place codes ascii.length) start).text

end TypedConfig.Net.Punycode
