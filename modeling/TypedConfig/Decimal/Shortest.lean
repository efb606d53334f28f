import TypedConfig.Decimal.Binary

/-!
# The shortest decimal of a binary number

Among the decimals that read back as a given number the shortest one is taken, and among several
of that length the one nearest to the number, the upper one on a tie. On a grid of decimals of
one length only the two neighbours of the number can be nearest, so only they are tried.
-/

namespace TypedConfig.Decimal

/-- A decimal `digits * 10 ^ exponent`. -/
structure Digits where
  digits : Nat
  exponent : Int
  deriving DecidableEq, Repr

/-- Raises a guess of the decimal exponent of `num / den` while a power of ten above it fits. -/
def raiseExponent (num den : Nat) : Nat → Int → Int
  | 0, k => k
  | steps + 1, k =>
    let (pn, pd) := decimalFraction 1 (k + 1)
    if pn * den ≤ num * pd then raiseExponent num den steps (k + 1) else k

/-- The exponent of the leading decimal digit of a positive `num / den`. -/
def leadingExponent (num den : Nat) : Int :=
  let bits : Int := (Nat.log2 num : Int) - Nat.log2 den - 1
  raiseExponent num den 4 (bits * 30103 / 100000 - 1)

namespace Binary

variable {f : Format}

/-- The decimals with `n` digits on both sides of a number: the lower one and the distances of
both to the number, in a common unit. -/
def neighbours (num den : Nat) (leading : Int) (n : Nat) : Digits × Nat × Nat :=
  let k := leading + 1 - n
  let (sn, sd) := decimalFraction 1 k
  let lower := num * sd / (den * sn)
  let rest := num * sd % (den * sn)
  (⟨lower, k⟩, rest, den * sn - rest)

/-- Writes `10 ^ n * 10 ^ k` with one digit. -/
def Digits.normal (n : Nat) (d : Digits) : Digits :=
  if d.digits == Nat.pow 10 n then ⟨1, d.exponent + n⟩ else d

/-- The best decimal with `n` digits that satisfies `reads`, if there is one. -/
def best (reads : Digits → Bool) (num den : Nat) (leading : Int) (n : Nat) : Option Digits :=
  let (lower, below, above) := neighbours num den leading n
  let upper : Digits := ⟨lower.digits + 1, lower.exponent⟩
  if reads lower && (below < above || !reads upper) then some lower
  else if reads upper then some (Digits.normal n upper)
  else none

/-- The best decimal with the least number of digits, from `n` on and for at most `more` further
ones. -/
def leastDigits (reads : Digits → Bool) (num den : Nat) (leading : Int) : Nat → Nat → Digits
  | 0, n => (neighbours num den leading n).1
  | more + 1, n =>
    match best reads num den leading n with
    | some d => d
    | none => leastDigits reads num den leading more (n + 1)

/-- The shortest decimal of `significand * 2 ^ exponent`, which is positive. -/
def shortest (f : Format) (significand : Nat) (exponent : Int) : Digits :=
  let (num, den) := magnitude significand exponent
  let reads (d : Digits) : Bool :=
    f.ofDecimal false d.digits d.exponent == .finite false significand exponent
  leastDigits reads num den (leadingExponent num den) 17 1

end Binary

end TypedConfig.Decimal
