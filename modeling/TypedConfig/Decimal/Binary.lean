/-!
# Binary floating-point numbers

A format bounds the significand and the exponent of `significand * 2 ^ exponent`. Rationals are
rounded to the nearest number of a format, a tie going to the even significand; this is how
decimal texts are read and how a number moves from one format to a wider one. All arithmetic is
exact, on natural numbers.
-/

namespace TypedConfig.Decimal

/-- Significands below `2 ^ precision`, exponents between two bounds. -/
structure Format where
  precision : Nat
  minExponent : Int
  maxExponent : Int
  deriving DecidableEq, Repr

/-- The 32-bit format. -/
def Format.single : Format := ⟨24, -149, 104⟩

/-- The 64-bit format. -/
def Format.double : Format := ⟨53, -1074, 971⟩

/-- A datum of a format: not a number, an infinity, or `± significand * 2 ^ exponent`. -/
inductive Binary (f : Format) where
  | nan
  | infinite (negative : Bool)
  | finite (negative : Bool) (significand : Nat) (exponent : Int)
  deriving DecidableEq, Repr

abbrev Single := Binary Format.single

abbrev Double := Binary Format.double

/-- The fraction `num / den / 2 ^ exponent`, as a numerator and a denominator. -/
def scaled (num den : Nat) (exponent : Int) : Nat × Nat :=
  (num * Nat.pow 2 (-exponent).toNat, den * Nat.pow 2 exponent.toNat)

/-- The fraction `digits * 10 ^ exponent`, as a numerator and a denominator. -/
def decimalFraction (digits : Nat) (exponent : Int) : Nat × Nat :=
  (digits * Nat.pow 10 exponent.toNat, Nat.pow 10 (-exponent).toNat)

/-- Rounds a quotient to a natural number, a tie going to the even one. -/
def roundEven (num den : Nat) : Nat :=
  let q := num / den
  let r := num % den
  if 2 * r > den || (2 * r == den && q % 2 == 1) then q + 1 else q

/-- A rounded quotient is at most half a unit away from the quotient. -/
theorem roundEven_near (num : Nat) {den : Nat} (h : 0 < den) :
    2 * (den * roundEven num den) ≤ 2 * num + den ∧
      2 * num ≤ 2 * (den * roundEven num den) + den := by
  have whole := Nat.div_add_mod num den
  have part := Nat.mod_lt num h
  simp only [roundEven]
  split
  · rename_i up
    simp only [Bool.or_eq_true, decide_eq_true_eq, Bool.and_eq_true, beq_iff_eq] at up
    rw [Nat.mul_add, Nat.mul_one]
    omega
  · rename_i down
    simp only [Bool.or_eq_true, decide_eq_true_eq, not_or, Nat.not_lt] at down
    omega

/-- A tie goes to the even neighbour. -/
theorem even_roundEven_of_tie {num den : Nat} (h : 2 * (num % den) = den) :
    roundEven num den % 2 = 0 := by
  simp only [roundEven, h, Nat.lt_irrefl, gt_iff_lt, decide_false, Bool.false_or, beq_self_eq_true,
    Bool.true_and, beq_iff_eq]
  split <;> omega

namespace Format

/-- The exponent at which a positive `num / den` is rounded: the least one that leaves a
significand below `2 ^ precision`, but not below the format's least exponent. -/
def exponentOf (f : Format) (num den : Nat) : Int :=
  let guess := max f.minExponent ((Nat.log2 num : Int) - Nat.log2 den - f.precision)
  let (n, d) := scaled num den guess
  if n / d < Nat.pow 2 f.precision then guess else guess + 1

/-- The number of the format that is nearest to `± num / den`. -/
def nearest (f : Format) (negative : Bool) (num den : Nat) : Binary f :=
  if num == 0 then .finite negative 0 f.minExponent
  else
    let e := f.exponentOf num den
    let (n, d) := scaled num den e
    let m := roundEven n d
    let (m, e) := if m == Nat.pow 2 f.precision then (m / 2, e + 1) else (m, e)
    if e > f.maxExponent then .infinite negative else .finite negative m e

/-- The decimal exponents beyond which every number of the formats in use is infinite or zero. -/
def decimalReach : Int := 400

/-- The number of the format that is nearest to `± digits * 10 ^ exponent`. -/
def ofDecimal (f : Format) (negative : Bool) (digits : Nat) (exponent : Int) : Binary f :=
  let size := exponent + (Nat.toDigits 10 digits).length
  if digits == 0 || size < -decimalReach then .finite negative 0 f.minExponent
  else if size > decimalReach then .infinite negative
  else
    let (num, den) := decimalFraction digits exponent
    f.nearest negative num den

end Format

namespace Binary

variable {f g : Format}

/-- Equality of numbers: zeros of both signs are equal, and `nan` is unequal to itself. -/
def equal : Binary f → Binary f → Bool
  | .infinite s, .infinite t => s == t
  | .finite s m e, .finite t n k => (m == 0 && n == 0) || (s == t && m == n && e == k)
  | _, _ => false

/-- The magnitude of a finite number, as a numerator and a denominator. -/
def magnitude (significand : Nat) (exponent : Int) : Nat × Nat :=
  (significand * Nat.pow 2 exponent.toNat, Nat.pow 2 (-exponent).toNat)

/-- The nearest number of another format. -/
def convert (g : Format) : Binary f → Binary g
  | .nan => .nan
  | .infinite s => .infinite s
  | .finite s m e => let (num, den) := magnitude m e; g.nearest s num den

/-- A 32-bit number as the same number in the 64-bit format. -/
def widen (x : Single) : Double := x.convert Format.double

end Binary

end TypedConfig.Decimal
