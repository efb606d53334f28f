import TypedConfig.Decimal.Shortest

/-!
# Texts of numbers

Two notations for binary numbers. The plain one writes every number with a decimal point or
without one, never with an exponent. The configuration notation always shows a fraction, and
leaves the positional form outside the magnitudes from `10 ^ -3` up to `10 ^ 7`.
-/

namespace TypedConfig.Decimal

/-- A decimal written positionally, with a point only where there is a fraction. -/
def Digits.positional (d : Digits) : String :=
  let ds := Nat.toDigits 10 d.digits
  if 0 ≤ d.exponent then String.ofList (ds ++ List.replicate d.exponent.toNat '0')
  else
    let places := (-d.exponent).toNat
    if places < ds.length then
      String.ofList (ds.take (ds.length - places) ++ '.' :: ds.drop (ds.length - places))
    else "0." ++ String.ofList (List.replicate (places - ds.length) '0' ++ ds)

/-- A decimal written with one digit before the point, at least one after it, and an exponent. -/
def Digits.scientific (d : Digits) : String :=
  let ds := Nat.toDigits 10 d.digits
  let fraction := if ds.length ≤ 1 then ['0'] else ds.drop 1
  String.ofList (ds.take 1 ++ '.' :: fraction) ++ "E" ++ toString (d.exponent + ds.length - 1)

namespace Binary

variable {f : Format}

/-- The sign in front of a number. -/
def signText (negative : Bool) : String := if negative then "-" else ""

/-- A number without an exponent, and without a point if it has no fraction. -/
def plain : Binary f → String
  | .nan => "NaN"
  | .infinite s => signText s ++ "inf"
  | .finite s m e => signText s ++ if m == 0 then "0" else (shortest f m e).positional

/-- Whether the configuration notation is positional for this magnitude. -/
def isPositional (significand : Nat) (exponent : Int) : Bool :=
  let (num, den) := magnitude significand exponent
  den ≤ 1000 * num && num < Nat.pow 10 7 * den

/-- Adds `.0` to a positional text without a point. -/
def withFraction (text : String) : String :=
  if text.toList.contains '.' then text else text ++ ".0"

/-- A number as configuration authors write it. -/
def text : Binary f → String
  | .nan => "NaN"
  | .infinite s => signText s ++ "Infinity"
  | .finite s m e =>
    signText s ++
      if m == 0 then "0.0"
      else if isPositional m e then withFraction (shortest f m e).positional
      else (shortest f m e).scientific

end Binary

end TypedConfig.Decimal
