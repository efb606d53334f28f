/-!
# Percent-encoding

Characters outside a set are written as the bytes of their encoding, two hexadecimal digits after
a percent sign for each byte.
-/

namespace TypedConfig.Net

/-- A hexadecimal digit in upper case. -/
def upperHex (n : Nat) : Char :=
  if n < 10 then Char.ofNat (48 + n) else Char.ofNat (55 + n)

/-- The value of a hexadecimal digit. -/
def hexNibble? (c : Char) : Option Nat :=
  let n := c.toNat
  if 48 ≤ n && n ≤ 57 then some (n - 48)
  else if 97 ≤ n && n ≤ 102 then some (n - 87)
  else if 65 ≤ n && n ≤ 70 then some (n - 55)
  else none

/-- The bytes of a character, each with a percent sign. -/
def percentChar (c : Char) : List Char :=
  (String.singleton c).toUTF8.toList.flatMap fun b =>
    ['%', upperHex (b.toNat / 16), upperHex (b.toNat % 16)]

/-- Control characters and the characters outside ASCII. -/
def isControl (c : Char) : Bool := c.toNat < 0x20 || c.toNat ≥ 0x7F

/-- Encodes the characters that satisfy `p`. -/
def percentEncode (p : Char → Bool) (cs : List Char) : List Char :=
  cs.flatMap fun c => if p c then percentChar c else [c]

/-- The bytes of a text in which percent signs with two digits stand for bytes. -/
def percentDecode : List Char → List UInt8
  | [] => []
  | '%' :: a :: b :: cs =>
    match hexNibble? a, hexNibble? b with
    | some m, some n => UInt8.ofNat (16 * m + n) :: percentDecode cs
    | _, _ => '%'.toNat.toUInt8 :: percentDecode (a :: b :: cs)
  | c :: cs => (String.singleton c).toUTF8.toList ++ percentDecode cs

end TypedConfig.Net
