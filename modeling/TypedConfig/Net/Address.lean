import TypedConfig.Net.Percent
import TypedConfig.Text.Blank

/-!
# Network addresses

An address is a number of 32 bits, or eight pieces of 16 bits. The first form is written as four
bytes with dots between them; the second one in hexadecimal with colons, where the longest run of
zero pieces is left out.
-/

namespace TypedConfig.Net.Address

def isDigit (c : Char) : Bool := '0' ≤ c && c ≤ '9'

/-- The number that digits of a base stand for. -/
def numberIn? (base : Nat) (cs : List Char) : Option Nat :=
  cs.foldlM (fun n c => ((hexNibble? c).filter (· < base)).map (base * n + ·)) 0

/-- The value of a part of an address: decimal, octal after `0`, or hexadecimal after `0x`. -/
def part? : List Char → Option Nat
  | [] => none
  | '0' :: 'x' :: cs => numberIn? 16 cs
  | '0' :: c :: cs => numberIn? 8 (c :: cs)
  | cs => numberIn? 10 cs

/-- The parts between the dots, without an empty part at the end. -/
def parts (cs : List Char) : List (List Char) :=
  let pieces := Text.splitOn (· == '.') cs
  if pieces.length > 1 && pieces.getLast? == some [] then pieces.dropLast else pieces

/-- Whether a domain ends in a number, and so has to be an address. -/
def endsInNumber (cs : List Char) : Bool :=
  match (parts cs).getLast? with
  | none => false
  | some [] => false
  | some last => last.all isDigit || (part? last).isSome && last.take 2 == ['0', 'x']

/-- The address that a list of parts stands for: all but the last are bytes, the last fills the
rest. -/
def short? (cs : List Char) : Option Nat := do
  let numbers ← (parts cs).mapM part?
  let last ← numbers.getLast?
  let before := numbers.dropLast
  if numbers.length > 4 || before.any (· > 255) || last ≥ Nat.pow 256 (5 - numbers.length) then none
  else
    return ((before.zipIdx).map fun (n, i) => n * Nat.pow 256 (3 - i)).foldl (· + ·) last

/-- An address of 32 bits as four bytes. -/
def shortText (n : Nat) : List Char :=
  (".".intercalate
    ([n / Nat.pow 256 3, n / Nat.pow 256 2 % 256, n / 256 % 256, n % 256].map toString)).toList

/-- A piece of one to four hexadecimal digits. -/
def piece? (cs : List Char) : Option Nat :=
  if cs.isEmpty || cs.length > 4 then none else numberIn? 16 cs

/-- A byte in decimal digits without zeros in front. -/
def byte? (cs : List Char) : Option Nat :=
  if cs.isEmpty || cs.length > 3 || (cs.length > 1 && cs.head? == some '0') then none
  else (numberIn? 10 cs).filter (· < 256)

/-- Two pieces that are written as four bytes with dots between them. -/
def dottedPieces? (cs : List Char) : Option (List Nat) := do
  match ← (Text.splitOn (· == '.') cs).mapM byte? with
  | [a, b, c, d] => return [256 * a + b, 256 * c + d]
  | _ => none

/-- Pieces with colons between them; the last two may be written as bytes if `dotted` says so. -/
def pieces? (dotted : Bool) (cs : List Char) : Option (List Nat) :=
  if cs.isEmpty then some []
  else do
    let parts := Text.splitOn (· == ':') cs
    let last := parts.getLast?.getD []
    if dotted && last.contains '.' then
      return (← parts.dropLast.mapM piece?) ++ (← dottedPieces? last)
    else parts.mapM piece?

/-- The texts before and after the first two colons that follow each other. -/
def cutColons : List Char → Option (List Char × List Char)
  | [] => none
  | [_] => none
  | c :: d :: cs =>
    if c = ':' ∧ d = ':' then some ([], cs)
    else (cutColons (d :: cs)).map fun (left, right) => (c :: left, right)

/-- The eight pieces of an address. Two colons stand for one or more zero pieces. -/
def long? (cs : List Char) : Option (List Nat) := do
  match cutColons cs with
  | none =>
    let pieces ← pieces? true cs
    if pieces.length = 8 then return pieces else none
  | some (left, right) =>
    let before ← pieces? false left
    let after ← pieces? true right
    if before.length + after.length < 8 then
      return before ++ List.replicate (8 - before.length - after.length) 0 ++ after
    else none

/-- The place and the length of the longest run of zeros; the first one of equal length, and one
that is longer than `best`. -/
def longestRun (index : Nat) (best : Nat × Nat) : List Nat → Nat × Nat
  | [] => best
  | n :: ns =>
    let length := ((n :: ns).takeWhile (· == 0)).length
    longestRun (index + 1) (if best.2 < length then (index, length) else best) ns

/-- Pieces in hexadecimal with colons between them. -/
def piecesText (pieces : List Nat) : List Char :=
  (":".intercalate (pieces.map fun n => String.ofList (Nat.toDigits 16 n))).toList

/-- An address of eight pieces as a text. A run of at least two zeros is left out. -/
def longText (pieces : List Nat) : List Char :=
  let (index, length) := longestRun 0 (0, 1) pieces
  if length < 2 then piecesText pieces
  else piecesText (pieces.take index) ++ [':', ':'] ++ piecesText (pieces.drop (index + length))

end TypedConfig.Net.Address
