import TypedConfig.Token.Basic

/-!
# Words of key characters

A run of key characters is one token. Its whole text decides whether it is a keyword, a number in
one of four forms, or a key. Numbers are read exactly and rounded once.
-/

namespace TypedConfig.Token

def isDigit (c : Char) : Bool := '0' ≤ c && c ≤ '9'

/-- The characters that keys are made of. -/
def isKeyChar (c : Char) : Bool :=
  isDigit c || ('a' ≤ c && c ≤ 'z') || ('A' ≤ c && c ≤ 'Z') || c == '_' || c == '$' || c == '@' ||
    c == '.' || c == '-'

/-- The number that decimal digits stand for. -/
def digitsValue (ds : List Char) : Nat :=
  ds.foldl (fun n d => 10 * n + (d.toNat - '0'.toNat)) 0

/-- The letter after a number. -/
inductive Suffix where
  | none
  | long
  | float
  deriving DecidableEq, Repr

/-- The parts of a number: sign, digits before and after the point, exponent, suffix. -/
structure NumberText where
  negative : Bool
  whole : List Char
  fraction : Option (List Char)
  exponent : Option (Bool × List Char)
  suffix : Suffix
  deriving DecidableEq, Repr

namespace NumberText

/-- Takes a sign off. -/
def takeSign (cs : List Char) : Bool × List Char :=
  match cs with
  | '-' :: rest => (true, rest)
  | rest => (false, rest)

/-- Takes a point and the digits after it off. -/
def takeFraction (cs : List Char) : Option (List Char) × List Char :=
  match cs with
  | '.' :: rest => (some (rest.takeWhile isDigit), rest.dropWhile isDigit)
  | rest => (none, rest)

/-- Takes the sign of an exponent off. -/
def takeExponentSign (cs : List Char) : Bool × List Char :=
  match cs with
  | '-' :: rest => (true, rest)
  | '+' :: rest => (false, rest)
  | rest => (false, rest)

/-- Takes an exponent off: the letter `e`, a sign, and at least one digit. -/
def takeExponent (cs : List Char) : Option (Bool × List Char) × List Char :=
  match cs with
  | c :: rest =>
    if c == 'e' || c == 'E' then
      let (negative, tail) := takeExponentSign rest
      let ds := tail.takeWhile isDigit
      if ds.isEmpty then (none, cs) else (some (negative, ds), tail.dropWhile isDigit)
    else (none, cs)
  | [] => (none, [])

/-- The suffix that ends a number. -/
def suffix? (cs : List Char) : Option Suffix :=
  match cs with
  | [] => some .none
  | [c] =>
    if c == 'l' || c == 'L' then some .long
    else if c == 'f' || c == 'F' then some .float
    else none
  | _ => none

/-- The parts of a text that is a number as a whole. -/
def read (cs : List Char) : Option NumberText := do
  let (negative, cs) := takeSign cs
  let whole := cs.takeWhile isDigit
  let (fraction, cs) := takeFraction (cs.dropWhile isDigit)
  if whole.isEmpty && (fraction.getD []).isEmpty then none
  let (exponent, cs) := takeExponent cs
  let suffix ← suffix? cs
  if suffix == .long && (fraction.isSome || exponent.isSome) then none
  return ⟨negative, whole, fraction, exponent, suffix⟩

/-- The digits of a number without its point. -/
def digits (t : NumberText) : Nat := digitsValue (t.whole ++ t.fraction.getD [])

/-- The power of ten that the digits are multiplied with. -/
def power (t : NumberText) : Int :=
  let e : Int :=
    match t.exponent with
    | none => 0
    | some (negative, ds) => if negative then -(digitsValue ds : Int) else digitsValue ds
  e - (t.fraction.getD []).length

/-- The integer that the digits before the point stand for. -/
def integer (t : NumberText) : Int :=
  if t.negative then -(digitsValue t.whole : Int) else digitsValue t.whole

/-- The nearest binary number. -/
def binary (t : NumberText) (f : Decimal.Format) : Decimal.Binary f :=
  f.ofDecimal t.negative t.digits t.power

/-- The token that a number stands for. -/
def token (t : NumberText) : TokenKind :=
  match t.suffix with
  | .float => .float (t.binary .single)
  | .long =>
    let n := t.integer
    if -Int.pow 2 63 ≤ n && n < Int.pow 2 63 then .long (Int64.ofInt n) else .error .longOverflow
  | .none =>
    if t.fraction.isSome || t.exponent.isSome then .double (t.binary .double)
    else
      let n := t.integer
      if -Int.pow 2 31 ≤ n && n < Int.pow 2 31 then .int (Int32.ofInt n) else .error .intOverflow

end NumberText

/-- The token that a whole run of key characters stands for. -/
def classify (word : List Char) : TokenKind :=
  if word = "include".toList then .include
  else if word = "true".toList then .bool true
  else if word = "false".toList then .bool false
  else
    match NumberText.read word with
    | some t => t.token
    | none => .key (String.ofList word)

/-- A number without exponent and suffix, if a word is one followed by the letter of an
exponent. -/
def openExponent? (word : List Char) : Option NumberText :=
  match word.getLast? with
  | some c =>
    if c == 'e' || c == 'E' then
      match NumberText.read word.dropLast with
      | some t => if t.exponent.isNone && t.suffix == .none then some t else none
      | none => none
    else none
  | none => none

/-- The length of a token that begins with a word, and what it is, given the text after the word.
Only a plus sign can join the two: it continues a number whose exponent has no digits yet. -/
def wordToken (word rest : List Char) : Nat × TokenKind :=
  match rest, openExponent? word with
  | '+' :: after, some t =>
    let ds := after.takeWhile isDigit
    if ds.isEmpty then
      (word.length, .error (if t.fraction.isSome then .malformedNumber else .intOverflow))
    else
      let isFloat := (after.dropWhile isDigit).head?.any fun c => c == 'f' || c == 'F'
      let number : NumberText :=
        { t with exponent := some (false, ds), suffix := if isFloat then .float else .none }
      (word.length + 1 + ds.length + (if isFloat then 1 else 0), number.token)
  | _, _ => (word.length, classify word)

end TypedConfig.Token
