import TypedConfig.Token.Basic

/-!
# Quoted texts

A quoted text stands between two delimiters. Inside it a doubled delimiter stands for one, and a
backslash begins an escape. A delimiter that is not doubled ends the text.
-/

namespace TypedConfig.Token

/-- The number of characters up to the end of a quoted text whose opening delimiter has been
read. -/
def quotedSize (q : Char) : List Char → Option Nat
  | [] => none
  | ['\\'] => none
  | '\\' :: _ :: cs => (quotedSize q cs).map (· + 2)
  | c :: d :: cs =>
    if c = q then
      if d = q then (quotedSize q cs).map (· + 2) else some 1
    else (quotedSize q (d :: cs)).map (· + 1)
  | [c] => if c = q then some 1 else none

/-- Whether a text that does not end breaks off after the backslash of an escape. -/
def endsInEscape : List Char → Bool
  | [] => false
  | ['\\'] => true
  | '\\' :: _ :: cs => endsInEscape cs
  | _ :: cs => endsInEscape cs

/-- The character that a letter after a backslash stands for. -/
def simpleEscape : Char → Option Char
  | 'n' => some '\n'
  | 'r' => some '\r'
  | 't' => some '\t'
  | 'b' => some (Char.ofNat 8)
  | 'f' => some (Char.ofNat 12)
  | '0' => some (Char.ofNat 0)
  | '\\' => some '\\'
  | '"' => some '"'
  | '\'' => some '\''
  | _ => none

/-- The value of a hexadecimal digit. -/
def hexDigit? (c : Char) : Option Nat :=
  let n := c.toNat
  if 48 ≤ n && n ≤ 57 then some (n - 48)
  else if 97 ≤ n && n ≤ 102 then some (n - 87)
  else if 65 ≤ n && n ≤ 70 then some (n - 55)
  else none

/-- The number that hexadecimal digits stand for; `none` if there is none or another character. -/
def hexValue? : List Char → Option Nat
  | [] => none
  | cs => cs.foldlM (fun n c => (hexDigit? c).map (16 * n + ·)) 0

/-- The character with the number of four hexadecimal digits, the first of which may be a plus
sign. -/
def unicodeEscape (a b c d : Char) : Option Char :=
  let n := if a = '+' then hexValue? [b, c, d] else hexValue? [a, b, c, d]
  n.bind fun n => if h : n.isValidChar then some (Char.ofNatAux n h) else none

/-- The text that stands between two delimiters. -/
def unescape (q : Char) : List Char → Except LexError (List Char)
  | [] => .ok []
  | '\\' :: 'u' :: a :: b :: c :: d :: cs =>
    match unicodeEscape a b c d with
    | some x => (unescape q cs).map (x :: ·)
    | none => .error (.invalidEscape 'u')
  | ['\\'] => .error (.invalidEscape '\\')
  | '\\' :: c :: cs =>
    match simpleEscape c with
    | some x => (unescape q cs).map (x :: ·)
    | none => .error (.invalidEscape c)
  | c :: d :: cs =>
    if c = q then (unescape q cs).map (q :: ·) else (unescape q (d :: cs)).map (c :: ·)
  | [c] => .ok [c]

/-- The token of a quoted text without its delimiters. -/
def quotedToken (q : Char) (content : List Char) : TokenKind :=
  match unescape q content with
  | .ok cs => .string (String.ofList cs)
  | .error e => .error e

end TypedConfig.Token
