import TypedConfig.Source.Position
import TypedConfig.Text.Blank
import TypedConfig.Token.Number
import TypedConfig.Token.Quoted

/-!
# Cutting a text into tokens

At every place of a text the longest lexeme that begins there is taken: a token, or layout (blanks
and comments), which is dropped. Cutting stops at the end of the text or at the first lexeme that
is an error.
-/

namespace TypedConfig.Token

open Source

/-- A piece of a text: its number of characters, and its token unless it is layout. -/
structure Lexeme where
  size : Nat
  kind : Option TokenKind
  deriving DecidableEq, Repr

/-- The blanks that separate tokens. -/
def isSpace (c : Char) : Bool :=
  c == ' ' || c == '\t' || c == '\r' || c == '\n' || c == Char.ofNat 12

/-- The characters up to the end of the line. -/
def restOfLine (cs : List Char) : List Char := cs.takeWhile (· != '\n')

/-- The number of characters up to the end of a block comment that has been opened. -/
def commentSize : List Char → Option Nat
  | [] => none
  | [_] => none
  | c :: d :: cs => if c = '*' ∧ d = '/' then some 2 else (commentSize (d :: cs)).map (· + 1)

/-- The token of a punctuation character. -/
def punctuation? : Char → Option TokenKind
  | '=' => some .equals
  | '~' => some .tilde
  | ';' => some .semicolon
  | ',' => some .comma
  | '(' => some .openParen
  | ')' => some .closeParen
  | '[' => some .openBracket
  | ']' => some .closeBracket
  | '{' => some .openBrace
  | '}' => some .closeBrace
  | '^' => some .caret
  | _ => none

/-- The lexeme of a line that begins with a hash: a comment, unless its first word is the retired
directive. -/
def hashLexeme (line : List Char) : Lexeme :=
  let isDirective := (Text.words line).head? = some "#include".toList
  ⟨line.length, if isDirective then some .hashInclude else none⟩

/-- The lexeme that begins with a slash. -/
def slashLexeme : List Char → Lexeme
  | '/' :: cs => ⟨(restOfLine cs).length + 2, none⟩
  | '*' :: cs =>
    match commentSize cs with
    | some n => ⟨n + 2, none⟩
    | none => ⟨cs.length + 2, some (.error .unterminatedComment)⟩
  | _ => ⟨1, some (.error .unexpectedCharacter)⟩

/-- The lexeme that begins with a delimiter of quoted texts. One that does not end is an error up to
the end of the text, without a backslash that has nothing after it. -/
def quotedLexeme (q : Char) (cs : List Char) : Lexeme :=
  match quotedSize q cs with
  | some n => ⟨n + 1, some (quotedToken q (cs.take (n - 1)))⟩
  | none =>
    ⟨if endsInEscape cs then cs.length else cs.length + 1, some (.error .unterminatedString)⟩

/-- The lexeme that begins with a key character. -/
def wordLexeme (c : Char) (cs : List Char) : Lexeme :=
  let (size, kind) := wordToken (c :: cs.takeWhile isKeyChar) (cs.dropWhile isKeyChar)
  ⟨size, some kind⟩

/-- The longest lexeme at the beginning of a text. -/
def lexeme (c : Char) (cs : List Char) : Lexeme :=
  if isSpace c then ⟨(cs.takeWhile isSpace).length + 1, none⟩
  else if c = '#' then hashLexeme (c :: restOfLine cs)
  else if c = '/' then slashLexeme cs
  else if c = '"' ∨ c = '\'' then quotedLexeme c cs
  else if isKeyChar c then wordLexeme c cs
  else
    match punctuation? c with
    | some kind => ⟨1, some kind⟩
    | none => ⟨1, some (.error .unexpectedCharacter)⟩

/-- The tokens of a text that begins at a byte offset, up to the end of the input or to the first
error. What the text has behind an error is left out: the tokens there, and the end of the input,
are never read, as the parser stops at the error. -/
def scan (offset : Nat) : List Char → List Token
  | [] => [⟨.endOfInput, Span.point (min offset maxOffset)⟩]
  | c :: cs =>
    let piece := lexeme c cs
    let next := offset + byteLength ((c :: cs).take piece.size)
    let rest := cs.drop (piece.size - 1)
    match piece.kind with
    | none => scan next rest
    | some (.error e) => [⟨.error e, Span.ofRange offset next⟩]
    | some kind => ⟨kind, Span.ofRange offset next⟩ :: scan next rest
  termination_by cs => cs.length
  decreasing_by all_goals simp only [List.length_cons, List.length_drop]; omega

end TypedConfig.Token

namespace TypedConfig

/-- The tokens of a text, as far as they are read: they end with the end of the input, or with the
first error. -/
def lex (text : String) : List Token := Token.scan 0 text.toList

end TypedConfig
