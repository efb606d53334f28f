import TypedConfig.Decimal.Notation
import TypedConfig.Source.Span

/-!
# Tokens

The tokens of a configuration text. A text that cannot be cut into tokens ends with an error
token, which says what is wrong and where.
-/

namespace TypedConfig

/-- Why a piece of text is no token. -/
inductive LexError where
  | unexpectedCharacter
  | unterminatedString
  | unterminatedComment
  | invalidEscape (c : Char)
  | intOverflow
  | longOverflow
  | malformedNumber
  deriving DecidableEq, Repr

/-- The message of a lexical error. -/
def LexError.message : LexError → String
  | .unexpectedCharacter => "unexpected character"
  | .unterminatedString => "unterminated string literal"
  | .unterminatedComment => "unterminated block comment"
  | .invalidEscape c => "invalid escape sequence '\\" ++ String.singleton c ++ "'"
  | .intOverflow => "integer literal does not fit into int; add an 'L' suffix for long values"
  | .longOverflow => "long literal out of range"
  | .malformedNumber => "malformed number literal"

/-- What a token is. -/
inductive TokenKind where
  | string (s : String)
  | int (n : Int32)
  | long (n : Int64)
  | float (x : Decimal.Single)
  | double (x : Decimal.Double)
  | bool (b : Bool)
  | key (name : String)
  | include
  | hashInclude
  | equals
  | tilde
  | semicolon
  | comma
  | openParen
  | closeParen
  | openBracket
  | closeBracket
  | openBrace
  | closeBrace
  | caret
  | error (e : LexError)
  | endOfInput
  deriving DecidableEq, Repr

/-- A token as it is named in messages. -/
def TokenKind.text : TokenKind → String
  | .string s => "string \"" ++ s ++ "\""
  | .int n => "'" ++ toString n.toInt ++ "'"
  | .long n => "'" ++ toString n.toInt ++ "L'"
  | .float x => "'" ++ x.plain ++ "f'"
  | .double x => "'" ++ x.plain ++ "'"
  | .bool b => if b then "'true'" else "'false'"
  | .key name => "'" ++ name ++ "'"
  | .include => "'include'"
  | .hashInclude => "'#include'"
  | .equals => "'='"
  | .tilde => "'~'"
  | .semicolon => "';'"
  | .comma => "','"
  | .openParen => "'('"
  | .closeParen => "')'"
  | .openBracket => "'['"
  | .closeBracket => "']'"
  | .openBrace => "'\x7b'"
  | .closeBrace => "'\x7d'"
  | .caret => "'^'"
  | .error e => "invalid token (" ++ e.message ++ ")"
  | .endOfInput => "end of input"

/-- A token with its place in the text. -/
structure Token where
  kind : TokenKind
  span : Source.Span
  deriving DecidableEq, Repr

end TypedConfig
