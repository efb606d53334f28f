import TypedConfig.Source.Position
import TypedConfig.Syntax.Tree
import TypedConfig.Token.Lexer

/-!
# Parsing

The parser reads the tokens from left to right and keeps what is still open on a stack of frames:
an argument list, a list of array items, or a named argument. Each token either takes it to its
next state or is the offending token. One token of delay decides what a key is the beginning of,
and whether named arguments follow a construction.
-/

namespace TypedConfig.Syntax

open Source (Span)

/-- What the parser asks for at a place of the text. -/
inductive Wanted where
  | statement
  | assignment (key : String)
  | key
  | expression
  | token (kind : TokenKind)
  deriving DecidableEq, Repr

/-- What is asked for, as it is named in messages. -/
def Wanted.text : Wanted → String
  | .statement => "expected a key or 'include'"
  | .assignment name => "expected '=' or '~' after key '" ++ name ++ "'"
  | .key => "expected a key"
  | .expression => "expected an expression"
  | .token kind => "expected " ++ kind.text

/-- What is wrong with a token. -/
inductive Fault where
  | lexical (e : LexError)
  | unexpected (wanted : Wanted) (found : TokenKind)
  | retiredInclude
  | reservedKey
  deriving DecidableEq, Repr

/-- The message of a syntax error. -/
def Fault.message : Fault → String
  | .lexical e => e.message
  | .unexpected wanted found => wanted.text ++ ", found " ++ found.text
  | .retiredInclude => "'#include' is not supported; use 'include <source>;'"
  | .reservedKey => "'self' is reserved and cannot be assigned"

/-- A syntax error at a token. -/
structure SyntaxError where
  span : Span
  fault : Fault
  deriving DecidableEq, Repr

/-- What a statement begins with. -/
inductive Head where
  | set (key : Name)
  | default (key : Name)
  | include (span : Span)
  deriving Repr

/-- Something that is open around an expression, with what it holds so far, newest first. `left` is
the left operand that waits for the whole of it. -/
inductive Frame where
  | arguments (left : Option Expr) (type : Name) (before : List Expr)
  | items (left : Option Expr) (tag : Option Name) (start : Span) (before : List Expr)
  | named (left : Option Expr) (type : Name) (arguments : List Expr) (before : List (Name × Expr))
      (key : Name)
  deriving Repr

/-- The statements read so far, newest first, the beginning of the current one, and what is open
in it, innermost first. -/
structure Context where
  done : List Statement
  head : Head
  frames : List Frame
  deriving Repr

/-- Where the parser is. -/
inductive State where
  | statement (done : List Statement)
  | assignment (done : List Statement) (key : Name)
  | operand (context : Context) (left : Option Expr)
  | afterName (context : Context) (left : Option Expr) (name : Name)
  | afterOperand (context : Context) (operand : Expr)
  | afterArguments (context : Context) (left : Option Expr) (type : Name) (arguments : List Expr)
      (stop : Span)
  | namedKey (context : Context) (left : Option Expr) (type : Name) (arguments : List Expr)
      (named : List (Name × Expr))
  | namedEquals (context : Context) (left : Option Expr) (type : Name) (arguments : List Expr)
      (named : List (Name × Expr)) (key : Name)
  | finished (program : Program)
  deriving Repr

/-- The error at a token that is not the wanted one. -/
def refuse (wanted : Wanted) (t : Token) : Except SyntaxError State :=
  match t.kind with
  | .error e => .error ⟨t.span, .lexical e⟩
  | found => .error ⟨t.span, .unexpected wanted found⟩

/-- The literal that a token is. -/
def literal? : TokenKind → Option Literal
  | .string s => some (.string s)
  | .int n => some (.int n)
  | .long n => some (.long n)
  | .float x => some (.float x)
  | .double x => some (.double x)
  | .bool b => some (.bool b)
  | _ => none

/-- An operand joined to the left operand that waits for it. -/
def joined : Option Expr → Expr → Expr
  | none, e => e
  | some l, e => .concat l e (l.span.merge e.span)

/-- The span of an array that begins with its tag or with its brace. -/
def arraySpan (tag : Option Name) (start stop : Span) : Span :=
  (match tag with | some name => name.span | none => start).merge stop

/-- The statement that a semicolon ends. -/
def Head.close (head : Head) (value : Expr) (stop : Span) : Statement :=
  match head with
  | .set key => ⟨.set key value, key.span.merge stop⟩
  | .default key => ⟨.default key value, key.span.merge stop⟩
  | .include start => ⟨.include value, start.merge stop⟩

/-- The token after a complete operand. -/
def stepOperand (c : Context) (e : Expr) (t : Token) : Except SyntaxError State :=
  if t.kind = .caret then .ok (.operand c (some e))
  else
    match c.frames with
    | [] =>
      if t.kind = .semicolon then .ok (.statement (c.head.close e t.span :: c.done))
      else refuse (.token .semicolon) t
    | .arguments left type before :: outer =>
      if t.kind = .comma then
        .ok (.operand { c with frames := .arguments left type (e :: before) :: outer } none)
      else if t.kind = .closeParen then
        .ok (.afterArguments { c with frames := outer } left type (e :: before).reverse t.span)
      else refuse (.token .closeParen) t
    | .items left tag start before :: outer =>
      if t.kind = .comma then
        .ok (.operand { c with frames := .items left tag start (e :: before) :: outer } none)
      else if t.kind = .closeBrace then
        .ok (.afterOperand { c with frames := outer }
          (joined left (.array tag (e :: before).reverse (arraySpan tag start t.span))))
      else refuse (.token .closeBrace) t
    | .named left type arguments before key :: outer =>
      if t.kind = .comma then
        .ok (.namedKey { c with frames := outer } left type arguments ((key, e) :: before))
      else if t.kind = .closeBracket then
        .ok (.afterOperand { c with frames := outer }
          (joined left (.construct type arguments ((key, e) :: before).reverse
            (type.span.merge t.span))))
      else refuse (.token .closeBracket) t

/-- The token at the beginning of an operand. -/
def stepStart (c : Context) (left : Option Expr) (t : Token) : Except SyntaxError State :=
  match literal? t.kind with
  | some value => .ok (.afterOperand c (joined left (.literal value t.span)))
  | none =>
    match t.kind, left, c.frames with
    | .key name, _, _ => .ok (.afterName c left ⟨name, t.span⟩)
    | .openBrace, _, frames =>
      .ok (.operand { c with frames := .items left none t.span [] :: frames } none)
    | .closeParen, none, .arguments outerLeft type [] :: outer =>
      .ok (.afterArguments { c with frames := outer } outerLeft type [] t.span)
    | .closeBrace, none, .items outerLeft tag start before :: outer =>
      .ok (.afterOperand { c with frames := outer }
        (joined outerLeft (.array tag before.reverse (arraySpan tag start t.span))))
    | _, _, _ => refuse .expression t

/-- The state after one more token. -/
def step (s : State) (t : Token) : Except SyntaxError State :=
  match s with
  | .statement done =>
    match t.kind with
    | .endOfInput => .ok (.finished done.reverse)
    | .include => .ok (.operand ⟨done, .include t.span, []⟩ none)
    | .hashInclude => .error ⟨t.span, .retiredInclude⟩
    | .key name =>
      if name = selfKey then .error ⟨t.span, .reservedKey⟩
      else .ok (.assignment done ⟨name, t.span⟩)
    | _ => refuse .statement t
  | .assignment done key =>
    match t.kind with
    | .equals => .ok (.operand ⟨done, .set key, []⟩ none)
    | .tilde => .ok (.operand ⟨done, .default key, []⟩ none)
    | _ => refuse (.assignment key.text) t
  | .operand c left => stepStart c left t
  | .afterName c left name =>
    match t.kind with
    | .openParen =>
      .ok (.operand { c with frames := .arguments left name [] :: c.frames } none)
    | .openBrace =>
      .ok (.operand { c with frames := .items left (some name) t.span [] :: c.frames } none)
    | _ => stepOperand c (joined left (.variable name.text name.span)) t
  | .afterOperand c e => stepOperand c e t
  | .afterArguments c left type arguments stop =>
    match t.kind with
    | .openBracket => .ok (.namedKey c left type arguments [])
    | _ => stepOperand c (joined left (.construct type arguments [] (type.span.merge stop))) t
  | .namedKey c left type arguments named =>
    match t.kind with
    | .key name => .ok (.namedEquals c left type arguments named ⟨name, t.span⟩)
    | _ => refuse .key t
  | .namedEquals c left type arguments named key =>
    match t.kind with
    | .equals =>
      .ok (.operand { c with frames := .named left type arguments named key :: c.frames } none)
    | _ => refuse (.token .equals) t
  | .finished program => .ok (.finished program)

/-- The state after several tokens. -/
def run (s : State) : List Token → Except SyntaxError State
  | [] => .ok s
  | t :: ts =>
    match step s t with
    | .ok next => run next ts
    | .error e => .error e

/-- The program that the tokens of a text stand for. -/
def parseTokens (tokens : List Token) : Except SyntaxError Program :=
  match run (.statement []) tokens with
  | .ok (.finished program) => .ok program
  | .ok _ => .error ⟨default, .unexpected .statement .endOfInput⟩
  | .error e => .error e

/-- The program that a text stands for. -/
def parse (text : String) : Except SyntaxError Program := parseTokens (lex text)

/-- The line and the column of a span of a text. -/
def positionOf (text : String) (span : Span) : Source.Position :=
  (Source.LineTable.ofText text.toList).position span.start

/-- A message with its position in the text. -/
def locatedMessage (position : Source.Position) (message : String) : String :=
  "Error in line " ++ toString position.line ++ ", character " ++ toString position.column ++
    ": " ++ message

end TypedConfig.Syntax
