import TypedConfig.Syntax.Parser

/-!
# Parsing relocated tokens

The parser looks at the kinds of tokens and only carries their spans along, merging some of them.
So a change of spans that keeps merging commutes with parsing: relocated tokens give the relocated
program or the relocated error. The same holds with other statements already read, which the
parser never looks at again.

Two such changes are used: shifting all offsets, for a text that begins further behind, and
cutting them to a bound, which leaves exactly the spans within the bound as they are.
-/

namespace TypedConfig.Source

/-- A change of spans that keeps how they are merged. -/
structure Relocation where
  apply : Span → Span
  apply_merge : ∀ s t, apply (s.merge t) = (apply s).merge (apply t)

namespace Relocation

/-- A relocation is applied like a function. -/
instance : CoeFun Relocation fun _ => Span → Span := ⟨apply⟩

/-- Moves every span by a number of bytes. -/
def shift (distance : Nat) : Relocation where
  apply s := ⟨s.start + distance, s.stop + distance⟩
  apply_merge s t := by
    simp only [Span.merge, Span.mk.injEq]
    omega

/-- Cuts every span to a largest offset. -/
def cut (bound : Nat) : Relocation where
  apply s := ⟨min s.start bound, min s.stop bound⟩
  apply_merge s t := by
    simp only [Span.merge, Span.mk.injEq]
    omega

end Relocation

end TypedConfig.Source

namespace TypedConfig

open Source (Relocation)

/-- A token in its new place. -/
def Token.relocate (r : Relocation) (t : Token) : Token := ⟨t.kind, r t.span⟩

namespace Syntax

variable (r : Relocation)

/-- A name in its new place. -/
def Name.relocate (name : Name) : Name := ⟨name.text, r name.span⟩

mutual

/-- An expression with every span in it relocated. -/
def Expr.relocate : Expr → Expr
  | .literal value span => .literal value (r span)
  | .variable name span => .variable name (r span)
  | .concat left right span => .concat left.relocate right.relocate (r span)
  | .array tag items span => .array (tag.map (Name.relocate r)) (Expr.relocateAll items) (r span)
  | .construct type arguments named span =>
    .construct (type.relocate r) (Expr.relocateAll arguments) (Expr.relocateNamed named) (r span)

/-- Expressions in their new places. -/
def Expr.relocateAll : List Expr → List Expr
  | [] => []
  | e :: es => e.relocate :: Expr.relocateAll es

/-- Named arguments in their new places. -/
def Expr.relocateNamed : List (Name × Expr) → List (Name × Expr)
  | [] => []
  | (name, e) :: rest => (name.relocate r, e.relocate) :: Expr.relocateNamed rest

end

/-- Expressions move one by one. -/
@[simp] theorem Expr.relocateAll_eq_map (es : List Expr) :
    Expr.relocateAll r es = es.map (Expr.relocate r) := by
  induction es with
  | nil => rfl
  | cons e es ih => rw [Expr.relocateAll, ih, List.map_cons]

/-- Named arguments move one by one, with their names. -/
@[simp] theorem Expr.relocateNamed_eq_map (es : List (Name × Expr)) :
    Expr.relocateNamed r es = es.map fun entry => (entry.1.relocate r, entry.2.relocate r) := by
  induction es with
  | nil => rfl
  | cons entry es ih => rw [Expr.relocateNamed, ih, List.map_cons]

/-- The span of an expression moves with it. -/
@[simp] theorem Expr.span_relocate (e : Expr) : (e.relocate r).span = r e.span := by
  cases e <;> simp only [Expr.relocate, Expr.span]

/-- What a statement does, in its new place. -/
def Action.relocate : Action → Action
  | .set key value => .set (key.relocate r) (value.relocate r)
  | .default key value => .default (key.relocate r) (value.relocate r)
  | .include source => .include (source.relocate r)

/-- A statement in its new place. -/
def Statement.relocate (s : Statement) : Statement := ⟨s.action.relocate r, r s.span⟩

/-- A syntax error in its new place. -/
def SyntaxError.relocate (e : SyntaxError) : SyntaxError := ⟨r e.span, e.fault⟩

/-- The head of a statement in its new place. -/
def Head.relocate : Head → Head
  | .set key => .set (key.relocate r)
  | .default key => .default (key.relocate r)
  | .include span => .include (r span)

/-- What is open around an operand, in its new place. -/
def Frame.relocate : Frame → Frame
  | .arguments left type before =>
    .arguments (left.map (Expr.relocate r)) (type.relocate r) (before.map (Expr.relocate r))
  | .items left tag start before =>
    .items (left.map (Expr.relocate r)) (tag.map (Name.relocate r)) (r start)
      (before.map (Expr.relocate r))
  | .named left type given before key =>
    .named (left.map (Expr.relocate r)) (type.relocate r) (given.map (Expr.relocate r))
      (before.map fun entry => (entry.1.relocate r, entry.2.relocate r)) (key.relocate r)

variable (earlier : List Statement)

/-- The relocated context after statements that have been read before, newest first. -/
def Context.place (c : Context) : Context :=
  ⟨c.done.map (Statement.relocate r) ++ earlier, c.head.relocate r,
    c.frames.map (Frame.relocate r)⟩

/-- The relocated state after statements that have been read before, newest first. -/
def State.place : State → State
  | .statement done => .statement (done.map (Statement.relocate r) ++ earlier)
  | .assignment done key =>
    .assignment (done.map (Statement.relocate r) ++ earlier) (key.relocate r)
  | .operand c left => .operand (c.place r earlier) (left.map (Expr.relocate r))
  | .afterName c left name =>
    .afterName (c.place r earlier) (left.map (Expr.relocate r)) (name.relocate r)
  | .afterOperand c e => .afterOperand (c.place r earlier) (e.relocate r)
  | .afterArguments c left type arguments stop =>
    .afterArguments (c.place r earlier) (left.map (Expr.relocate r)) (type.relocate r)
      (arguments.map (Expr.relocate r)) (r stop)
  | .namedKey c left type arguments named =>
    .namedKey (c.place r earlier) (left.map (Expr.relocate r)) (type.relocate r)
      (arguments.map (Expr.relocate r))
      (named.map fun entry => (entry.1.relocate r, entry.2.relocate r))
  | .namedEquals c left type arguments named key =>
    .namedEquals (c.place r earlier) (left.map (Expr.relocate r)) (type.relocate r)
      (arguments.map (Expr.relocate r))
      (named.map fun entry => (entry.1.relocate r, entry.2.relocate r)) (key.relocate r)
  | .finished program => .finished (earlier.reverse ++ program.map (Statement.relocate r))

/-- What the parser comes to, in its new place. -/
def placed : Except SyntaxError State → Except SyntaxError State
  | .ok s => .ok (s.place r earlier)
  | .error e => .error (e.relocate r)

/-- A token is refused in its new place. -/
theorem refuse_relocate (wanted : Wanted) (t : Token) :
    refuse wanted (t.relocate r) = placed r earlier (refuse wanted t) := by
  obtain ⟨kind, span⟩ := t
  cases kind <;> rfl

/-- Operands are joined in their new places. -/
theorem joined_relocate (left : Option Expr) (e : Expr) :
    joined (left.map (Expr.relocate r)) (e.relocate r) = (joined left e).relocate r := by
  cases left with
  | none => rfl
  | some l => simp [joined, Expr.relocate, r.apply_merge]

/-- The span of an array moves with its tag and braces. -/
theorem arraySpan_relocate (tag : Option Name) (start stop : Source.Span) :
    arraySpan (tag.map (Name.relocate r)) (r start) (r stop) = r (arraySpan tag start stop) := by
  cases tag <;> simp [arraySpan, Name.relocate, r.apply_merge]

/-- A statement is closed in its new place. -/
theorem Head.close_relocate (head : Head) (value : Expr) (stop : Source.Span) :
    (head.relocate r).close (value.relocate r) (r stop) = (head.close value stop).relocate r := by
  cases head <;>
    simp [Head.close, Head.relocate, Statement.relocate, Action.relocate, Name.relocate,
      r.apply_merge]

/-- Behind an operand the parser goes on alike in the new place. -/
theorem stepOperand_relocate (c : Context) (e : Expr) (t : Token) :
    stepOperand (c.place r earlier) (e.relocate r) (t.relocate r) =
      placed r earlier (stepOperand c e t) := by
  obtain ⟨done, head, frames⟩ := c
  by_cases hcaret : t.kind = .caret
  · simp [stepOperand, Token.relocate, hcaret, placed, State.place, Context.place]
  rcases frames with _ | ⟨frame, outer⟩
  · by_cases hsemicolon : t.kind = .semicolon
    · simp [stepOperand, Token.relocate, hsemicolon, placed, State.place, Context.place,
        Head.close_relocate]
    · simpa [stepOperand, Token.relocate, hcaret, hsemicolon, Context.place] using
        refuse_relocate r earlier (.token .semicolon) t
  cases frame with
  | arguments left type before =>
    by_cases hcomma : t.kind = .comma
    · simp [stepOperand, Token.relocate, hcomma, placed, State.place, Context.place,
        Frame.relocate]
    by_cases hclose : t.kind = .closeParen
    · simp [stepOperand, Token.relocate, hclose, placed, State.place, Context.place,
        Frame.relocate]
    · simpa [stepOperand, Token.relocate, hcaret, hcomma, hclose, Context.place,
        Frame.relocate] using refuse_relocate r earlier (.token .closeParen) t
  | items left tag start before =>
    by_cases hcomma : t.kind = .comma
    · simp [stepOperand, Token.relocate, hcomma, placed, State.place, Context.place,
        Frame.relocate]
    by_cases hclose : t.kind = .closeBrace
    · simp [stepOperand, Token.relocate, hclose, placed, State.place, Context.place,
        Frame.relocate, ← joined_relocate, Expr.relocate, ← arraySpan_relocate]
    · simpa [stepOperand, Token.relocate, hcaret, hcomma, hclose, Context.place,
        Frame.relocate] using refuse_relocate r earlier (.token .closeBrace) t
  | named left type given before key =>
    by_cases hcomma : t.kind = .comma
    · simp [stepOperand, Token.relocate, hcomma, placed, State.place, Context.place,
        Frame.relocate]
    by_cases hclose : t.kind = .closeBracket
    · simp [stepOperand, Token.relocate, hclose, placed, State.place, Context.place,
        Frame.relocate, ← joined_relocate, Expr.relocate, r.apply_merge, Name.relocate]
    · simpa [stepOperand, Token.relocate, hcaret, hcomma, hclose, Context.place,
        Frame.relocate] using refuse_relocate r earlier (.token .closeBracket) t

/-- At an operand the parser begins alike in the new place. -/
theorem stepStart_relocate (c : Context) (left : Option Expr) (t : Token) :
    stepStart (c.place r earlier) (left.map (Expr.relocate r)) (t.relocate r) =
      placed r earlier (stepStart c left t) := by
  obtain ⟨done, head, frames⟩ := c
  obtain ⟨kind, span⟩ := t
  cases hliteral : literal? kind with
  | some value =>
    simp [stepStart, Token.relocate, hliteral, placed, State.place, ← joined_relocate,
      Expr.relocate]
  | none =>
    have hrefuse := refuse_relocate r earlier .expression ⟨kind, span⟩
    cases kind with
    | key name => rfl
    | openBrace => rfl
    | closeParen =>
      rcases left with _ | left
      · rcases frames with _ | ⟨⟨outerLeft, type, _ | ⟨first, before⟩⟩ | _ | _, outer⟩
        · exact hrefuse
        · rfl
        all_goals exact hrefuse
      · exact hrefuse
    | closeBrace =>
      rcases left with _ | left
      · rcases frames with _ | ⟨_ | ⟨outerLeft, tag, start, before⟩ | _, outer⟩
        · exact hrefuse
        · exact hrefuse
        · simp [stepStart, literal?, Token.relocate, placed, State.place, Context.place,
            Frame.relocate, ← joined_relocate, Expr.relocate, ← arraySpan_relocate]
        · exact hrefuse
      · exact hrefuse
    | string | int | long | float | double | bool => simp [literal?] at hliteral
    | _ => exact hrefuse

/-- One token takes the relocated parser to the relocated state. -/
theorem step_relocate (s : State) (t : Token) :
    step (s.place r earlier) (t.relocate r) = placed r earlier (step s t) := by
  cases s with
  | statement done =>
    obtain ⟨kind, span⟩ := t
    cases kind with
    | endOfInput => simp [step, State.place, Token.relocate, placed]
    | key name =>
      by_cases hself : name = selfKey <;>
        simp [step, State.place, Token.relocate, placed, hself, SyntaxError.relocate,
          Name.relocate]
    | _ => rfl
  | assignment done key =>
    obtain ⟨kind, span⟩ := t
    cases kind <;> rfl
  | operand c left => exact stepStart_relocate r earlier c left t
  | afterName c left name =>
    obtain ⟨kind, span⟩ := t
    have hvariable := stepOperand_relocate r earlier c (joined left (.variable name.text name.span))
      ⟨kind, span⟩
    rw [← joined_relocate, Expr.relocate] at hvariable
    cases kind with
    | openParen | openBrace => rfl
    | _ => exact hvariable
  | afterOperand c e => exact stepOperand_relocate r earlier c e t
  | afterArguments c left type given stop =>
    obtain ⟨kind, span⟩ := t
    have hconstruct := stepOperand_relocate r earlier c
      (joined left (.construct type given [] (type.span.merge stop))) ⟨kind, span⟩
    rw [← joined_relocate, Expr.relocate, r.apply_merge] at hconstruct
    simp only [Expr.relocateAll_eq_map, Expr.relocateNamed_eq_map, List.map_nil] at hconstruct
    cases kind with
    | openBracket => rfl
    | _ => exact hconstruct
  | namedKey c left type given named =>
    obtain ⟨kind, span⟩ := t
    cases kind <;> rfl
  | namedEquals c left type given named key =>
    obtain ⟨kind, span⟩ := t
    cases kind <;> rfl
  | finished program => rfl

/-- Relocated tokens take the relocated parser to the relocated state. -/
theorem run_relocate (s : State) (ts : List Token) :
    run (s.place r earlier) (ts.map (Token.relocate r)) = placed r earlier (run s ts) := by
  induction ts generalizing s with
  | nil => rfl
  | cons t ts ih =>
    rw [List.map_cons, run, run, step_relocate]
    cases step s t with
    | ok next => exact ih next
    | error e => rfl

end Syntax

end TypedConfig
