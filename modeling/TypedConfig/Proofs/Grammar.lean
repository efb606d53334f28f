import TypedConfig.Proofs.ParseJoined

/-!
# The grammar

The grammar of configuration texts, as a relation between tokens and what they stand for:

    program := stmt* EOF
    stmt    := KEY '=' expr ';' | KEY '~' expr ';' | 'include' expr ';'
    expr    := primary ('^' primary)*
    primary := literal | KEY | KEY '(' args? ')' named? | KEY? '{' elems? '}'
    args    := expr (',' expr)*
    elems   := expr (',' expr)* ','?
    named   := '[' KEY '=' expr (',' KEY '=' expr)* ']'

No statement sets the key for the store itself. A node spans what it is made of, from its first
token to its last.

The parser takes whatever the grammar derives. It decides with one token of delay what a key is the
beginning of, so what is shown of an operand is how the parser goes on behind it.
-/

namespace TypedConfig.Syntax

open Source (Span)

/-- The token that a literal is written as. -/
def Literal.token : Literal → TokenKind
  | .int n => .int n
  | .long n => .long n
  | .float x => .float x
  | .double x => .double x
  | .bool b => .bool b
  | .string s => .string s

/-- What tokens may stand for: a symbol of the grammar with the tree that belongs to it. -/
inductive Phrase where
  | operand (e : Expr)
  | expression (e : Expr)
  | items (es : List Expr)
  | arguments (es : List Expr)
  | elements (es : List Expr)
  | named (given : List (Name × Expr))
  | statement (s : Statement)
  | statements (ss : List Statement)
  | program (p : Program)

/-- The rules of the grammar. -/
inductive Derives : List Token → Phrase → Prop
  | literal {value span} : Derives [⟨value.token, span⟩] (.operand (.literal value span))
  | key {name span} : Derives [⟨.key name, span⟩] (.operand (.variable name span))
  | construct {name span start ts arguments stop} : Derives ts (.arguments arguments) →
    Derives (⟨.key name, span⟩ :: ⟨.openParen, start⟩ :: (ts ++ [⟨.closeParen, stop⟩]))
      (.operand (.construct ⟨name, span⟩ arguments [] (span.merge stop)))
  | constructNamed {name span start ts arguments close start' us named stop} :
    Derives ts (.arguments arguments) → Derives us (.named named) →
    Derives (⟨.key name, span⟩ :: ⟨.openParen, start⟩ :: (ts ++ ⟨.closeParen, close⟩ ::
        ⟨.openBracket, start'⟩ :: (us ++ [⟨.closeBracket, stop⟩])))
      (.operand (.construct ⟨name, span⟩ arguments named (span.merge stop)))
  | array {start ts items stop} : Derives ts (.elements items) →
    Derives (⟨.openBrace, start⟩ :: (ts ++ [⟨.closeBrace, stop⟩]))
      (.operand (.array none items (start.merge stop)))
  | typedArray {name span start ts items stop} : Derives ts (.elements items) →
    Derives (⟨.key name, span⟩ :: ⟨.openBrace, start⟩ :: (ts ++ [⟨.closeBrace, stop⟩]))
      (.operand (.array (some ⟨name, span⟩) items (span.merge stop)))
  | single {ts e} : Derives ts (.operand e) → Derives ts (.expression e)
  | concat {ts left caret us right} : Derives ts (.expression left) → Derives us (.operand right) →
    Derives (ts ++ ⟨.caret, caret⟩ :: us)
      (.expression (.concat left right (left.span.merge right.span)))
  | firstItem {ts e} : Derives ts (.expression e) → Derives ts (.items [e])
  | nextItem {ts es comma us e} : Derives ts (.items es) → Derives us (.expression e) →
    Derives (ts ++ ⟨.comma, comma⟩ :: us) (.items (es ++ [e]))
  | noArguments : Derives [] (.arguments [])
  | someArguments {ts es} : Derives ts (.items es) → Derives ts (.arguments es)
  | noElements : Derives [] (.elements [])
  | someElements {ts es} : Derives ts (.items es) → Derives ts (.elements es)
  | lastComma {ts es comma} : Derives ts (.items es) →
    Derives (ts ++ [⟨.comma, comma⟩]) (.elements es)
  | firstNamed {key span equals ts e} : Derives ts (.expression e) →
    Derives (⟨.key key, span⟩ :: ⟨.equals, equals⟩ :: ts) (.named [(⟨key, span⟩, e)])
  | nextNamed {ts named comma key span equals us e} : Derives ts (.named named) →
    Derives us (.expression e) →
    Derives (ts ++ ⟨.comma, comma⟩ :: ⟨.key key, span⟩ :: ⟨.equals, equals⟩ :: us)
      (.named (named ++ [(⟨key, span⟩, e)]))
  | set {key span equals ts e stop} : key ≠ selfKey → Derives ts (.expression e) →
    Derives (⟨.key key, span⟩ :: ⟨.equals, equals⟩ :: (ts ++ [⟨.semicolon, stop⟩]))
      (.statement ⟨.set ⟨key, span⟩ e, span.merge stop⟩)
  | default {key span tilde ts e stop} : key ≠ selfKey → Derives ts (.expression e) →
    Derives (⟨.key key, span⟩ :: ⟨.tilde, tilde⟩ :: (ts ++ [⟨.semicolon, stop⟩]))
      (.statement ⟨.default ⟨key, span⟩ e, span.merge stop⟩)
  | inclusion {start ts e stop} : Derives ts (.expression e) →
    Derives (⟨.include, start⟩ :: (ts ++ [⟨.semicolon, stop⟩]))
      (.statement ⟨.include e, start.merge stop⟩)
  | noStatements : Derives [] (.statements [])
  | nextStatement {ts ss us s} : Derives ts (.statements ss) → Derives us (.statement s) →
    Derives (ts ++ us) (.statements (ss ++ [s]))
  | program {ts program span} : Derives ts (.statements program) →
    Derives (ts ++ [⟨.endOfInput, span⟩]) (.program program)

/-- The context inside something that is opened. -/
def Context.enter (c : Context) (frame : Frame) : Context := { c with frames := frame :: c.frames }

/-- The state has a complete operand before it: a token that cannot belong to the operand is the
token after it. -/
def State.Holds (s : State) (c : Context) (e : Expr) : Prop :=
  ∀ kind span, kind ≠ .openParen → kind ≠ .openBrace → kind ≠ .openBracket →
    step s ⟨kind, span⟩ = stepOperand c e ⟨kind, span⟩

/-- The token of a literal is read as the literal. -/
theorem literal?_token (value : Literal) : literal? value.token = some value := by
  cases value <;> rfl

/-- Behind an operand the parser holds it. -/
theorem holds_afterOperand (c : Context) (e : Expr) : (State.afterOperand c e).Holds c e :=
  fun _ _ _ _ _ => rfl

/-- Behind a name the parser holds a variable. -/
theorem holds_afterName (c : Context) (left : Option Expr) (name : Name) :
    (State.afterName c left name).Holds c (joined left (.variable name.text name.span)) := by
  intro kind span hparen hbrace _
  cases kind with
  | openParen => exact absurd rfl hparen
  | openBrace => exact absurd rfl hbrace
  | _ => rfl

/-- Behind the arguments the parser holds a construction without named ones. -/
theorem holds_afterArguments (c : Context) (left : Option Expr) (type : Name)
    (arguments : List Expr) (stop : Span) :
    (State.afterArguments c left type arguments stop).Holds c
      (joined left (.construct type arguments [] (type.span.merge stop))) := by
  intro kind span _ _ hbracket
  cases kind with
  | openBracket => exact absurd rfl hbracket
  | _ => rfl

/-- One token is one step. -/
theorem run_singleton (s : State) (t : Token) : run s [t] = step s t := by
  rw [run]
  cases step s t <;> rfl

/-- A run goes on from where its first part has come to. -/
theorem run_append_ok {s s' : State} {xs : List Token} (h : run s xs = .ok s') (ys : List Token) :
    run s (xs ++ ys) = run s' ys := by
  rw [run_append, h]

/-- A token that leads on is followed by the other tokens. -/
theorem run_cons_ok {s s' : State} {x : Token} (h : step s x = .ok s') (xs : List Token) :
    run s (x :: xs) = run s' xs := by
  rw [run, h]

/-- Behind an item a comma leads to the next one. -/
def TakesComma (frame : List Expr → Frame) : Prop :=
  ∀ c before e span, stepOperand (Context.enter c (frame before)) e ⟨.comma, span⟩ =
    .ok (.operand (c.enter (frame (e :: before))) none)

/-- In arguments a comma leads to the next one. -/
theorem takesComma_arguments (left : Option Expr) (type : Name) :
    TakesComma (.arguments left type) := fun _ _ _ _ => rfl

/-- In an array a comma leads to the next item. -/
theorem takesComma_items (left : Option Expr) (tag : Option Name) (start : Span) :
    TakesComma (.items left tag start) := fun _ _ _ _ => rfl

/-- How the parser takes the tokens of a phrase, wherever they may stand. -/
def Phrase.Taken (ts : List Token) : Phrase → Prop
  | .operand e => ∀ c left, ∃ s, run (.operand c left) ts = .ok s ∧ s.Holds c (joined left e)
  | .expression e => ∀ c, ∃ s, run (.operand c none) ts = .ok s ∧ s.Holds c e
  | .items es => ∀ frame, TakesComma frame → ∀ c, ∃ s e before,
    run (.operand (Context.enter c (frame [])) none) ts = .ok s ∧
      s.Holds (c.enter (frame before)) e ∧ (e :: before).reverse = es
  | .arguments es => ∀ c left type stop,
    run (.operand (Context.enter c (.arguments left type [])) none) (ts ++ [⟨.closeParen, stop⟩]) =
      .ok (.afterArguments c left type es stop)
  | .elements es => ∀ c left tag start stop,
    run (.operand (Context.enter c (.items left tag start [])) none) (ts ++ [⟨.closeBrace, stop⟩]) =
      .ok (.afterOperand c (joined left (.array tag es (arraySpan tag start stop))))
  | .named given => ∀ c left type arguments, ∃ s key e before,
    run (.namedKey c left type arguments []) ts = .ok s ∧
      s.Holds (c.enter (.named left type arguments before key)) e ∧
      ((key, e) :: before).reverse = given
  | .statement s => ∀ done, run (.statement done) ts = .ok (.statement (s :: done))
  | .statements ss => run (.statement []) ts = .ok (.statement ss.reverse)
  | .program p => run (.statement []) ts = .ok (.finished p)

variable {ts us : List Token}

/-- An operand is taken behind an expression and a caret. -/
theorem taken_concat {left right : Expr} {caret : Span}
    (hleft : (Phrase.expression left).Taken ts) (hright : (Phrase.operand right).Taken us) :
    (Phrase.expression (.concat left right (left.span.merge right.span))).Taken
      (ts ++ ⟨.caret, caret⟩ :: us) := by
  intro c
  obtain ⟨s, hs, hholds⟩ := hleft c
  obtain ⟨s', hs', hholds'⟩ := hright c (some left)
  refine ⟨s', ?_, hholds'⟩
  have hcaret : step s ⟨.caret, caret⟩ = .ok (.operand c (some left)) :=
    (hholds .caret caret nofun nofun nofun).trans rfl
  rw [run_append_ok hs, run_cons_ok hcaret, hs']

/-- An item is taken behind the others and a comma. -/
theorem taken_nextItem {es : List Expr} {e : Expr} {comma : Span}
    (hitems : (Phrase.items es).Taken ts) (he : (Phrase.expression e).Taken us) :
    (Phrase.items (es ++ [e])).Taken (ts ++ ⟨.comma, comma⟩ :: us) := by
  intro frame hframe c
  obtain ⟨s, last, before, hs, hholds, hes⟩ := hitems frame hframe c
  obtain ⟨s', hs', hholds'⟩ := he (c.enter (frame (last :: before)))
  refine ⟨s', e, last :: before, ?_, hholds', by rw [List.reverse_cons, hes]⟩
  have hcomma := (hholds .comma comma nofun nofun nofun).trans (hframe c before last comma)
  rw [run_append_ok hs, run_cons_ok hcomma, hs']

/-- The closing parenthesis takes up the arguments before it. -/
theorem taken_someArguments {es : List Expr} (hitems : (Phrase.items es).Taken ts) :
    (Phrase.arguments es).Taken ts := by
  intro c left type stop
  obtain ⟨s, e, before, hs, hholds, hes⟩ := hitems _ (takesComma_arguments left type) c
  rw [run_append_ok hs, run_singleton, hholds .closeParen stop nofun nofun nofun, ← hes]
  rfl

/-- The closing brace takes up the items before it. -/
theorem taken_someElements {es : List Expr} (hitems : (Phrase.items es).Taken ts) :
    (Phrase.elements es).Taken ts := by
  intro c left tag start stop
  obtain ⟨s, e, before, hs, hholds, hes⟩ := hitems _ (takesComma_items left tag start) c
  rw [run_append_ok hs, run_singleton, hholds .closeBrace stop nofun nofun nofun, ← hes]
  rfl

/-- A comma behind the last item changes nothing. -/
theorem taken_lastComma {es : List Expr} {comma : Span} (hitems : (Phrase.items es).Taken ts) :
    (Phrase.elements es).Taken (ts ++ [⟨.comma, comma⟩]) := by
  intro c left tag start stop
  have hframe := takesComma_items left tag start
  obtain ⟨s, e, before, hs, hholds, hes⟩ := hitems _ hframe c
  have hcomma := (hholds .comma comma nofun nofun nofun).trans (hframe c before e comma)
  rw [List.append_assoc, run_append_ok hs, List.singleton_append, run_cons_ok hcomma, ← hes]
  rfl

/-- The first named argument is taken. -/
theorem taken_firstNamed {key : String} {span equals : Span} {e : Expr}
    (he : (Phrase.expression e).Taken ts) :
    (Phrase.named [(⟨key, span⟩, e)]).Taken (⟨.key key, span⟩ :: ⟨.equals, equals⟩ :: ts) := by
  intro c left type arguments
  obtain ⟨s, hs, hholds⟩ := he (c.enter (.named left type arguments [] ⟨key, span⟩))
  exact ⟨s, ⟨key, span⟩, e, [], hs, hholds, rfl⟩

/-- A named argument is taken behind the others and a comma. -/
theorem taken_nextNamed {named : List (Name × Expr)} {key : String} {comma span equals : Span}
    {e : Expr} (hnamed : (Phrase.named named).Taken ts) (he : (Phrase.expression e).Taken us) :
    (Phrase.named (named ++ [(⟨key, span⟩, e)])).Taken
      (ts ++ ⟨.comma, comma⟩ :: ⟨.key key, span⟩ :: ⟨.equals, equals⟩ :: us) := by
  intro c left type arguments
  obtain ⟨s, lastKey, last, before, hs, hholds, heq⟩ := hnamed c left type arguments
  obtain ⟨s', hs', hholds'⟩ :=
    he (c.enter (.named left type arguments ((lastKey, last) :: before) ⟨key, span⟩))
  refine ⟨s', ⟨key, span⟩, e, (lastKey, last) :: before, ?_, hholds',
    by rw [List.reverse_cons, heq]⟩
  have hcomma : step s ⟨.comma, comma⟩ =
      .ok (.namedKey c left type arguments ((lastKey, last) :: before)) :=
    (hholds .comma comma nofun nofun nofun).trans rfl
  rw [run_append_ok hs, run_cons_ok hcomma]
  exact hs'

/-- A literal is taken. -/
theorem taken_literal (value : Literal) (span : Span) :
    (Phrase.operand (.literal value span)).Taken [⟨value.token, span⟩] := by
  intro c left
  refine ⟨.afterOperand c (joined left (.literal value span)), ?_, holds_afterOperand c _⟩
  rw [run_singleton]
  change stepStart c left ⟨value.token, span⟩ = _
  unfold stepStart
  rw [literal?_token]

/-- A construction with named arguments is taken. -/
theorem taken_constructNamed {name : String} {span start close start' stop : Span}
    {arguments : List Expr} {named : List (Name × Expr)}
    (harguments : (Phrase.arguments arguments).Taken ts) (hnamed : (Phrase.named named).Taken us) :
    (Phrase.operand (.construct ⟨name, span⟩ arguments named (span.merge stop))).Taken
      (⟨.key name, span⟩ :: ⟨.openParen, start⟩ :: (ts ++ ⟨.closeParen, close⟩ ::
        ⟨.openBracket, start'⟩ :: (us ++ [⟨.closeBracket, stop⟩]))) := by
  intro c left
  obtain ⟨s, key, e, before, hs, hholds, heq⟩ := hnamed c left ⟨name, span⟩ arguments
  refine ⟨.afterOperand c _, ?_, holds_afterOperand c _⟩
  have hlist := harguments c left ⟨name, span⟩ close
  change run (.operand (c.enter (.arguments left ⟨name, span⟩ [])) none) _ = _
  rw [List.append_cons, run_append_ok hlist]
  change run (.namedKey c left ⟨name, span⟩ arguments []) _ = _
  rw [run_append_ok hs, run_singleton, hholds .closeBracket stop nofun nofun nofun, ← heq]
  rfl

/-- A semicolon ends the statement whose expression is before it. -/
theorem run_value {e : Expr} (he : (Phrase.expression e).Taken ts) (done : List Statement)
    (head : Head) (stop : Span) :
    run (.operand ⟨done, head, []⟩ none) (ts ++ [⟨.semicolon, stop⟩]) =
      .ok (.statement (head.close e stop :: done)) := by
  obtain ⟨s, hs, hholds⟩ := he ⟨done, head, []⟩
  rw [run_append_ok hs, run_singleton, hholds .semicolon stop nofun nofun nofun]
  rfl

/-- A key other than the reserved one begins an assignment. -/
theorem step_statement_key {key : String} (hkey : key ≠ selfKey) (done : List Statement)
    (span : Span) :
    step (.statement done) ⟨.key key, span⟩ = .ok (.assignment done ⟨key, span⟩) :=
  if_neg hkey

/-- The parser takes what the grammar derives. -/
theorem Derives.taken {phrase : Phrase} (h : Derives ts phrase) : phrase.Taken ts := by
  induction h with
  | literal => exact taken_literal _ _
  | @key name span => exact fun c left => ⟨_, rfl, holds_afterName c left ⟨name, span⟩⟩
  | @construct name span start ts arguments stop _ ih =>
    intro c left
    exact ⟨_, ih c left ⟨name, span⟩ stop, holds_afterArguments c left ⟨name, span⟩ _ _⟩
  | constructNamed _ _ ih ih' => exact taken_constructNamed ih ih'
  | @array start ts items stop _ ih =>
    exact fun c left => ⟨_, ih c left none start stop, holds_afterOperand c _⟩
  | @typedArray name span start ts items stop _ ih =>
    exact fun c left => ⟨_, ih c left (some ⟨name, span⟩) start stop, holds_afterOperand c _⟩
  | single _ ih => exact fun c => ih c none
  | concat _ _ ih ih' => exact taken_concat ih ih'
  | firstItem _ ih =>
    intro frame _ c
    obtain ⟨s, hs, hholds⟩ := ih (c.enter (frame []))
    exact ⟨s, _, [], hs, hholds, rfl⟩
  | nextItem _ _ ih ih' => exact taken_nextItem ih ih'
  | noArguments => exact fun _ _ _ _ => rfl
  | someArguments _ ih => exact taken_someArguments ih
  | noElements => exact fun _ _ _ _ _ => rfl
  | someElements _ ih => exact taken_someElements ih
  | lastComma _ ih => exact taken_lastComma ih
  | firstNamed _ ih => exact taken_firstNamed ih
  | nextNamed _ _ ih ih' => exact taken_nextNamed ih ih'
  | set hkey _ ih =>
    intro done
    rw [run_cons_ok (step_statement_key hkey done _)]
    exact run_value ih done _ _
  | default hkey _ ih =>
    intro done
    rw [run_cons_ok (step_statement_key hkey done _)]
    exact run_value ih done _ _
  | inclusion _ ih => exact fun done => run_value ih done _ _
  | noStatements => rfl
  | nextStatement _ _ ih ih' =>
    change run _ _ = _
    rw [run_append_ok ih, ih', List.reverse_append]
    rfl
  | program _ ih =>
    change run _ _ = _
    rw [run_append_ok ih, run_singleton]
    simp [step]

/-- The parser finds the program that tokens derive. -/
theorem Derives.parseTokens {p : Program} (h : Derives ts (.program p)) :
    Syntax.parseTokens ts = .ok p :=
  parseTokens_eq_ok.mpr h.taken

end TypedConfig.Syntax
