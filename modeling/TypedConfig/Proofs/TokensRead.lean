import TypedConfig.Proofs.Grammar

/-!
# What the parser has read

Each state of the parser stands for the tokens that have led to it: whole statements, and in the
last one whole expressions around which something is still open. A token takes the parser from what
it has read to that and the token, so the program it ends with is one that the grammar derives.

Together with the converse this makes the parser and the grammar agree on every sequence of tokens,
and the grammar unambiguous.
-/

namespace TypedConfig.Syntax

open Source (Span)

/-- The left operand that waits for its right one, with the caret behind it. -/
inductive LeftRead : Option Expr → List Token → Prop
  | none : LeftRead none []
  | some {ts e caret} : Derives ts (.expression e) → LeftRead (some e) (ts ++ [⟨.caret, caret⟩])

/-- The items before the current one, newest first, each with the comma behind it. -/
inductive ItemsRead : List Expr → List Token → Prop
  | none : ItemsRead [] []
  | some {ts before comma} : Derives ts (.items before.reverse) →
    ItemsRead before (ts ++ [⟨.comma, comma⟩])

/-- The named arguments before the current one, newest first, each with the comma behind it. -/
inductive NamedRead : List (Name × Expr) → List Token → Prop
  | none : NamedRead [] []
  | some {ts before comma} : Derives ts (.named before.reverse) →
    NamedRead before (ts ++ [⟨.comma, comma⟩])

/-- The beginning of the current statement. -/
inductive HeadRead : Head → List Token → Prop
  | set {key span equals} : key ≠ selfKey →
    HeadRead (.set ⟨key, span⟩) [⟨.key key, span⟩, ⟨.equals, equals⟩]
  | default {key span tilde} : key ≠ selfKey →
    HeadRead (.default ⟨key, span⟩) [⟨.key key, span⟩, ⟨.tilde, tilde⟩]
  | inclusion {start} : HeadRead (.include start) [⟨.include, start⟩]

/-- A construction up to the closing parenthesis. -/
inductive CallRead : Name → List Expr → Span → List Token → Prop
  | intro {name span start ts arguments stop} : Derives ts (.arguments arguments) →
    CallRead ⟨name, span⟩ arguments stop
      (⟨.key name, span⟩ :: ⟨.openParen, start⟩ :: (ts ++ [⟨.closeParen, stop⟩]))

/-- An array up to its opening brace. -/
inductive BraceRead : Option Name → Span → List Token → Prop
  | plain {start} : BraceRead none start [⟨.openBrace, start⟩]
  | typed {name span start} :
    BraceRead (some ⟨name, span⟩) start [⟨.key name, span⟩, ⟨.openBrace, start⟩]

/-- What is open around the current expression. -/
inductive FrameRead : Frame → List Token → Prop
  | arguments {left ls name span start before ts} : LeftRead left ls → ItemsRead before ts →
    FrameRead (.arguments left ⟨name, span⟩ before)
      (ls ++ ⟨.key name, span⟩ :: ⟨.openParen, start⟩ :: ts)
  | items {left ls tag start os before ts} : LeftRead left ls → BraceRead tag start os →
    ItemsRead before ts → FrameRead (.items left tag start before) (ls ++ os ++ ts)
  | named {left ls type arguments stop cs bracket before ts key span equals} : LeftRead left ls →
    CallRead type arguments stop cs → NamedRead before ts →
    FrameRead (.named left type arguments before ⟨key, span⟩)
      (ls ++ cs ++ ⟨.openBracket, bracket⟩ :: ts ++ [⟨.key key, span⟩, ⟨.equals, equals⟩])

/-- The statements so far and what is open behind them. -/
inductive ContextRead : Context → List Token → Prop
  | statement {done head ts hs} : Derives ts (.statements done.reverse) → HeadRead head hs →
    ContextRead ⟨done, head, []⟩ (ts ++ hs)
  | frame {done head frames frame ts fs} : ContextRead ⟨done, head, frames⟩ ts →
    FrameRead frame fs → ContextRead ⟨done, head, frame :: frames⟩ (ts ++ fs)

/-- The tokens that lead to a state. What stands behind the end of the input is not looked at. -/
inductive State.Reads : State → List Token → Prop
  | statement {done ts} : Derives ts (.statements done.reverse) → Reads (.statement done) ts
  | assignment {done ts key span} : Derives ts (.statements done.reverse) → key ≠ selfKey →
    Reads (.assignment done ⟨key, span⟩) (ts ++ [⟨.key key, span⟩])
  | operand {c left ts ls} : ContextRead c ts → LeftRead left ls →
    Reads (.operand c left) (ts ++ ls)
  | afterName {c left name span ts ls} : ContextRead c ts → LeftRead left ls →
    Reads (.afterName c left ⟨name, span⟩) (ts ++ ls ++ [⟨.key name, span⟩])
  | afterOperand {c e ts us} : ContextRead c ts → Derives us (.expression e) →
    Reads (.afterOperand c e) (ts ++ us)
  | afterArguments {c left type arguments stop ts ls cs} : ContextRead c ts → LeftRead left ls →
    CallRead type arguments stop cs →
    Reads (.afterArguments c left type arguments stop) (ts ++ ls ++ cs)
  | namedKey {c left type arguments stop before ts ls cs bracket ns} : ContextRead c ts →
    LeftRead left ls → CallRead type arguments stop cs → NamedRead before ns →
    Reads (.namedKey c left type arguments before)
      (ts ++ ls ++ cs ++ ⟨.openBracket, bracket⟩ :: ns)
  | namedEquals {c left type arguments stop before ts ls cs bracket ns key span} :
    ContextRead c ts → LeftRead left ls → CallRead type arguments stop cs → NamedRead before ns →
    Reads (.namedEquals c left type arguments before ⟨key, span⟩)
      (ts ++ ls ++ cs ++ ⟨.openBracket, bracket⟩ :: ns ++ [⟨.key key, span⟩])
  | finished {program ts rest} : Derives ts (.program program) →
    Reads (.finished program) (ts ++ rest)

variable {c : Context} {left : Option Expr} {e : Expr} {ts ls us : List Token}

/-- A token that is read as a literal is the token of the literal. -/
theorem literal_token_of_literal? {kind : TokenKind} {value : Literal}
    (h : literal? kind = some value) : value.token = kind := by
  cases kind <;> cases h <;> rfl

/-- A left operand and the operand that it waits for are an expression. -/
theorem LeftRead.joined (hleft : LeftRead left ls) (he : Derives us (.operand e)) :
    Derives (ls ++ us) (.expression (joined left e)) := by
  cases hleft with
  | none => exact .single he
  | some hl =>
    rw [List.append_assoc]
    exact .concat hl he

/-- Items are never none. -/
theorem Derives.items_ne_nil {es : List Expr} (h : Derives ts (.items es)) : es ≠ [] := by
  cases h <;> simp

/-- Before the first item nothing has been read. -/
theorem ItemsRead.eq_nil (h : ItemsRead [] ts) : ts = [] := by
  cases h with
  | none => rfl
  | some h => exact absurd rfl h.items_ne_nil

/-- One more item may be read behind the others. -/
theorem ItemsRead.item {before : List Expr} (hbefore : ItemsRead before ts)
    (he : Derives us (.expression e)) : Derives (ts ++ us) (.items (e :: before).reverse) := by
  rw [List.reverse_cons]
  cases hbefore with
  | none => exact .firstItem he
  | some h =>
    rw [List.append_assoc]
    exact .nextItem h he

/-- One more named argument may be read behind the others. -/
theorem NamedRead.named {before : List (Name × Expr)} {key : String} {span equals : Span}
    (hbefore : NamedRead before ts) (he : Derives us (.expression e)) :
    Derives (ts ++ ⟨.key key, span⟩ :: ⟨.equals, equals⟩ :: us)
      (.named ((⟨key, span⟩, e) :: before).reverse) := by
  rw [List.reverse_cons]
  cases hbefore with
  | none => exact .firstNamed he
  | some h =>
    rw [List.append_assoc]
    exact .nextNamed h he

/-- An array may end behind its last item, behind a comma, or before any item. -/
theorem ItemsRead.elements {before : List Expr} (h : ItemsRead before ts) :
    Derives ts (.elements before.reverse) := by
  cases h with
  | none => exact .noElements
  | some h => exact .lastComma h

/-- A construction without named arguments is an operand. -/
theorem CallRead.construct {type : Name} {arguments : List Expr} {stop : Span}
    (h : CallRead type arguments stop ts) :
    Derives ts (.operand (.construct type arguments [] (type.span.merge stop))) := by
  obtain ⟨h⟩ := h
  exact .construct h

/-- A closing brace makes an array of the items that have been read. -/
theorem BraceRead.array {tag : Option Name} {start : Span} {items : List Expr}
    (hbrace : BraceRead tag start ts) (hitems : Derives us (.elements items)) (stop : Span) :
    Derives (ts ++ us ++ [⟨.closeBrace, stop⟩])
      (.operand (.array tag items (arraySpan tag start stop))) := by
  cases hbrace with
  | plain => exact .array hitems
  | typed => exact .typedArray hitems

/-- A semicolon makes a statement of what has been read. -/
theorem HeadRead.close {head : Head} {stop : Span} (hhead : HeadRead head ts)
    (he : Derives us (.expression e)) :
    Derives (ts ++ us ++ [⟨.semicolon, stop⟩]) (.statement (head.close e stop)) := by
  cases hhead with
  | set hkey => exact .set hkey he
  | default hkey => exact .default hkey he
  | inclusion => exact .inclusion he

/-- A token that is not refused where two are possible is one of the two. -/
theorem eq_or_eq_of_refuse {first second : TokenKind} {s₁ s₂ s : State} {wanted : Wanted}
    {t : Token}
    (h : (if t.kind = first then .ok s₁ else if t.kind = second then .ok s₂ else refuse wanted t) =
      .ok s) :
    (t.kind = first ∧ s₁ = s) ∨ (t.kind = second ∧ s₂ = s) := by
  split at h
  next hfirst => exact .inl ⟨hfirst, Except.ok.inj h⟩
  next =>
    split at h
    next hsecond => exact .inr ⟨hsecond, Except.ok.inj h⟩
    next => exact absurd h (refuse_ne_ok _ _ _)

/-- The token after an operand goes to what is open around it. -/
theorem stepOperand_reads {t : Token} {s : State} (hc : ContextRead c ts)
    (he : Derives us (.expression e)) (h : stepOperand c e t = .ok s) :
    s.Reads (ts ++ us ++ [t]) := by
  obtain ⟨kind, span⟩ := t
  unfold stepOperand at h
  split at h
  next hcaret =>
    cases hcaret
    cases h
    simpa using State.Reads.operand hc (.some he)
  next =>
    cases hc with
    | statement hdone hhead =>
      dsimp only at h
      split at h
      next hsemicolon =>
        cases hsemicolon
        cases h
        exact .statement (by simpa using Derives.nextStatement hdone (hhead.close he))
      next => exact absurd h (refuse_ne_ok _ _ _)
    | frame hc hframe =>
      cases hframe with
      | arguments hleft hbefore =>
        obtain ⟨hkind, rfl⟩ | ⟨hkind, rfl⟩ := eq_or_eq_of_refuse h
        · cases hkind
          simpa using State.Reads.operand
            (.frame hc (.arguments hleft (.some (hbefore.item he)))) .none
        · cases hkind
          simpa using State.Reads.afterArguments hc hleft
            (.intro (.someArguments (hbefore.item he)))
      | items hleft hbrace hbefore =>
        obtain ⟨hkind, rfl⟩ | ⟨hkind, rfl⟩ := eq_or_eq_of_refuse h
        · cases hkind
          simpa using State.Reads.operand
            (.frame hc (.items hleft hbrace (.some (hbefore.item he)))) .none
        · cases hkind
          have harray := hbrace.array (.someElements (hbefore.item he)) span
          simpa using State.Reads.afterOperand hc (hleft.joined harray)
      | named hleft hcall hbefore =>
        obtain ⟨hkind, rfl⟩ | ⟨hkind, rfl⟩ := eq_or_eq_of_refuse h
        · cases hkind
          simpa using State.Reads.namedKey hc hleft hcall (.some (hbefore.named he))
        · cases hkind
          obtain ⟨harguments⟩ := hcall
          simpa using State.Reads.afterOperand hc
            (hleft.joined (.constructNamed harguments (hbefore.named he)))

/-- The token at the beginning of an operand is the operand, opens it, or ends the list in which it
could have been. -/
theorem stepStart_reads {t : Token} {s : State} (hc : ContextRead c ts) (hleft : LeftRead left ls)
    (h : stepStart c left t = .ok s) : s.Reads (ts ++ ls ++ [t]) := by
  obtain ⟨kind, span⟩ := t
  unfold stepStart at h
  split at h
  next value hvalue =>
    obtain rfl : value.token = kind := literal_token_of_literal? hvalue
    cases h
    simpa using State.Reads.afterOperand hc (hleft.joined .literal)
  next =>
    split at h
    next hkind =>
      cases hkind
      cases h
      exact .afterName hc hleft
    next hkind =>
      cases hkind
      cases h
      simpa using State.Reads.operand (.frame hc (.items hleft .plain .none)) .none
    next outerLeft type outer hkind hframes =>
      cases hkind
      cases h
      obtain ⟨done, head, frames⟩ := c
      cases hframes
      cases hleft
      cases hc with
      | frame hc hframe =>
        cases hframe with
        | arguments hleft hbefore =>
          obtain rfl := hbefore.eq_nil
          simpa using State.Reads.afterArguments hc hleft (.intro .noArguments)
    next outerLeft tag start before outer hkind hframes =>
      cases hkind
      cases h
      obtain ⟨done, head, frames⟩ := c
      cases hframes
      cases hleft
      cases hc with
      | frame hc hframe =>
        cases hframe with
        | items hleft hbrace hbefore =>
          have harray := hbrace.array hbefore.elements span
          simpa using State.Reads.afterOperand hc (hleft.joined harray)
    next => exact absurd h (refuse_ne_ok _ _ _)

/-- A token takes the parser from what it has read to that and the token. -/
theorem step_reads {s s' : State} {t : Token} (hs : s.Reads ts) (h : step s t = .ok s') :
    s'.Reads (ts ++ [t]) := by
  obtain ⟨kind, span⟩ := t
  cases hs with
  | statement hdone =>
    rw [step] at h
    split at h
    next hkind =>
      cases hkind
      cases h
      rw [← List.append_nil (ts ++ [(⟨.endOfInput, span⟩ : Token)])]
      exact .finished (.program hdone)
    next hkind =>
      cases hkind
      cases h
      simpa using State.Reads.operand (.statement hdone .inclusion) .none
    next => cases h
    next hkind =>
      cases hkind
      split at h
      next => cases h
      next hkey =>
        cases h
        exact .assignment hdone hkey
    next => exact absurd h (refuse_ne_ok _ _ _)
  | assignment hdone hkey =>
    rw [step] at h
    split at h
    next hkind =>
      cases hkind
      cases h
      simpa using State.Reads.operand (.statement hdone (.set hkey)) .none
    next hkind =>
      cases hkind
      cases h
      simpa using State.Reads.operand (.statement hdone (.default hkey)) .none
    next => exact absurd h (refuse_ne_ok _ _ _)
  | operand hc hleft => exact stepStart_reads hc hleft h
  | afterName hc hleft =>
    rw [step] at h
    split at h
    next hkind =>
      cases hkind
      cases h
      simpa using State.Reads.operand (.frame hc (.arguments hleft .none)) .none
    next hkind =>
      cases hkind
      cases h
      simpa using State.Reads.operand (.frame hc (.items hleft .typed .none)) .none
    next => simpa using stepOperand_reads hc (hleft.joined .key) h
  | afterOperand hc he => exact stepOperand_reads hc he h
  | afterArguments hc hleft hcall =>
    rw [step] at h
    split at h
    next hkind =>
      cases hkind
      cases h
      exact .namedKey hc hleft hcall .none
    next => simpa using stepOperand_reads hc (hleft.joined hcall.construct) h
  | namedKey hc hleft hcall hbefore =>
    rw [step] at h
    split at h
    next hkind =>
      cases hkind
      cases h
      simpa using State.Reads.namedEquals hc hleft hcall hbefore
    next => exact absurd h (refuse_ne_ok _ _ _)
  | namedEquals hc hleft hcall hbefore =>
    rw [step] at h
    split at h
    next hkind =>
      cases hkind
      cases h
      simpa using State.Reads.operand (.frame hc (.named hleft hcall hbefore)) .none
    next => exact absurd h (refuse_ne_ok _ _ _)
  | finished hprogram =>
    cases h
    simpa using State.Reads.finished hprogram

/-- Along a run the parser has read all tokens so far. -/
theorem run_reads {s s' : State} (hs : s.Reads ts) (h : run s us = .ok s') :
    s'.Reads (ts ++ us) := by
  induction us generalizing s ts with
  | nil =>
    cases h
    simpa using hs
  | cons t us ih =>
    rw [run] at h
    cases hstep : step s t with
    | error e =>
      rw [hstep] at h
      cases h
    | ok next =>
      rw [hstep] at h
      simpa using ih (step_reads hs hstep) h

/-- A program that the parser finds is derived from the tokens up to the end of the input. -/
theorem derives_of_parseTokens {tokens : List Token} {p : Program}
    (h : parseTokens tokens = .ok p) :
    ∃ read rest, tokens = read ++ rest ∧ Derives read (.program p) := by
  have hread := run_reads (.statement .noStatements) (parseTokens_eq_ok.mp h)
  cases hread with
  | finished hprogram => exact ⟨_, _, rfl, hprogram⟩

/-- The statements of a derived program are derived from some of its tokens. -/
theorem Derives.statement_of_mem {ts : List Token} {ss : List Statement} {s : Statement}
    (h : Derives ts (.statements ss)) (hs : s ∈ ss) :
    ∃ us, us.Sublist ts ∧ Derives us (.statement s) := by
  generalize hphrase : Phrase.statements ss = phrase at h
  induction h generalizing ss with
  | noStatements =>
    cases hphrase
    cases hs
  | @nextStatement ts ss' us s' _ hlast ih _ =>
    cases hphrase
    rcases List.mem_append.mp hs with hs | hs
    · obtain ⟨us', hsub, hderives⟩ := ih hs rfl
      exact ⟨us', hsub.trans (List.sublist_append_left ts us), hderives⟩
    · obtain rfl := List.mem_singleton.mp hs
      exact ⟨us, List.sublist_append_right ts us, hlast⟩
  | _ => cases hphrase

/-- The statements of a text are derived from tokens of the text. -/
theorem statement_of_parse {text : String} {p : Program} (h : parse text = .ok p)
    (hs : s ∈ p) : ∃ us, us.Sublist (lex text) ∧ Derives us (.statement s) := by
  obtain ⟨read, rest, heq, hderives⟩ := derives_of_parseTokens h
  cases hderives with
  | @program ts _ span hstatements =>
    obtain ⟨us, hsub, hstatement⟩ := hstatements.statement_of_mem hs
    refine ⟨us, ?_, hstatement⟩
    rw [heq]
    exact (hsub.trans (List.sublist_append_left _ _)).trans (List.sublist_append_left _ _)

/-- The end of the input is the last token of what it ends. -/
theorem Derives.rest_eq_nil {read rest body : List Token} {span : Span} {p : Program}
    (h : Derives read (.program p)) (hbody : ∀ t ∈ body, t.kind ≠ .endOfInput)
    (heq : body ++ [⟨.endOfInput, span⟩] = read ++ rest) : rest = [] := by
  cases h with
  | @program ts _ stop _ =>
    rw [List.append_assoc, List.singleton_append] at heq
    rcases List.append_eq_append_iff.mp heq with ⟨more, hmore, hrest⟩ | ⟨more, hmore, hrest⟩
    · cases more with
      | nil => exact (List.cons.inj hrest).2.symm
      | cons t more => simp at hrest
    · cases more with
      | nil => exact (List.cons.inj hrest).2
      | cons t more =>
        obtain rfl : (⟨.endOfInput, stop⟩ : Token) = t := (List.cons.inj hrest).1
        exact absurd rfl (hbody ⟨.endOfInput, stop⟩ (by simp [hmore]))

/-- The parser and the grammar agree. From tokens of which only the last is the end of the input,
and among which there may be errors in any place, the parser finds a program exactly if the grammar
derives it. No tokens derive two programs. -/
theorem parseTokens_eq_ok_iff_derives :
    (∀ (body : List Token) (span : Span) (p : Program), (∀ t ∈ body, t.kind ≠ .endOfInput) →
      (parseTokens (body ++ [⟨.endOfInput, span⟩]) = .ok p ↔
        Derives (body ++ [⟨.endOfInput, span⟩]) (.program p))) ∧
    ∀ (tokens : List Token) (p q : Program), Derives tokens (.program p) →
      Derives tokens (.program q) → p = q := by
  constructor
  · intro body span p hbody
    refine ⟨fun h => ?_, Derives.parseTokens⟩
    obtain ⟨read, rest, heq, hderives⟩ := derives_of_parseTokens h
    obtain rfl := hderives.rest_eq_nil hbody heq
    rw [heq, List.append_nil]
    exact hderives
  · intro tokens p q hp hq
    have hsame : Except.ok p = Except.ok q := hp.parseTokens.symm.trans hq.parseTokens
    exact Except.ok.inj hsame

/-- A comma may end the items of an array, but not the arguments of a construction. -/
theorem derives_last_comma :
    let items : List Token := [⟨.key "x", ⟨0, 1⟩⟩, ⟨.equals, ⟨1, 2⟩⟩, ⟨.openBrace, ⟨2, 3⟩⟩,
      ⟨.int 1, ⟨3, 4⟩⟩, ⟨.comma, ⟨4, 5⟩⟩, ⟨.key "a", ⟨5, 6⟩⟩, ⟨.caret, ⟨6, 7⟩⟩, ⟨.key "b", ⟨7, 8⟩⟩,
      ⟨.comma, ⟨8, 9⟩⟩, ⟨.closeBrace, ⟨9, 10⟩⟩, ⟨.semicolon, ⟨10, 11⟩⟩]
    let arguments : List Token := [⟨.key "x", ⟨0, 1⟩⟩, ⟨.equals, ⟨1, 2⟩⟩, ⟨.key "F", ⟨2, 3⟩⟩,
      ⟨.openParen, ⟨3, 4⟩⟩, ⟨.int 1, ⟨4, 5⟩⟩, ⟨.comma, ⟨5, 6⟩⟩, ⟨.closeParen, ⟨6, 7⟩⟩,
      ⟨.semicolon, ⟨7, 8⟩⟩]
    let program : Program := [⟨.set ⟨"x", ⟨0, 1⟩⟩ (.array none [.literal (.int 1) ⟨3, 4⟩,
      .concat (.variable "a" ⟨5, 6⟩) (.variable "b" ⟨7, 8⟩) ⟨5, 8⟩] ⟨2, 10⟩), ⟨0, 11⟩⟩]
    (∀ t ∈ items, t.kind ≠ .endOfInput) ∧ (∀ t ∈ arguments, t.kind ≠ .endOfInput) ∧
      (∀ p, Derives (items ++ [⟨.endOfInput, ⟨11, 11⟩⟩]) (.program p) ↔ p = program) ∧
      ∀ p, ¬Derives (arguments ++ [⟨.endOfInput, ⟨8, 8⟩⟩]) (.program p) := by
  intro items arguments program
  have hitems : ∀ t ∈ items, t.kind ≠ .endOfInput := by simp [items]
  have harguments : ∀ t ∈ arguments, t.kind ≠ .endOfInput := by simp [arguments]
  obtain ⟨hagree, hunique⟩ := parseTokens_eq_ok_iff_derives
  have hprogram : Derives (items ++ [⟨.endOfInput, ⟨11, 11⟩⟩]) (.program program) :=
    (hagree items ⟨11, 11⟩ program hitems).mp rfl
  refine ⟨hitems, harguments, fun p => ⟨fun h => hunique _ p program h hprogram, ?_⟩, fun p h => ?_⟩
  · rintro rfl
    exact hprogram
  · have hparse := (hagree arguments ⟨8, 8⟩ p harguments).mpr h
    have hrefused : parseTokens (arguments ++ [⟨.endOfInput, ⟨8, 8⟩⟩]) =
        .error ⟨⟨6, 7⟩, .unexpected .expression .closeParen⟩ := rfl
    rw [hrefused] at hparse
    cases hparse

end TypedConfig.Syntax
