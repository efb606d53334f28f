import TypedConfig.Proofs.Places

/-!
# The first offending token

From every state the parser can still be led to a program: what is open can be closed, the
innermost first, and the statement ended. So the tokens in front of the one at which it stops could
have gone on to a program, and the first offending token is the one at which a syntax error is
reported.

What stands behind that token has not been looked at. It changes neither the error nor the line and
the column of it, as long as the offset of the token has not been cut. So the tokens of a text need
not go on behind a lexical error.
-/

namespace TypedConfig.Syntax

open Source (Span byteLength byteLength_append maxOffset)

/-- Some tokens, of which only the last is the end of the input, lead from a state to a program. -/
def State.Completable (s : State) : Prop :=
  ∃ body span p, (∀ t ∈ body, t.kind ≠ .endOfInput) ∧
    run s (body ++ [⟨.endOfInput, span⟩]) = .ok (.finished p)

namespace State.Completable

variable {s next : State} {c : Context} {e : Expr} {t : Token}

/-- What can be led to a program after a token can be led there before it. -/
theorem of_step (ht : t.kind ≠ .endOfInput) (hstep : step s t = .ok next)
    (h : next.Completable) : s.Completable := by
  obtain ⟨body, span, p, hbody, hrun⟩ := h
  refine ⟨t :: body, span, p, List.forall_mem_cons.mpr ⟨ht, hbody⟩, ?_⟩
  rw [List.cons_append, run_cons_ok hstep, hrun]

/-- Where a statement may begin, the input may end. -/
theorem statement (done : List Statement) : (State.statement done).Completable :=
  ⟨[], default, done.reverse, nofun, rfl⟩

/-- Behind a complete operand what is open around it can be closed. -/
theorem of_holds (h : s.Holds c e) : s.Completable := by
  -- Each closing token leaves a complete operand one frame further out.
  obtain ⟨done, head, frames⟩ := c
  induction frames generalizing s e with
  | nil =>
    have hclose := h .semicolon default nofun nofun nofun
    exact of_step (t := ⟨.semicolon, default⟩) nofun hclose (statement _)
  | cons frame outer ih =>
    cases frame with
    | arguments left type before =>
      have hclose := h .closeParen default nofun nofun nofun
      exact of_step (t := ⟨.closeParen, default⟩) nofun hclose
        (ih (holds_afterArguments _ left type _ _))
    | items left tag start before =>
      have hclose := h .closeBrace default nofun nofun nofun
      exact of_step (t := ⟨.closeBrace, default⟩) nofun hclose (ih (holds_afterOperand _ _))
    | named left type arguments before key =>
      have hclose := h .closeBracket default nofun nofun nofun
      exact of_step (t := ⟨.closeBracket, default⟩) nofun hclose (ih (holds_afterOperand _ _))

/-- Where an operand may begin, a number may stand. -/
theorem operand (c : Context) (left : Option Expr) : (State.operand c left).Completable :=
  of_step (t := ⟨.int 0, default⟩) nofun rfl (of_holds (holds_afterOperand c _))

end State.Completable

/-- No state is a dead end. -/
theorem State.completable (s : State) : s.Completable := by
  cases s with
  | statement done => exact .statement done
  | assignment done key =>
    exact .of_step (t := ⟨.equals, default⟩) nofun rfl (.operand _ _)
  | operand c left => exact .operand c left
  | afterName c left name => exact .of_holds (holds_afterName c left name)
  | afterOperand c e => exact .of_holds (holds_afterOperand c e)
  | afterArguments c left type arguments stop =>
    exact .of_holds (holds_afterArguments c left type arguments stop)
  | namedKey c left type arguments named =>
    refine .of_step (t := ⟨.key "", default⟩) nofun rfl ?_
    exact .of_step (t := ⟨.equals, default⟩) nofun rfl (.operand _ _)
  | namedEquals c left type arguments named key =>
    exact .of_step (t := ⟨.equals, default⟩) nofun rfl (.operand _ _)
  | finished p => exact ⟨[], default, p, nofun, rfl⟩

variable {s next : State} {c : Context} {left : Option Expr} {e : Expr} {t : Token}
  {error : SyntaxError}

/-- A token is refused at its own span. -/
theorem refuse_span {wanted : Wanted} (h : refuse wanted t = .error error) :
    error.span = t.span := by
  unfold refuse at h
  split at h <;> cases h <;> rfl

/-- Behind an operand a token is refused at its own span. -/
theorem stepOperand_span (h : stepOperand c e t = .error error) : error.span = t.span := by
  unfold stepOperand at h
  split at h
  · cases h
  split at h
  · split at h
    · cases h
    · exact refuse_span h
  all_goals
    split at h
    · cases h
    · split at h
      · cases h
      · exact refuse_span h

/-- At the begin of an operand a token is refused at its own span. -/
theorem stepStart_span (h : stepStart c left t = .error error) : error.span = t.span := by
  unfold stepStart at h
  split at h
  · cases h
  · split at h
    all_goals first | exact refuse_span h | cases h

/-- The parser stops at the token that it is looking at. -/
theorem step_span (h : step s t = .error error) : error.span = t.span := by
  cases s with
  | statement done =>
    rw [step] at h
    split at h
    · cases h
    · cases h
    · cases h
      rfl
    · split at h <;> cases h
      rfl
    · exact refuse_span h
  | assignment done key =>
    rw [step] at h
    split at h
    · cases h
    · cases h
    · exact refuse_span h
  | operand c left => exact stepStart_span h
  | afterName c left name =>
    rw [step] at h
    split at h
    · cases h
    · cases h
    · exact stepOperand_span h
  | afterOperand c e => exact stepOperand_span h
  | afterArguments c left type arguments stop =>
    rw [step] at h
    split at h
    · cases h
    · exact stepOperand_span h
  | namedKey c left type arguments named =>
    rw [step] at h
    split at h
    · cases h
    · exact refuse_span h
  | namedEquals c left type arguments named key =>
    rw [step] at h
    split at h
    · cases h
    · exact refuse_span h
  | finished p => cases h

/-- An operand cannot be followed by the end of the input or an error. -/
theorem stepOperand_closing (hclosing : t.kind = .endOfInput ∨ ∃ err, t.kind = .error err) :
    stepOperand c e t ≠ .ok next := by
  unfold stepOperand
  rcases hclosing with hkind | ⟨err, hkind⟩
  all_goals
    simp only [hkind, reduceCtorEq, if_false]
    split <;> exact refuse_ne_ok _ _ _

/-- Behind the end of the input, and behind a lexical error, there is nothing to go on with. -/
theorem step_closing (hclosing : t.kind = .endOfInput ∨ ∃ err, t.kind = .error err)
    (h : step s t = .ok next) : ∃ p, next = .finished p := by
  have hrefused (c : Context) (e : Expr) (hstep : stepOperand c e t = .ok next) :
      ∃ p, next = .finished p := absurd hstep (stepOperand_closing hclosing)
  obtain ⟨kind, span⟩ := t
  cases s with
  | statement done =>
    rcases hclosing with rfl | ⟨err, rfl⟩ <;> cases h
    exact ⟨done.reverse, rfl⟩
  | finished p =>
    cases h
    exact ⟨p, rfl⟩
  | afterOperand c e => exact hrefused c e h
  | afterName c left name | afterArguments c left type arguments stop =>
    rcases hclosing with rfl | ⟨err, rfl⟩ <;> exact hrefused c _ h
  | _ => rcases hclosing with rfl | ⟨err, rfl⟩ <;> cases h

/-- A run that fails has come to the token at which it fails. -/
theorem run_eq_error {ts : List Token} (h : run s ts = .error error) :
    ∃ before t rest next, ts = before ++ t :: rest ∧ run s before = .ok next ∧
      step next t = .error error := by
  induction ts generalizing s with
  | nil => cases h
  | cons t ts ih =>
    rw [run] at h
    cases hstep : step s t with
    | error e =>
      rw [hstep] at h
      cases h
      exact ⟨[], t, ts, s, rfl, rfl, hstep⟩
    | ok next =>
      rw [hstep] at h
      obtain ⟨before, u, rest, last, rfl, hrun, hlast⟩ := ih h
      exact ⟨t :: before, u, rest, last, rfl, by rw [run_cons_ok hstep, hrun], hlast⟩

/-- As long as the parser has not finished, it has read neither the end of the input nor a lexical
error. -/
theorem kind_of_run_open {ts : List Token} (h : run s ts = .ok next)
    (hopen : ∀ p, next ≠ .finished p) :
    ∀ t ∈ ts, t.kind ≠ .endOfInput ∧ ∀ err, t.kind ≠ .error err := by
  induction ts generalizing s with
  | nil => exact nofun
  | cons t ts ih =>
    rw [run] at h
    cases hstep : step s t with
    | error e =>
      rw [hstep] at h
      cases h
    | ok between =>
      rw [hstep] at h
      refine List.forall_mem_cons.mpr ⟨?_, ih h⟩
      have hbetween (p : Program) : between ≠ .finished p := by
        rintro rfl
        have hfinished := (run_finished p ts).symm.trans h
        exact hopen p (Except.ok.inj hfinished).symm
      constructor
      · intro hend
        obtain ⟨p, hp⟩ := step_closing (.inl hend) hstep
        exact hbetween p hp
      · intro err herr
        obtain ⟨p, hp⟩ := step_closing (.inr ⟨err, herr⟩) hstep
        exact hbetween p hp

/-- The tokens of a text end with the end of the input or with a lexical error. -/
theorem exists_closing (text : String) :
    ∃ t ∈ lex text, t.kind = .endOfInput ∨ ∃ err, t.kind = .error err := by
  obtain ⟨body, _, hends⟩ := Token.scan_join 0 text.toList []
  rcases hends with ⟨span, hlex, _⟩ | ⟨err, span, hlex⟩
  · exact ⟨⟨.endOfInput, span⟩, by simp [lex, hlex], .inl rfl⟩
  · exact ⟨⟨.error err, span⟩, by simp [lex, hlex], .inr ⟨err, rfl⟩⟩

/-- The tokens of a text lead to a program or to an error. -/
theorem run_lex_eq_ok {text : String} (h : run (.statement []) (lex text) = .ok next) :
    ∃ p, next = .finished p := by
  by_contra hopen
  obtain ⟨t, ht, hclosing⟩ := exists_closing text
  obtain ⟨hend, hclean⟩ := kind_of_run_open h (not_exists.mp hopen) t ht
  rcases hclosing with hkind | ⟨err, hkind⟩
  · exact hend hkind
  · exact hclean err hkind

/-- What would come behind the last token of a text is not read. The list of its tokens ends with
the first lexical error, and goes on to the end of the input only if there is none: whichever
tokens a longer list has behind that error, they stand for the same program or the same error. -/
theorem parseTokens_lex_append (text : String) (rest : List Token) :
    parseTokens (lex text ++ rest) = parse text := by
  unfold parse parseTokens
  rw [run_append]
  cases hrun : run (.statement []) (lex text) with
  | error e => rfl
  | ok next =>
    obtain ⟨p, rfl⟩ := run_lex_eq_ok hrun
    simp only [run_finished]

/-- A text that does not parse is one at which the parser stops. -/
theorem run_lex_eq_error {text : String} (h : parse text = .error error) :
    run (.statement []) (lex text) = .error error := by
  unfold parse parseTokens at h
  cases hrun : run (.statement []) (lex text) with
  | error e =>
    rw [hrun] at h
    exact congrArg _ (Except.error.inj h)
  | ok next =>
    obtain ⟨p, rfl⟩ := run_lex_eq_ok hrun
    rw [hrun] at h
    cases h

/-- Where the parser stops at an error, the error is that of the text. -/
theorem parseTokens_of_error {tokens : List Token} (h : run (.statement []) tokens = .error error) :
    parseTokens tokens = .error error := by
  unfold parseTokens
  rw [h]

/-- What has been read before the parser finishes can go on to a program. -/
theorem derives_append_of_run_open {ts : List Token} (h : run (.statement []) ts = .ok next)
    (hopen : ∀ p, next ≠ .finished p) : ∃ more p, Derives (ts ++ more) (.program p) := by
  obtain ⟨body, span, p, hbody, hrun⟩ := next.completable
  have hparse : parseTokens (ts ++ body ++ [⟨.endOfInput, span⟩]) = .ok p := by
    rw [parseTokens_eq_ok, List.append_assoc, run_append_ok h, hrun]
  obtain ⟨read, rest, heq, hderives⟩ := derives_of_parseTokens hparse
  have hinside : ∀ t ∈ ts ++ body, t.kind ≠ .endOfInput := by
    intro t ht
    rcases List.mem_append.mp ht with ht | ht
    · exact (kind_of_run_open h hopen t ht).1
    · exact hbody t ht
  obtain rfl := hderives.rest_eq_nil hinside heq
  refine ⟨body ++ [⟨.endOfInput, span⟩], p, ?_⟩
  rwa [← List.append_assoc, heq, List.append_nil]

/-- The position of an offset that has not been cut depends on the text in front of it only. -/
theorem positionOf_congr {text other : String} {span : Span} {front xs ys : List Char}
    (hoffset : IsOffset text.toList span.start) (hfit : span.start < maxOffset)
    (htext : text.toList = front ++ xs) (hother : other.toList = front ++ ys)
    (hfront : span.start ≤ byteLength front) : positionOf other span = positionOf text span := by
  obtain ⟨before, rest, hsplit, hstart⟩ := hoffset
  have hbefore : span.start = byteLength before := by omega
  obtain ⟨more, hmore⟩ : ∃ more, front = before ++ more := by
    rcases List.append_eq_append_iff.mp (hsplit.symm.trans htext) with
      ⟨more, hmore, _⟩ | ⟨more, hmore, _⟩
    · exact ⟨more, hmore⟩
    · have hlength := congrArg byteLength hmore
      rw [byteLength_append] at hlength
      cases more with
      | nil => exact ⟨[], by rw [hmore]; simp⟩
      | cons c more =>
        have := c.utf8Size_pos
        rw [Source.byteLength_cons] at hlength
        omega
  rw [hmore, List.append_assoc] at hother
  rw [hbefore] at hfit
  rw [positionOf_eq_after hsplit hbefore hfit, positionOf_eq_after hother hbefore hfit]

/-- A syntax error is at the first offending token of a text. The tokens in front of it are without
lexical error and begin some program, and no tokens that begin with them and with the offending one
are a program. A text with the same tokens up to this one has the same error, whatever follows, and
at the same line and column if it has the same characters up to the token.

For the line and the column the token has to begin in front of the largest offset. Further behind,
spans are cut to that offset, which no longer says where the token is: its line and column are those
of the largest offset, and they depend on the lines of the text that start there or behind. -/
theorem parse_error_at_offending_token {text : String} (h : parse text = .error error) :
    ∃ before t rest, lex text = before ++ t :: rest ∧ error.span = t.span ∧
      (∀ u ∈ before, ∀ err, u.kind ≠ .error err) ∧
      (∃ more p, Derives (before ++ more) (.program p)) ∧
      (∀ more p, parseTokens (before ++ t :: more) ≠ .ok p) ∧
      ∀ (other : String) (rest' : List Token), lex other = before ++ t :: rest' →
        parse other = .error error ∧
        ∀ front xs ys, text.toList = front ++ xs → other.toList = front ++ ys →
          t.span.start ≤ byteLength front → t.span.start < maxOffset →
          positionOf other error.span = positionOf text error.span := by
  obtain ⟨before, t, rest, next, hlex, hrun, hstep⟩ := run_eq_error (run_lex_eq_error h)
  have hspan := step_span hstep
  have hopen (p : Program) : next ≠ .finished p := by
    rintro rfl
    cases hstep
  have hfails (more : List Token) : parseTokens (before ++ t :: more) = .error error := by
    apply parseTokens_of_error
    rw [run_append_ok hrun, run, hstep]
  have hoffset : IsOffset text.toList error.span.start := by
    rw [hspan]
    refine Token.scan_isOffset [] text.toList rfl t ?_
    change t ∈ lex text
    rw [hlex]
    exact List.mem_append_right _ (.head _)
  refine ⟨before, t, rest, hlex, hspan, fun u hu => (kind_of_run_open hrun hopen u hu).2,
    derives_append_of_run_open hrun hopen, fun more p hok => ?_, fun other rest' hother => ?_⟩
  · rw [hfails] at hok
    cases hok
  · refine ⟨by rw [parse, hother, hfails], fun front xs ys htext hxs hfront hfit => ?_⟩
    rw [← hspan] at hfront hfit
    exact positionOf_congr hoffset hfit htext hxs hfront

/-- A semicolon in an array is the error, whether the text ends there or goes on with a text that is
not closed. -/
theorem parse_error_in_array :
    let text := "x = \x7b1, ;"
    let other := "x = \x7b1, ;\n\"y"
    let error : SyntaxError := ⟨⟨8, 9⟩, .unexpected .expression .semicolon⟩
    let before : List Token := [⟨.key "x", ⟨0, 1⟩⟩, ⟨.equals, ⟨2, 3⟩⟩, ⟨.openBrace, ⟨4, 5⟩⟩,
      ⟨.int 1, ⟨5, 6⟩⟩, ⟨.comma, ⟨6, 7⟩⟩]
    parse text = .error error ∧ parse other = .error error ∧
      positionOf other error.span = positionOf text error.span ∧
      (∃ more p, Derives (before ++ more) (.program p)) ∧
      ∀ more p, parseTokens (before ++ ⟨.semicolon, ⟨8, 9⟩⟩ :: more) ≠ .ok p := by
  intro text other error before
  have hlex : lex text = before ++ [⟨.semicolon, ⟨8, 9⟩⟩, ⟨.endOfInput, ⟨9, 9⟩⟩] := by
    decide +kernel
  have hother : lex other =
      before ++ [⟨.semicolon, ⟨8, 9⟩⟩, ⟨.error .unterminatedString, ⟨10, 12⟩⟩] := by
    decide +kernel
  have hparse : parse text = .error error := by
    rw [parse, hlex]
    rfl
  obtain ⟨read, ⟨kind, span⟩, rest, hread, hspan, _, hopen, hrefused, hsame⟩ :=
    parse_error_at_offending_token hparse
  obtain rfl : (⟨8, 9⟩ : Span) = span := hspan
  -- No other token of the text has the span of the error.
  obtain ⟨rfl, rfl⟩ : read = before ∧ kind = .semicolon := by
    rw [hlex] at hread
    rcases read with _ | ⟨_, _ | ⟨_, _ | ⟨_, _ | ⟨_, _ | ⟨_, _ | ⟨_, _ | ⟨_, _⟩⟩⟩⟩⟩⟩⟩
    all_goals simp_all [before]
  obtain ⟨hparseOther, hposition⟩ := hsame other _ hother
  exact ⟨hparse, hparseOther,
    hposition text.toList [] "\n\"y".toList (by simp) (by decide +kernel) (by decide)
      (by decide), hopen, hrefused⟩

end TypedConfig.Syntax
