import Mathlib.Data.List.TakeWhile
import TypedConfig.Proofs.Scanning

/-!
# Parsing joined texts

The parser ends only at the end of the input, and only where a statement may begin. There it has
no memory of the statements it has read, so a text of its own may follow: the program of two
texts joined by a line break is that of the first followed by that of the second in its new place.
-/

namespace TypedConfig.Syntax

open Source

/-- A token that is refused leads nowhere. -/
theorem refuse_ne_ok (wanted : Wanted) (t : Token) (s : State) : refuse wanted t ≠ .ok s := by
  unfold refuse
  split <;> simp

/-- The parser does not finish behind an operand. -/
theorem stepOperand_ne_finished (c : Context) (e : Expr) (t : Token) (p : Program) :
    stepOperand c e t ≠ .ok (.finished p) := by
  unfold stepOperand
  split
  · simp
  split
  · split
    · simp
    · exact refuse_ne_ok _ _ _
  all_goals
    split
    · simp
    · split
      · simp
      · exact refuse_ne_ok _ _ _

/-- The parser does not finish at the begin of an operand. -/
theorem stepStart_ne_finished (c : Context) (left : Option Expr) (t : Token) (p : Program) :
    stepStart c left t ≠ .ok (.finished p) := by
  unfold stepStart
  split
  · simp
  · split
    all_goals first | exact refuse_ne_ok _ _ _ | simp

/-- Only the end of the input finishes a program, and only where a statement may begin. -/
theorem step_eq_finished {s : State} {t : Token} {p : Program} (h : step s t = .ok (.finished p)) :
    s = .finished p ∨ (t.kind = .endOfInput ∧ s = .statement p.reverse) := by
  cases s with
  | statement done =>
    rw [step] at h
    split at h
    · rename_i hend
      obtain rfl : done.reverse = p := by simpa using h
      exact .inr ⟨hend, by rw [List.reverse_reverse]⟩
    · simp at h
    · simp at h
    · split at h <;> simp at h
    · exact absurd h (refuse_ne_ok _ _ _)
  | assignment done key =>
    rw [step] at h
    split at h
    · simp at h
    · simp at h
    · exact absurd h (refuse_ne_ok _ _ _)
  | operand c left => exact absurd h (stepStart_ne_finished c left t p)
  | afterName c left name =>
    rw [step] at h
    split at h
    · simp at h
    · simp at h
    · exact absurd h (stepOperand_ne_finished _ _ _ _)
  | afterOperand c e => exact absurd h (stepOperand_ne_finished c e t p)
  | afterArguments c left type given stop =>
    rw [step] at h
    split at h
    · simp at h
    · exact absurd h (stepOperand_ne_finished _ _ _ _)
  | namedKey c left type given named =>
    rw [step] at h
    split at h
    · simp at h
    · exact absurd h (refuse_ne_ok _ _ _)
  | namedEquals c left type given named key =>
    rw [step] at h
    split at h
    · simp at h
    · exact absurd h (refuse_ne_ok _ _ _)
  | finished program => exact .inl (by simpa [step] using h)

/-- Tokens are read one part after the other. -/
theorem run_append (s : State) (xs ys : List Token) :
    run s (xs ++ ys) =
      match run s xs with
      | .ok next => run next ys
      | .error e => .error e := by
  induction xs generalizing s with
  | nil => rfl
  | cons x xs ih =>
    rw [List.cons_append, run, run]
    cases step s x with
    | ok next => exact ih next
    | error e => rfl

/-- A parser that has finished reads on without a change. -/
theorem run_finished (p : Program) (ts : List Token) :
    run (.finished p) ts = .ok (.finished p) := by
  induction ts with
  | nil => rfl
  | cons t ts ih => exact ih

/-- A run that finishes has read the end of the input where a statement may begin. -/
theorem run_eq_finished {s : State} {ts : List Token} {p : Program} (hopen : ∀ q, s ≠ .finished q)
    (h : run s ts = .ok (.finished p)) :
    ∃ before last after, ts = before ++ last :: after ∧ last.kind = .endOfInput ∧
      run s before = .ok (.statement p.reverse) := by
  induction ts generalizing s with
  | nil => exact absurd (Except.ok.inj h) (hopen p)
  | cons t ts ih =>
    rw [run] at h
    cases hstep : step s t with
    | error e => simp [hstep] at h
    | ok next =>
      rw [hstep] at h
      by_cases hnext : ∃ q, next = .finished q
      · obtain ⟨q, rfl⟩ := hnext
        obtain rfl : q = p := by simpa [run_finished] using h
        rcases step_eq_finished hstep with hs | ⟨hend, hs⟩
        · exact absurd hs (hopen q)
        · exact ⟨[], t, ts, rfl, hend, by rw [hs]; rfl⟩
      · obtain ⟨before, last, after, hts, hend, hrun⟩ :=
          ih (fun q hq => hnext ⟨q, hq⟩) h
        refine ⟨t :: before, last, after, by rw [hts, List.cons_append], hend, ?_⟩
        rw [run, hstep]
        exact hrun

/-- Tokens parse exactly when they lead to the finished program. -/
theorem parseTokens_eq_ok {tokens : List Token} {p : Program} :
    parseTokens tokens = .ok p ↔ run (.statement []) tokens = .ok (.finished p) := by
  unfold parseTokens
  split
  · rename_i q hq
    rw [hq]
    simp
  · rename_i hne hq
    rw [hq]
    constructor
    · intro h
      simp at h
    · intro h
      exact absurd (Except.ok.inj h) (hne p)
  · rename_i e hq
    rw [hq]
    simp

/-- A text parses exactly when its tokens lead to the finished program. -/
theorem parse_eq_ok {text : String} {p : Program} :
    parse text = .ok p ↔ run (.statement []) (lex text) = .ok (.finished p) :=
  parseTokens_eq_ok

/-- A text that parses scans to its last token, and a line break and another text may follow. -/
theorem run_join {text : String} {p : Program} (h : parse text = .ok p) (ys : List Char) :
    run (.statement []) (Token.scan 0 (text.toList ++ '\n' :: ys)) =
      run (.statement p.reverse) (Token.scan (byteLength text.toList + 1) ys) := by
  rw [parse_eq_ok, lex] at h
  obtain ⟨before, last, after, hts, hend, hrun⟩ := run_eq_finished (by simp) h
  obtain ⟨body, hbody, ⟨span, hleft, hboth⟩ | ⟨e, span, hleft⟩⟩ :=
    Token.scan_join 0 text.toList ys
  · -- The end of the input is the last token, so nothing stands after it.
    have hbefore : before = body := by
      rw [hleft] at hts
      rcases List.append_eq_append_iff.mp hts with ⟨more, hmore, hrest⟩ | ⟨more, hmore, hrest⟩
      · rcases more with _ | ⟨t, more⟩
        · rw [hmore, List.append_nil]
        · have hlength := congrArg List.length hrest
          simp at hlength
      · rcases more with _ | ⟨t, more⟩
        · rw [hmore, List.append_nil]
        · obtain rfl : last = t := (List.cons.inj hrest).1
          exact absurd hend (hbody last (by simp [hmore]))
    rw [Nat.zero_add] at hboth
    rw [hboth, run_append, ← hbefore, hrun]
  · have hmem : last ∈ body ++ [⟨.error e, span⟩] := by
      rw [← hleft, hts]
      simp
    rcases List.mem_append.mp hmem with hmem | hmem
    · exact absurd hend (hbody last hmem)
    · rw [List.mem_singleton.mp hmem] at hend
      simp at hend

/-- The spans of a program lie within its text. -/
theorem parse_cut {text : String} {p : Program} (h : parse text = .ok p) :
    p.map (Statement.relocate (Relocation.cut (byteLength text.toList))) = p := by
  have htokens : (lex text).map (Token.relocate (Relocation.cut (byteLength text.toList))) =
      lex text := by
    refine (List.map_congr_left fun t ht => ?_).trans (List.map_id _)
    obtain ⟨hstart, hstop⟩ := Token.scan_span_le 0 text.toList t ht
    rw [Nat.zero_add] at hstart hstop
    simp only [Token.relocate, Relocation.cut, Nat.min_eq_left hstart, Nat.min_eq_left hstop]
    rfl
  have hrun := run_relocate (Relocation.cut (byteLength text.toList)) [] (.statement []) (lex text)
  rw [htokens, parse_eq_ok.mp h] at hrun
  change run (.statement []) (lex text) = _ at hrun
  rw [parse_eq_ok.mp h] at hrun
  simpa [placed, State.place] using hrun.symm

/-- A text of blanks is a program without statements. -/
theorem parse_of_blank {text : String} (h : ∀ c ∈ text.toList, Token.isSpace c = true) :
    parse text = .ok [] := by
  have hrest : text.toList.dropWhile Token.isSpace = [] := List.dropWhile_eq_nil_iff.mpr h
  rw [parse, lex, Token.scan_dropWhile, hrest, Token.scan]
  rfl

/-- Two texts that parse give, joined by a line break, the statements of the first followed by
those of the second, which begin behind the first text and the break. -/
theorem parse_join {a b : String} {p q : Program} (ha : parse a = .ok p) (hb : parse b = .ok q)
    (hsmall : byteLength a.toList + 1 + byteLength b.toList ≤ maxOffset) :
    parse (a ++ "\n" ++ b) =
      .ok (p ++ q.map (Statement.relocate (Relocation.shift (byteLength a.toList + 1)))) := by
  have htext : (a ++ "\n" ++ b).toList = a.toList ++ '\n' :: b.toList := by
    simp [String.toList_append]
  have hsecond := run_relocate (Relocation.shift (byteLength a.toList + 1)) p.reverse
    (.statement []) (lex b)
  rw [parse_eq_ok.mp hb, lex] at hsecond
  rw [parse_eq_ok, lex, htext, run_join ha]
  have hscan := Token.scan_add 0 (byteLength a.toList + 1) b.toList (by omega)
  rw [Nat.zero_add] at hscan
  rw [hscan]
  simpa [placed, State.place] using hsecond

end TypedConfig.Syntax
