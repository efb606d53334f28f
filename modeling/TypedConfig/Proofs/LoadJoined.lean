import Mathlib.Algebra.Group.Nat.Defs
import TypedConfig.Proofs.ParseJoined
import TypedConfig.Proofs.RunRelocated
import TypedConfig.Proofs.Simulation

/-!
# Loading joined texts

Loading two texts joined by a line break is loading the first and then, if that succeeded, the
second. A fault in the second text is the same fault, behind the first text: further down by its
lines, further back by its bytes, in the same column.

The two loads of the main statement keep separate logs, which is why the second one is compared
with a load that has already logged something.
-/

namespace TypedConfig

open Source (Relocation byteLength maxOffset)

/-- An error in a text that stands behind another text and a line break. -/
def LoadError.behind (before : String) : LoadError → LoadError
  | .inText origin position span fault =>
    .inText origin ⟨position.line + UInt32.ofNat (1 + before.toList.count '\n'), position.column⟩
      (Relocation.shift (byteLength before.toList + 1) span) fault
  | e => e

namespace Load

variable {a b : String} {p q : Syntax.Program}

/-- As loads, two texts joined by a line break are one load after the other. -/
theorem text_join (engine : Construct.Engine) (load : TextSource → Load Unit) (origin : String)
    (ha : Syntax.parse a = .ok p) (hb : Syntax.parse b = .ok q)
    (hsmall : byteLength a.toList + 1 + byteLength b.toList ≤ maxOffset) :
    text engine load origin (a ++ "\n" ++ b) =
      text engine load origin a >>= fun _ =>
        ExceptT.adapt (LoadError.behind a) (text engine load origin b) := by
  have htext : (a ++ "\n" ++ b).toList = a.toList ++ '\n' :: b.toList := by
    simp [String.toList_append]
  let first := Syntax.Statement.runAll engine load p
  let second := Syntax.Statement.runAll engine load q
  let locate (source : String) (located : Located) : LoadError :=
    .inText origin (Syntax.positionOf source located.span) located.span located.fault
  have hfirst : ExceptT.adapt (locate (a ++ "\n" ++ b)) first = ExceptT.adapt (locate a) first := by
    -- No fault of the first text lies behind its end.
    have hcut : first =
        ExceptT.adapt (Located.relocate (Relocation.cut (byteLength a.toList))) first := by
      rw [← Syntax.Statement.runAll_relocate, Syntax.parse_cut ha]
    rw [hcut, adapt_adapt, adapt_adapt]
    refine congrArg (ExceptT.adapt · first) (funext fun located => ?_)
    have hfit : min located.span.start (byteLength a.toList) ≤ byteLength a.toList :=
      Nat.min_le_right _ _
    have hposition := Source.LineTable.position_join_left hsmall hfit
    rw [← htext] at hposition
    exact congrArg (LoadError.inText origin · _ _) hposition
  have hsecond : ExceptT.adapt (locate (a ++ "\n" ++ b))
      (ExceptT.adapt (Located.relocate (Relocation.shift (byteLength a.toList + 1))) second) =
      ExceptT.adapt (LoadError.behind a) (ExceptT.adapt (locate b) second) := by
    rw [adapt_adapt, adapt_adapt]
    refine congrArg (ExceptT.adapt · second) (funext fun located => ?_)
    have hposition := Source.LineTable.position_join_right hsmall located.span.start
    rw [← htext] at hposition
    exact congrArg (LoadError.inText origin · _ _) hposition
  unfold text
  rw [Syntax.parse_join ha hb hsmall, ha, hb]
  change ExceptT.adapt (locate (a ++ "\n" ++ b)) (Syntax.Statement.runAll engine load (p ++ _)) = _
  rw [Syntax.Statement.runAll_append, adapt_bind, Syntax.Statement.runAll_relocate, hsecond]
  exact congrArg (· >>= _) hfirst

/-- A text fails only with errors at places in it. -/
theorem text_error {engine : Construct.Engine} {load : TextSource → Load Unit}
    {origin source : String} {l l' : Loading} {e : LoadError}
    (h : outcome (text engine load origin source) l = (.error e, l')) :
    ∃ span fault, e = .inText origin (Syntax.positionOf source span) span fault := by
  unfold text at h
  cases hparse : Syntax.parse source with
  | error syntaxError =>
    rw [hparse] at h
    cases h
    exact ⟨_, _, rfl⟩
  | ok program =>
    rw [hparse] at h
    change outcome (ExceptT.adapt _ (Syntax.Statement.runAll engine load program)) l = _ at h
    rw [outcome_adapt] at h
    rcases hrun : outcome (Syntax.Statement.runAll engine load program) l with ⟨located | _, l''⟩
    · rw [hrun] at h
      cases h
      exact ⟨_, _, rfl⟩
    · rw [hrun] at h
      cases h

end Load

namespace Store

/-- The load of a text is run on the store as it is, with an empty log. -/
theorem load_text_eq (engine : Construct.Engine) (m : Machine) (text : String) (s : Store) :
    s.load engine m (.text text) =
      let ended := outcome
        (Load.text engine (Load.source engine maxIncludeDepth) "string" text) ⟨s, m, []⟩
      ⟨ended.1, ended.2.store, ended.2.trail.machine, ended.2.trail.events⟩ := rfl

variable {engine : Construct.Engine} {m : Machine} {s : Store} {a b : String} {p q : Syntax.Program}

/-- Where the first text fails, nothing of the second one runs. -/
theorem load_joined_of_error (ha : Syntax.parse a = .ok p) (hb : Syntax.parse b = .ok q)
    (hsmall : byteLength a.toList + 1 + byteLength b.toList ≤ maxOffset) {e : LoadError}
    (h : (s.load engine m (.text a)).result = .error e) :
    s.load engine m (.text (a ++ "\n" ++ b)) = s.load engine m (.text a) := by
  rw [load_text_eq, load_text_eq, Load.text_join _ _ _ ha hb hsmall]
  rw [load_text_eq] at h
  rcases hrun : outcome (Load.text engine (Load.source engine maxIncludeDepth) "string" a)
    ⟨s, m, []⟩ with ⟨_ | _, l⟩
  · rw [outcome_bind_error hrun]
  · rw [hrun] at h
    cases h

/-- Where the first text succeeds, the second one runs from what it has left. -/
theorem load_joined_of_ok (ha : Syntax.parse a = .ok p) (hb : Syntax.parse b = .ok q)
    (hsmall : byteLength a.toList + 1 + byteLength b.toList ≤ maxOffset)
    (h : (s.load engine m (.text a)).result = .ok ()) :
    let first := s.load engine m (.text a)
    let second := first.store.load engine first.machine (.text b)
    let joined := s.load engine m (.text (a ++ "\n" ++ b))
    joined.store = second.store ∧ joined.machine = second.machine ∧
      joined.result = second.result.mapError (LoadError.behind a) := by
  intro first second joined
  rcases hrun : outcome (Load.text engine (Load.source engine maxIncludeDepth) "string" a)
    ⟨s, m, []⟩ with ⟨_ | _, l⟩
  · rw [load_text_eq, hrun] at h
    cases h
  · have hfirst : first = ⟨.ok (), l.store, l.trail.machine, l.trail.events⟩ := by
      simp only [first, load_text_eq, hrun]
    obtain ⟨hresult, hstores, hmachine⟩ := Load.text_relates .eq engine
      (Load.source_relates .eq engine maxIncludeDepth) "string" b l ⟨l.store, l.trail.machine, []⟩
      ⟨rfl, rfl⟩
    simp only [joined, second, hfirst, load_text_eq, Load.text_join _ _ _ ha hb hsmall,
      outcome_bind_ok hrun, outcome_adapt]
    exact ⟨hstores, hmachine, congrArg _ hresult⟩

/-- A text of blanks can be loaded, and so a text that fails has more than line breaks. -/
theorem count_lt_of_load_error {e : LoadError}
    (h : (s.load engine m (.text b)).result = .error e) :
    b.toList.count '\n' < byteLength b.toList := by
  have hlength := Source.length_le_byteLength b.toList
  refine Nat.lt_of_not_le fun hle => ?_
  have hblank : ∀ c ∈ b.toList, Token.isSpace c = true := by
    have hcount : b.toList.count '\n' = b.toList.length :=
      Nat.le_antisymm List.count_le_length (hlength.trans hle)
    intro c hc
    obtain rfl : '\n' = c := List.count_eq_length.mp hcount c hc
    decide
  rw [load_text_eq, Load.text, Syntax.parse_of_blank hblank] at h
  cases h

/-- Loading is additive over texts joined by a line break. The joined text fails where the first
text fails, with the same error and the same store. Otherwise it ends as the load of the second
text does in the store and on the machine that the first load has left; if that load fails, the
fault is the same, in the same column of a line that is further down by the lines of the first
text, and its span is further back by the bytes of the first text and the line break. -/
theorem load_joined_texts (engine : Construct.Engine) (m : Machine) (s : Store) (a b : String)
    (p q : Syntax.Program) (ha : Syntax.parse a = .ok p) (hb : Syntax.parse b = .ok q)
    (hsmall : byteLength a.toList + 1 + byteLength b.toList < 2 ^ 32) :
    let first := s.load engine m (.text a)
    let second := first.store.load engine first.machine (.text b)
    let joined := s.load engine m (.text (a ++ "\n" ++ b))
    (joined.result = .ok () ↔ first.result = .ok () ∧ second.result = .ok ()) ∧
      (∀ e, first.result = .error e →
        joined.result = .error e ∧ joined.store = first.store ∧ joined.machine = first.machine) ∧
      (first.result = .ok () →
        joined.store = second.store ∧ joined.machine = second.machine ∧
          ∀ e, second.result = .error e → ∃ position position' span fault,
            e = .inText "string" position span fault ∧
              joined.result = .error (.inText "string" position'
                ⟨span.start + (byteLength a.toList + 1), span.stop + (byteLength a.toList + 1)⟩
                fault) ∧
              position'.line.toNat = position.line.toNat + (1 + a.toList.count '\n') ∧
              position'.column = position.column) := by
  intro first second joined
  have hfit : byteLength a.toList + 1 + byteLength b.toList ≤ maxOffset := by
    change _ ≤ 2 ^ 32 - 1
    omega
  cases hfirst : first.result with
  | error e =>
    have hjoined : joined = first := load_joined_of_error ha hb hfit hfirst
    rw [hjoined]
    refine ⟨by simp [hfirst], ?_, by simp⟩
    intro e' he
    exact ⟨hfirst.trans he, rfl, rfl⟩
  | ok _ =>
    obtain ⟨hstore, hmachine, hresult⟩ := load_joined_of_ok ha hb hfit hfirst
    change joined.result = second.result.mapError _ at hresult
    refine ⟨?_, by simp, fun _ => ⟨hstore, hmachine, ?_⟩⟩
    · rw [hresult]
      cases second.result with
      | error e => exact ⟨nofun, nofun⟩
      | ok _ => exact ⟨fun _ => ⟨rfl, rfl⟩, fun _ => rfl⟩
    · intro e he
      have hmore := count_lt_of_load_error he
      obtain ⟨span, fault, rfl⟩ := Load.text_error (Prod.ext he rfl)
      have hline := Source.LineTable.toNat_line_join_right hfit hmore span.start
      rw [he] at hresult
      exact ⟨_, _, span, fault, rfl, hresult, hline, rfl⟩

/-- What the second of two texts cannot join is found on the second line: the comment at the end of
the first text stops at the line break. -/
theorem load_joined_unjoinable :
    let m := Machine.start ⟨.directory [], []⟩ []
    let a := "x = 1; # one"
    let b := "y = 1 ^ 2;"
    (∃ p q, Syntax.parse a = .ok p ∧ Syntax.parse b = .ok q) ∧
      byteLength a.toList + 1 + byteLength b.toList < 2 ^ 32 ∧
      (empty.load .standard m (.text (a ++ "\n" ++ b))).result =
        .error (.inText "string" ⟨2, 5⟩ ⟨17, 22⟩ (.notJoined .int .int)) := by
  intro m a b
  have ha : Syntax.parse a =
      .ok [⟨.set ⟨"x", ⟨0, 1⟩⟩ (.literal (.int 1) ⟨4, 5⟩), ⟨0, 6⟩⟩] := by
    have hlex : lex a = [⟨.key "x", ⟨0, 1⟩⟩, ⟨.equals, ⟨2, 3⟩⟩, ⟨.int 1, ⟨4, 5⟩⟩,
        ⟨.semicolon, ⟨5, 6⟩⟩, ⟨.endOfInput, ⟨12, 12⟩⟩] := by
      decide +kernel
    rw [Syntax.parse, hlex]
    rfl
  have hb : Syntax.parse b =
      .ok [⟨.set ⟨"y", ⟨0, 1⟩⟩ (.concat (.literal (.int 1) ⟨4, 5⟩) (.literal (.int 2) ⟨8, 9⟩)
        ⟨4, 9⟩), ⟨0, 10⟩⟩] := by
    have hlex : lex b = [⟨.key "y", ⟨0, 1⟩⟩, ⟨.equals, ⟨2, 3⟩⟩, ⟨.int 1, ⟨4, 5⟩⟩, ⟨.caret, ⟨6, 7⟩⟩,
        ⟨.int 2, ⟨8, 9⟩⟩, ⟨.semicolon, ⟨9, 10⟩⟩, ⟨.endOfInput, ⟨10, 10⟩⟩] := by
      decide +kernel
    rw [Syntax.parse, hlex]
    rfl
  have hfirst : (empty.load .standard m (.text a)).result = .ok () := by
    simp only [load, Entry.load, Load.text, ha]
    rfl
  have hsecond : ((empty.load .standard m (.text a)).store.load .standard
      (empty.load .standard m (.text a)).machine (.text b)).result =
        .error (.inText "string" ⟨1, 5⟩ ⟨4, 9⟩ (.notJoined .int .int)) := by
    have hposition : Syntax.positionOf b ⟨4, 9⟩ = ⟨1, 5⟩ := by decide +kernel
    rw [← hposition]
    simp only [load, Entry.load, Load.text, hb]
    rfl
  have hplace : byteLength a.toList = 12 ∧ a.toList.count '\n' = 0 := by decide +kernel
  obtain ⟨_, _, hjoined⟩ := load_joined_texts .standard m empty a b _ _ ha hb (by decide +kernel)
  obtain ⟨_, _, hjoins⟩ := hjoined hfirst
  obtain ⟨_, ⟨line, column⟩, span, fault, heq, hresult, hline, hcolumn⟩ := hjoins _ hsecond
  cases heq
  rw [hplace.2] at hline
  obtain rfl : line = 2 := UInt32.toNat_inj.mp hline
  obtain rfl : column = 5 := hcolumn
  rw [hplace.1] at hresult
  exact ⟨⟨_, _, ha, hb⟩, by decide +kernel, hresult⟩

end Store

end TypedConfig
