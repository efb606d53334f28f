import TypedConfig.Proofs.Constructions
import TypedConfig.Proofs.Places

/-!
# Where a load fails

A load that fails has run the statements in front of one statement of its text, the one that its
error points at, and nothing behind it. A failing assignment leaves the store as the statements
before it have left it. So does a failing include, unless the included text has been opened: then
that text has been run up to a statement of its own, by the same rule.

A text that cannot be opened is not run at all.
-/

namespace TypedConfig

namespace Syntax

variable {engine : Construct.Engine} {depth k : Nat} {program : Program} {s : Statement}
  {l l' before : Loading} {located : Located} {store : Store}

/-- A program reaches its statement `k`: those in front of it succeed. -/
def Reaches (engine : Construct.Engine) (depth : Nat) (program : Program) (l : Loading) (k : Nat)
    (s : Statement) (before : Loading) : Prop :=
  program[k]? = some s ∧
    outcome (Statement.runAt engine depth (program.take k)) l = (.ok (), before)

/-- A program that runs at a depth stops at its statement `k` with a fault, and leaves a store. -/
inductive Stops (engine : Construct.Engine) :
    Nat → Program → Loading → Nat → Located → Store → Prop
  | assignment {depth program l k s before located after} :
    Reaches engine depth program l k s before → s.isAssignment = true →
      outcome (s.run engine (Load.source engine 0)) before = (.error located, after) →
      Stops engine depth program l k located before.store
  | unnamed {depth program l k e span before located after} :
    Reaches engine depth program l k ⟨.include e, span⟩ before →
      outcome (e.named engine) before = (.error located, after) →
      Stops engine depth program l k located before.store
  | tooDeep {program l k e span before source after} :
    Reaches engine maxIncludeDepth program l k ⟨.include e, span⟩ before →
      e.Names engine before source after →
      Stops engine maxIncludeDepth program l k ⟨span, .inclusion source .tooDeep⟩ before.store
  | unopened {depth program l k e span before source after error} : depth < maxIncludeDepth →
    Reaches engine depth program l k ⟨.include e, span⟩ before →
      e.Names engine before source after →
      OpenText.opened after.trail.machine source = .error error →
      Stops engine depth program l k ⟨span, .inclusion source error⟩ before.store
  | inside {depth program l k e span before source after t k' located store} :
    depth < maxIncludeDepth → Reaches engine depth program l k ⟨.include e, span⟩ before →
      e.Names engine before source after → OpenText.opened after.trail.machine source = .ok t →
      Stops engine (depth + 1) t.pending after k' located store →
      Stops engine depth program l k
        ⟨span, .inclusion source (located.inText t.origin t.text)⟩ store

/-- A program fails exactly if it reaches a statement that fails. -/
theorem Statement.runAt_error_iff :
    outcome (Statement.runAt engine depth program) l = (.error located, l') ↔
      ∃ k s before, Reaches engine depth program l k s before ∧
        outcome (s.run engine (Load.source engine (maxIncludeDepth - depth))) before =
          (.error located, l') := by
  constructor
  · intro h
    induction program generalizing l with
    | nil => cases h
    | cons s rest ih =>
      change outcome (s.run engine _ >>= fun _ => Statement.runAt engine depth rest) l = _ at h
      rcases hrun : outcome (s.run engine (Load.source engine (maxIncludeDepth - depth))) l with
        ⟨located' | _, between⟩
      · rw [outcome_bind_error hrun] at h
        cases h
        exact ⟨0, s, l, ⟨rfl, rfl⟩, hrun⟩
      · rw [outcome_bind_ok hrun] at h
        obtain ⟨k, s', before, ⟨hk, htake⟩, hfails⟩ := ih h
        exact ⟨k + 1, s', before, ⟨hk, (outcome_bind_ok hrun).trans htake⟩, hfails⟩
  · rintro ⟨k, s, before, ⟨hk, htake⟩, hfails⟩
    obtain ⟨hless, rfl⟩ := List.getElem?_eq_some_iff.mp hk
    rw [← List.take_append_drop k program, Statement.runAt_append_ok htake,
      List.drop_eq_getElem_cons hless]
    exact outcome_bind_error hfails

/-- What a program reaches behind a statement that fails is nothing. -/
theorem Reaches.le_of_error {k' : Nat} {s' : Statement} {before' : Loading}
    (h : Reaches engine depth program l k s before)
    (hfails : outcome (s.run engine (Load.source engine (maxIncludeDepth - depth))) before =
      (.error located, l'))
    (h' : Reaches engine depth program l k' s' before') : k' ≤ k := by
  by_contra hless
  have hbefore : Reaches engine depth (program.take k') l k s before := by
    refine ⟨?_, ?_⟩
    · rw [List.getElem?_take_of_lt (by omega)]
      exact h.1
    · rw [List.take_take, Nat.min_eq_left (by omega)]
      exact h.2
  have herror := Statement.runAt_error_iff.mpr ⟨k, s, before, hbefore, hfails⟩
  rw [h'.2] at herror
  cases herror

/-- Whether or not an expression names a source, the store is as it was. -/
theorem Expr.named_store_eq {e : Expr} {named : Except Located TextSource}
    (h : outcome (e.named engine) l = (named, l')) : l'.store = l.store := by
  have hstore := e.named_store engine l
  rwa [h] at hstore

/-- An assignment that fails leaves the store as it was. -/
theorem Statement.store_eq_of_error {load : TextSource → Load Unit} (hs : s.isAssignment = true)
    (h : outcome (s.run engine load) l = (.error located, l')) : l'.store = l.store := by
  obtain hsame | ⟨_, _, _, _, _, _, _, _, hok, _⟩ := Statement.run_store hs engine load l
  · rwa [h] at hsame
  · rw [h] at hok
    cases hok

/-- The source of an include above the greatest depth is opened and run at the next depth. -/
theorem Statement.run_include_opened {e : Expr} {span : Source.Span} {source : TextSource}
    (hdepth : depth < maxIncludeDepth) (hnames : e.Names engine before source l') :
    outcome (Statement.run engine (Load.source engine (maxIncludeDepth - depth))
        ⟨.include e, span⟩) before =
      match OpenText.opened l'.trail.machine source with
      | .error error => (.error ⟨span, .inclusion source error⟩, l')
      | .ok t =>
        match outcome (Statement.runAt engine (depth + 1) t.pending) l' with
        | (.ok (), after) => (.ok (), after)
        | (.error located, after) =>
          (.error ⟨span, .inclusion source (located.inText t.origin t.text)⟩, after) := by
  rw [Statement.run_include _ span hnames, outcome_adapt, OpenText.source_eq engine hdepth]
  cases OpenText.opened l'.trail.machine source with
  | error error => rfl
  | ok t =>
    simp only [OpenText.run, outcome_adapt]
    rcases outcome (Statement.runAt engine (depth + 1) t.pending) l' with ⟨_ | _, _⟩ <;> rfl

/-- The statement at which a program stops is reached and fails. -/
theorem Stops.fails (h : Stops engine depth program l k located store) :
    ∃ s before l', Reaches engine depth program l k s before ∧
      outcome (s.run engine (Load.source engine (maxIncludeDepth - depth))) before =
        (.error located, l') ∧ l'.store = store := by
  induction h with
  | @assignment depth program l k s before located after hreaches hs hrun =>
    refine ⟨s, before, after, hreaches, ?_, Statement.store_eq_of_error hs hrun⟩
    rw [Statement.run_assignment hs engine _ (Load.source engine 0), hrun]
  | @unnamed depth program l k e span before located after hreaches hnamed =>
    refine ⟨_, before, after, hreaches, ?_, Expr.named_store_eq hnamed⟩
    rw [Statement.run_include_eq, outcome_bind_error hnamed]
  | tooDeep hreaches hnames =>
    exact ⟨_, _, _, hreaches, Statement.run_include_deepest hnames, Expr.named_store_eq hnames⟩
  | unopened hdepth hreaches hnames hopened =>
    refine ⟨_, _, _, hreaches, ?_, Expr.named_store_eq hnames⟩
    rw [Statement.run_include_opened hdepth hnames, hopened]
  | inside hdepth hreaches hnames hopened _ ih =>
    obtain ⟨s, reached, l', hreached, hfails, hstore⟩ := ih
    have hrun := Statement.runAt_error_iff.mpr ⟨_, s, reached, hreached, hfails⟩
    refine ⟨_, _, l', hreaches, ?_, hstore⟩
    rw [Statement.run_include_opened hdepth hnames, hopened]
    simp only [hrun]

/-- A program stops at one statement. -/
theorem Stops.unique {k' : Nat} {located' : Located} {store' : Store}
    (h : Stops engine depth program l k located store)
    (h' : Stops engine depth program l k' located' store') : k = k' := by
  obtain ⟨s, before, _, hreaches, hfails, _⟩ := h.fails
  obtain ⟨s', before', _, hreaches', hfails', _⟩ := h'.fails
  exact Nat.le_antisymm (hreaches'.le_of_error hfails' hreaches)
    (hreaches.le_of_error hfails hreaches')

/-- Programs that fail at a depth stop at a statement. -/
def StopsWherever (engine : Construct.Engine) (depth : Nat) : Prop :=
  ∀ program l located l', outcome (Statement.runAt engine depth program) l = (.error located, l') →
    ∃ k, Stops engine depth program l k located l'.store

/-- A program stops at an include whose source fails, if what is included does. -/
theorem stops_of_source {e : Expr} {span : Source.Span} {source : TextSource} {after : Loading}
    (hdepth : depth ≤ maxIncludeDepth)
    (hinside : depth < maxIncludeDepth → StopsWherever engine (depth + 1))
    (hreaches : Reaches engine depth program l k ⟨.include e, span⟩ before)
    (hnames : e.Names engine before source after)
    (hfails : outcome (Statement.run engine (Load.source engine (maxIncludeDepth - depth))
      ⟨.include e, span⟩) before = (.error located, l')) :
    Stops engine depth program l k located l'.store := by
  have hstore : after.store = before.store := Expr.named_store_eq hnames
  obtain hmax | hless := Nat.eq_or_lt_of_le hdepth
  · subst hmax
    rw [Statement.run_include_deepest hnames] at hfails
    cases hfails
    rw [hstore]
    exact .tooDeep hreaches hnames
  · rw [Statement.run_include_opened hless hnames] at hfails
    cases hopened : OpenText.opened after.trail.machine source with
    | error error =>
      simp only [hopened] at hfails
      cases hfails
      rw [hstore]
      exact .unopened hless hreaches hnames hopened
    | ok t =>
      simp only [hopened] at hfails
      rcases hrun : outcome (Statement.runAt engine (depth + 1) t.pending) after with
        ⟨inner | _, stopped⟩
      · rw [hrun] at hfails
        cases hfails
        obtain ⟨k', hstops⟩ := hinside hless _ _ _ _ hrun
        exact .inside hless hreaches hnames hopened hstops
      · rw [hrun] at hfails
        cases hfails

/-- A program stops at the statement that it reaches and that fails, if what is included does. -/
theorem stops_of_reaches (hdepth : depth ≤ maxIncludeDepth)
    (hinside : depth < maxIncludeDepth → StopsWherever engine (depth + 1))
    (hreaches : Reaches engine depth program l k s before)
    (hfails : outcome (s.run engine (Load.source engine (maxIncludeDepth - depth))) before =
      (.error located, l')) :
    Stops engine depth program l k located l'.store := by
  cases hs : s.isAssignment with
  | true =>
    rw [Statement.store_eq_of_error hs hfails]
    rw [Statement.run_assignment hs engine _ (Load.source engine 0)] at hfails
    exact .assignment hreaches hs hfails
  | false =>
    obtain ⟨_ | _ | e, span⟩ := s
    · cases hs
    · cases hs
    · rcases hnamed : outcome (e.named engine) before with ⟨located' | source, after⟩
      · rw [Statement.run_include_eq, outcome_bind_error hnamed] at hfails
        cases hfails
        rw [Expr.named_store_eq hnamed]
        exact .unnamed hreaches hnamed
      · exact stops_of_source hdepth hinside hreaches hnamed hfails

/-- A program that fails stops at a statement. -/
theorem stopsWherever : ∀ depth ≤ maxIncludeDepth, StopsWherever engine depth := by
  apply depth_induction
  intro depth hdepth hinside program l located l' h
  obtain ⟨k, s, before, hreaches, hfails⟩ := Statement.runAt_error_iff.mp h
  exact ⟨k, stops_of_reaches hdepth hinside hreaches hfails⟩

/-- The fault of a program stands in the statement at which it stops. -/
theorem Stops.hasSpan (h : Stops engine depth program l k located store) :
    ∃ s, program[k]? = some s ∧ s.HasSpan located.span := by
  cases h with
  | @assignment _ _ _ _ s before _ after hreaches hs hrun =>
    have hfault := s.run_throws engine (Load.source engine 0) hs before located
      (congrArg Prod.fst hrun)
    exact ⟨s, hreaches.1, .inr hfault.2⟩
  | @unnamed _ _ _ _ e span before _ after hreaches hnamed =>
    have hfault := e.named_throws engine before located (congrArg Prod.fst hnamed)
    exact ⟨_, hreaches.1, .inr hfault.2⟩
  | tooDeep hreaches _ => exact ⟨_, hreaches.1, .inl rfl⟩
  | unopened _ hreaches _ _ => exact ⟨_, hreaches.1, .inl rfl⟩
  | inside _ hreaches _ _ _ => exact ⟨_, hreaches.1, .inl rfl⟩

end Syntax

namespace Store

variable {engine : Construct.Engine} {m : Machine} {entry : Entry} {s : Store} {text : String}

/-- A text that does not parse is not run. -/
theorem load_unparsed {e : Syntax.SyntaxError} (hfetched : entry.fetched m = .ok text)
    (hparse : Syntax.parse text = .error e) :
    s.load engine m entry =
      ⟨.error (Located.inText entry.title text ⟨e.span, .grammar e.fault⟩), s, m, []⟩ := by
  apply load_unopened
  rw [Entry.opened_of_fetched hfetched, OpenText.parsed, hparse]

/-- A text that parses is run, and the load fails exactly where its program does. -/
theorem load_parsed {program : Syntax.Program} {result : Except Located Unit} {l : Loading}
    (hfetched : entry.fetched m = .ok text) (hparse : Syntax.parse text = .ok program)
    (hrun : outcome (Syntax.Statement.runAt engine 0 program) ⟨s, m, []⟩ = (result, l)) :
    (s.load engine m entry).result = result.mapError (Located.inText entry.title text) ∧
      (s.load engine m entry).store =
        (entry.closed (result.mapError (Located.inText entry.title text)) l).store := by
  have hopened : entry.opened m = .ok ⟨entry.title, text, program⟩ := by
    rw [Entry.opened_of_fetched hfetched, OpenText.parsed, hparse]
  apply load_opened hopened
  rw [OpenText.run, outcome_adapt]
  change ((outcome (Syntax.Statement.runAt engine 0 program) ⟨s, m, []⟩).1.mapError _, _) = _
  rw [hrun]

/-- A load that fails has applied the statements in front of the one that it points at. A text that
cannot be fetched or parsed leaves the store as it was, and so does the evaluation of an expression.
The load of a text that parses fails exactly if its program stops at a statement, and then there is
one such statement. The fault lies inside it, in the text of the entry as in any included one.

The line and the column of a fault are those of the start of its span, which is the end of a front
part of the text. Spans hold no offset above the largest one: all ends from there on are cut to it,
so the line and the column reported for such a fault are those of the largest offset. They are
counted off the front part only for a fault in front of that. -/
theorem load_stops_at_statement (engine : Construct.Engine) :
    (∀ m entry (s : Store),
      (∀ error, entry.fetched m = .error error →
        s.load engine m entry = ⟨.error error, s, m, []⟩) ∧
      ∀ text, entry.fetched m = .ok text →
        ((∃ t ∈ lex text, ∃ e, t.kind = .error e) → ∃ e, Syntax.parse text = .error e) ∧
        (∀ e, Syntax.parse text = .error e → s.load engine m entry =
          ⟨.error (Located.inText entry.title text ⟨e.span, .grammar e.fault⟩), s, m, []⟩) ∧
        ∀ program error, Syntax.parse text = .ok program →
          ((s.load engine m entry).result = .error error ↔
            ∃ located, error = located.inText entry.title text ∧
              ∃! k, Syntax.Stops engine 0 program ⟨s, m, []⟩ k located
                (s.load engine m entry).store)) ∧
    (∀ depth text program l k located store, Syntax.parse text = .ok program →
      Syntax.Stops engine depth program l k located store →
      (∃ s, program[k]? = some s ∧ located.span.Within s.span) ∧
      ∃ front rest, text.toList = front ++ rest ∧
        located.span.start = min (Source.byteLength front) Source.maxOffset ∧
        (Source.byteLength front < Source.maxOffset →
          (Syntax.positionOf text located.span).Follows front)) ∧
    ∀ (e : Syntax.Expr) (l : Loading),
      (outcome (LoadStep.evaluate fun store => e.evaluate engine store) l).2.store = l.store ∧
      (outcome (e.named engine) l).2.store = l.store := by
  refine ⟨fun m entry s => ⟨?unfetched, ?fetched⟩, ?places, ?evaluation⟩
  case unfetched =>
    intro error hfetched
    apply load_unopened
    rw [Entry.opened_eq, hfetched]
    rfl
  case fetched =>
    intro text hfetched
    refine ⟨Syntax.parse_of_error, fun e => load_unparsed hfetched, ?_⟩
    intro program error hparse
    constructor
    · intro herror
      rcases hrun : outcome (Syntax.Statement.runAt engine 0 program) ⟨s, m, []⟩ with
        ⟨located | _, l⟩
      all_goals
        obtain ⟨hresult, hstore⟩ := load_parsed hfetched hparse hrun
        rw [hresult] at herror
      · cases herror
        obtain ⟨k, hstops⟩ := Syntax.stopsWherever 0 (Nat.zero_le _) _ _ _ _ hrun
        rw [hstore]
        exact ⟨located, rfl, k, hstops, fun _ h => h.unique hstops⟩
      · cases herror
    · rintro ⟨located, rfl, k, hstops, _⟩
      obtain ⟨_, before, l, hreaches, hfails, _⟩ := hstops.fails
      have hrun := Syntax.Statement.runAt_error_iff.mpr ⟨k, _, before, hreaches, hfails⟩
      exact (load_parsed hfetched hparse hrun).1
  case places =>
    intro depth text program l k located store hparse hstops
    obtain ⟨s, hs, hspan⟩ := hstops.hasSpan
    obtain ⟨hwithin, hoffset⟩ :=
      Syntax.hasSpan_of_parse hparse (List.mem_of_getElem? hs) hspan
    exact ⟨⟨s, hs, hwithin⟩, Syntax.positionOf_follows hoffset⟩
  case evaluation =>
    intro e l
    rw [LoadStep.outcome_evaluate]
    exact ⟨rfl, e.named_store engine l⟩

/-- A load that fails in an included file has put what stands in front of the include, and what
stands in the file in front of the fault. -/
theorem load_stops_in_include :
    let text := "a = 1; include \"f\"; b = 2;"
    let m := Machine.start ⟨.directory [("f", .file "c = 1; d = x;".toUTF8)], []⟩ []
    let loaded := empty.load .standard m (.text text)
    let program : Syntax.Program := [⟨.set ⟨"a", ⟨0, 1⟩⟩ (.literal (.int 1) ⟨4, 5⟩), ⟨0, 6⟩⟩,
      ⟨.include (.literal (.string "f") ⟨15, 18⟩), ⟨7, 19⟩⟩,
      ⟨.set ⟨"b", ⟨20, 21⟩⟩ (.literal (.int 2) ⟨24, 25⟩), ⟨20, 26⟩⟩]
    (loaded.store.contains "a").result = true ∧ (loaded.store.contains "b").result = false ∧
      (loaded.store.contains "c").result = true ∧ (loaded.store.contains "d").result = false ∧
      ∃ located k s, loaded.result = .error (located.inText "string" text) ∧
        Syntax.Stops .standard 0 program ⟨empty, m, []⟩ k located loaded.store ∧
        program[k]? = some s ∧ located.span.Within s.span := by
  intro text m loaded program
  have hparse : Syntax.parse text = .ok program := by
    have hlex : lex text = [⟨.key "a", ⟨0, 1⟩⟩, ⟨.equals, ⟨2, 3⟩⟩, ⟨.int 1, ⟨4, 5⟩⟩,
        ⟨.semicolon, ⟨5, 6⟩⟩, ⟨.include, ⟨7, 14⟩⟩, ⟨.string "f", ⟨15, 18⟩⟩, ⟨.semicolon, ⟨18, 19⟩⟩,
        ⟨.key "b", ⟨20, 21⟩⟩, ⟨.equals, ⟨22, 23⟩⟩, ⟨.int 2, ⟨24, 25⟩⟩, ⟨.semicolon, ⟨25, 26⟩⟩,
        ⟨.endOfInput, ⟨26, 26⟩⟩] := by
      decide +kernel
    rw [Syntax.parse, hlex]
    rfl
  have hfails : loaded.result.isOk = false := by decide +kernel
  have ha : (loaded.store.contains "a").result = true := by decide +kernel
  have hb : (loaded.store.contains "b").result = false := by decide +kernel
  have hc : (loaded.store.contains "c").result = true := by decide +kernel
  have hd : (loaded.store.contains "d").result = false := by decide +kernel
  obtain ⟨hloads, hplaces, _⟩ := load_stops_at_statement .standard
  cases hresult : loaded.result with
  | ok _ =>
    rw [hresult] at hfails
    cases hfails
  | error error =>
    obtain ⟨_, _, hstops⟩ := (hloads m (.text text) empty).2 text rfl
    obtain ⟨located, rfl, k, hk, _⟩ := (hstops program error hparse).mp hresult
    obtain ⟨⟨s, hs, hwithin⟩, _⟩ := hplaces _ _ _ _ _ _ _ hparse hk
    exact ⟨ha, hb, hc, hd, located, k, s, rfl, hk, hs, hwithin⟩

end Store

end TypedConfig
