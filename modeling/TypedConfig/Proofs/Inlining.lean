import TypedConfig.Proofs.Levels
import TypedConfig.Proofs.Simulation

/-!
# Including a source

An include does what the statements of the included source would do in its place. The included
statements run one level further down, and with a log that holds what the evaluation of the
include has read. Neither can be seen in the store, unless an include is refused at the greatest
depth.
-/

namespace TypedConfig.Syntax

variable {engine : Construct.Engine} {depth : Nat} {program : Program}

/-- A program that runs one level further down ends alike unless it runs too deep. -/
theorem Statement.runAt_agrees (engine : Construct.Engine) (hdepth : depth < maxIncludeDepth)
    (program : Program) :
    AgreesUnless Located.IsDeep (Statement.runAt engine (depth + 1) program)
      (Statement.runAt engine depth program) := by
  have hlevels : maxIncludeDepth - depth = maxIncludeDepth - (depth + 1) + 1 := by omega
  unfold Statement.runAt
  rw [hlevels]
  exact Statement.runAll_agrees engine (Load.source_agrees engine _) program

/-- A program does not see what has been logged before it runs. -/
theorem Statement.runAt_relates (engine : Construct.Engine) (depth : Nat) (program : Program) :
    Relates (Loading.Over Eq) (Statement.runAt engine depth program)
      (Statement.runAt engine depth program) :=
  Statement.runAll_relates .eq engine (Load.source_relates .eq engine _) program

section Include

variable {included after : Program} {e : Expr} {span : Source.Span} {source : TextSource}
  {reached opened : Loading}

/-- Where an included program fails for another reason than the depth of includes, it fails in the
same way in the place of the include. -/
theorem Statement.runAt_include_error (hdepth : depth < maxIncludeDepth)
    (hnames : e.Names engine reached source opened)
    (hof : included.IsOf opened.trail.machine source) {located : Located} {k : Loading}
    (hfail : outcome (Statement.runAt engine (depth + 1) included) opened = (.error located, k))
    (hshallow : ¬located.IsDeep) :
    (∃ located', outcome (Statement.runAt engine depth (⟨.include e, span⟩ :: after)) reached =
        (.error located', k)) ∧
      outcome (Statement.runAt engine depth (included ++ after)) opened = (.error located, k) := by
  obtain ⟨fetched, hfetch, hparse⟩ := hof
  rw [Statement.runAt_include hdepth hnames hfetch hparse, hfail]
  refine ⟨⟨_, rfl⟩, ?_⟩
  rcases Statement.runAt_agrees engine hdepth included opened with
    hsame | ⟨located', hlocated, hdeep⟩
  · rw [Statement.runAt_append, outcome_bind_error (hsame.trans hfail)]
  · obtain rfl : located = located' := by
      rw [hfail] at hlocated
      exact Except.error.inj hlocated
    exact (hshallow hdeep).elim

/-- An include does what its program does in its place, unless it fails because includes are nested
too deeply. A failure of the program is a failure of the include. -/
theorem Statement.runAt_include_agrees (hdepth : depth ≤ maxIncludeDepth)
    (hnames : e.Names engine reached source opened)
    (hof : included.IsOf opened.trail.machine source) :
    let including := outcome (Statement.runAt engine depth (⟨.include e, span⟩ :: after)) reached
    let inlined := outcome (Statement.runAt engine depth (included ++ after)) opened
    including = inlined ∨
      ∃ located, including.1 = .error located ∧
        (located.IsDeep ∨ including.2 = inlined.2 ∧ ∃ located', inlined.1 = .error located') := by
  intro including inlined
  obtain hmax | hless : depth = maxIncludeDepth ∨ depth < maxIncludeDepth := by omega
  · subst hmax
    have hrefused : including = _ := Statement.runAt_include_deepest hnames
    exact .inr ⟨_, congrArg Prod.fst hrefused, .inl rfl⟩
  · rcases hlow : outcome (Statement.runAt engine (depth + 1) included) opened with ⟨located | _, k⟩
    · right
      by_cases hdeep : located.IsDeep
      · obtain ⟨fetched, hfetch, hparse⟩ := hof
        have hincluding : including = _ := Statement.runAt_include hless hnames hfetch hparse
        rw [hlow] at hincluding
        exact ⟨_, congrArg Prod.fst hincluding, .inl hdeep⟩
      · obtain ⟨⟨located', hincluding⟩, hinlined⟩ :=
          Statement.runAt_include_error hless hnames hof hlow hdeep
        refine ⟨located', congrArg Prod.fst hincluding, .inr ⟨?_, located, ?_⟩⟩
        · exact (congrArg Prod.snd hincluding).trans (congrArg Prod.snd hinlined).symm
        · exact congrArg Prod.fst hinlined
    · left
      obtain ⟨fetched, hfetch, hparse⟩ := hof
      have hincluding : including = _ := Statement.runAt_include hless hnames hfetch hparse
      rw [hlow] at hincluding
      rcases Statement.runAt_agrees engine hless included opened with hsame | ⟨_, hlocated, _⟩
      · change including = outcome (Statement.runAt engine depth (included ++ after)) opened
        rw [hincluding, Statement.runAt_append_ok (hsame.trans hlow)]
      · rw [hlow] at hlocated
        cases hlocated

end Include

/-- Including a source is running its statements in place, on a file tree that stays as it is. Where
the including program succeeds, so does the inlined one, with the same store. Where the inlined one
succeeds and the including one executes no include at the greatest depth, the including one succeeds
with the same store. Where an included statement fails for another reason than the depth of
includes, in the source or in its place, both leave the same store. -/
theorem Statement.runAt_include_inlined (engine : Construct.Engine) (depth : Nat)
    (before included after : Program) (e : Expr) (span : Source.Span) (source : TextSource)
    (l reached opened : Loading) (hdepth : depth ≤ maxIncludeDepth)
    (hbefore : outcome (Statement.runAt engine depth before) l = (.ok (), reached))
    (hnames : e.Names engine reached source opened)
    (hfixed : opened.trail.machine = reached.trail.machine)
    (hof : included.IsOf opened.trail.machine source) :
    let including :=
      outcome (Statement.runAt engine depth (before ++ ⟨.include e, span⟩ :: after)) l
    let inlined := outcome (Statement.runAt engine depth (before ++ included ++ after)) l
    (including.1 = .ok () → inlined.1 = .ok () ∧ inlined.2.store = including.2.store) ∧
      (inlined.1 = .ok () →
        ¬ExecutesDeepest engine depth (before ++ ⟨.include e, span⟩ :: after) l →
        including.1 = .ok () ∧ including.2.store = inlined.2.store) ∧
      (∀ located, depth < maxIncludeDepth →
        (outcome (Statement.runAt engine (depth + 1) included) opened).1 = .error located →
        ¬located.IsDeep → including.1 ≠ .ok () ∧ inlined.1 = .error located ∧
          including.2.store = inlined.2.store) ∧
      (∀ located located', (outcome (Statement.runAt engine depth included) reached).1 =
          .error located → including.1 = .error located' → ¬located'.IsDeep →
        inlined.1 = .error located ∧ including.2.store = inlined.2.store) := by
  intro including inlined
  have hincluding : including =
      outcome (Statement.runAt engine depth (⟨.include e, span⟩ :: after)) reached :=
    Statement.runAt_append_ok hbefore
  have hinlined : inlined = outcome (Statement.runAt engine depth (included ++ after)) reached := by
    change outcome (Statement.runAt engine depth (before ++ included ++ after)) l = _
    rw [List.append_assoc, Statement.runAt_append_ok hbefore]
  let placed := outcome (Statement.runAt engine depth (included ++ after)) opened
  have hplaced : placed.1 = inlined.1 ∧ placed.2.store = inlined.2.store := by
    have hstore : opened.store = reached.store := by
      rw [← e.named_store engine reached, hnames]
    obtain ⟨hresult, hstores⟩ := Statement.runAt_relates engine depth (included ++ after) opened
      reached ⟨hstore, hfixed⟩
    rw [hinlined]
    exact ⟨hresult, hstores.stores⟩
  have hagree : including = placed ∨ ∃ located, including.1 = .error located ∧
      (located.IsDeep ∨ including.2 = placed.2 ∧ ∃ located', placed.1 = .error located') := by
    rw [hincluding]
    exact Statement.runAt_include_agrees hdepth hnames hof
  refine ⟨?_, ?_, ?_, ?_⟩
  · intro hok
    rcases hagree with hsame | ⟨located, hfail, _⟩
    · rw [← hplaced.1, ← hplaced.2, ← hsame]
      exact ⟨hok, rfl⟩
    · cases hok.symm.trans hfail
  · intro hok hnot
    rcases hagree with hsame | ⟨located, hfail, hdeep | ⟨_, located', hfail'⟩⟩
    · rw [hsame, ← hplaced.2]
      exact ⟨hplaced.1.trans hok, rfl⟩
    · exact (hnot (executesDeepest_of_isDeep hdepth (Prod.ext hfail rfl) hdeep)).elim
    · cases (hplaced.1.trans hok).symm.trans hfail'
  · intro located hless hlow hshallow
    obtain ⟨⟨located', hfail⟩, hfail'⟩ :=
      Statement.runAt_include_error hless hnames hof (Prod.ext hlow rfl) hshallow
    refine ⟨?_, hplaced.1.symm.trans (congrArg Prod.fst hfail'), ?_⟩
    · rw [hincluding, hfail]
      exact nofun
    · rw [← hplaced.2, hincluding, hfail]
      exact congrArg (·.2.store) hfail'.symm
  · intro located located' hhigh hfail hshallow
    have hfails : inlined.1 = .error located := by
      rw [hinlined, Statement.runAt_append, outcome_bind_error (Prod.ext hhigh rfl)]
    refine ⟨hfails, ?_⟩
    rw [← hplaced.2]
    rcases hagree with hsame | ⟨located'', hfail', hdeep | ⟨hstate, _⟩⟩
    · rw [hsame]
    · obtain rfl : located' = located'' := Except.error.inj (hfail.symm.trans hfail')
      exact (hshallow hdeep).elim
    · rw [hstate]

/-- A file that is included between two assignments could as well stand between them. -/
theorem Statement.runAt_include_file_inlined :
    let tree : File.Tree := ⟨.directory [("f", .file "y = 2;".toUTF8)], []⟩
    let l : Loading := ⟨.empty, ⟨.start tree [], []⟩⟩
    let before : Program := [⟨.set ⟨"x", ⟨0, 1⟩⟩ (.literal (.int 1) ⟨4, 5⟩), ⟨0, 6⟩⟩]
    let included : Program := [⟨.set ⟨"y", ⟨0, 1⟩⟩ (.literal (.int 2) ⟨4, 5⟩), ⟨0, 6⟩⟩]
    let after : Program := [⟨.set ⟨"z", ⟨20, 21⟩⟩ (.variable "y" ⟨24, 25⟩), ⟨20, 26⟩⟩]
    let e : Expr := .literal (.string "f") ⟨15, 18⟩
    let including :=
      outcome (runAt .standard 0 (before ++ ⟨.include e, ⟨7, 19⟩⟩ :: after)) l
    let inlined := outcome (runAt .standard 0 (before ++ included ++ after)) l
    (∃ reached opened, outcome (runAt .standard 0 before) l = (.ok (), reached) ∧
      e.Names .standard reached (.file "f") opened ∧
      opened.trail.machine = reached.trail.machine ∧
      included.IsOf opened.trail.machine (.file "f")) ∧
    including.1 = .ok () ∧ inlined.1 = .ok () ∧ inlined.2.store = including.2.store := by
  intro tree l before included after e including inlined
  let reached := (outcome (runAt .standard 0 before) l).2
  have hbefore : outcome (runAt .standard 0 before) l = (.ok (), reached) := rfl
  have hnames : e.Names .standard reached (.file "f") reached := rfl
  have hfetch : Load.fetch reached.trail.machine (.file "f") = .ok "y = 2;" := by
    apply Load.fetch_file
    decide +kernel
  have hparse : parse "y = 2;" = .ok included := by
    have hlex : lex "y = 2;" = [⟨.key "y", ⟨0, 1⟩⟩, ⟨.equals, ⟨2, 3⟩⟩, ⟨.int 2, ⟨4, 5⟩⟩,
        ⟨.semicolon, ⟨5, 6⟩⟩, ⟨.endOfInput, ⟨6, 6⟩⟩] := by
      decide +kernel
    rw [parse, hlex]
    rfl
  have hof : included.IsOf reached.trail.machine (.file "f") := ⟨_, hfetch, hparse⟩
  have hincluding : including.1 = .ok () := by
    change (outcome (runAt .standard 0 (before ++ ⟨.include e, ⟨7, 19⟩⟩ :: after)) l).1 = _
    rw [runAt_append_ok hbefore, runAt_include (by decide) hnames hfetch hparse]
    rfl
  obtain ⟨hsame, _⟩ := runAt_include_inlined .standard 0 before included after e ⟨7, 19⟩ (.file "f")
    l reached reached (by decide) hbefore hnames rfl hof
  exact ⟨⟨reached, reached, hbefore, hnames, rfl, hof⟩, hincluding, hsame hincluding⟩

end TypedConfig.Syntax
