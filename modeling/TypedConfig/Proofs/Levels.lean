import TypedConfig.Proofs.Shallow

/-!
# Levels of includes

The statements of a source run at a depth: that of the entry is zero, and that of an included
source is one more than the depth of the include. At the greatest depth includes are refused.

A program that runs one level further down ends alike unless it ends because includes are nested
too deeply. Where that happens, an include has been executed at the greatest depth.
-/

namespace TypedConfig

variable {ε ε' σ α β : Type}

/-- Both steps end alike, except where the first one fails for a reason in `P`. -/
def AgreesUnless (P : ε → Prop) (x y : ExceptT ε (StateM σ) α) : Prop :=
  ∀ s, outcome y s = outcome x s ∨ ∃ e, (outcome x s).1 = .error e ∧ P e

namespace AgreesUnless

variable {P : ε → Prop}

/-- A computation agrees with itself. -/
theorem refl (x : ExceptT ε (StateM σ) α) : AgreesUnless P x x := fun _ => .inl rfl

/-- Computations that agree step by step agree. -/
theorem bind {x y : ExceptT ε (StateM σ) α} {f g : α → ExceptT ε (StateM σ) β}
    (first : AgreesUnless P x y) (rest : ∀ a, AgreesUnless P (f a) (g a)) :
    AgreesUnless P (x >>= f) (y >>= g) := by
  intro s
  rcases first s with hsame | ⟨e, hfail, he⟩
  · rw [outcome_bind, outcome_bind, hsame]
    rcases hx : outcome x s with ⟨e | a, s'⟩
    · exact .inl rfl
    · exact rest a s'
  · exact .inr ⟨e, by rw [outcome_bind_error (Prod.ext hfail rfl)], he⟩

/-- Computations agree with adapted errors too. -/
theorem adapt {Q : ε' → Prop} {x y : ExceptT ε (StateM σ) α} (f : ε → ε')
    (hf : ∀ e, P e → Q (f e)) (h : AgreesUnless P x y) :
    AgreesUnless Q (ExceptT.adapt f x) (ExceptT.adapt f y) := by
  intro s
  rw [outcome_adapt, outcome_adapt]
  rcases h s with hsame | ⟨e, hfail, he⟩
  · exact .inl (by rw [hsame])
  · exact .inr ⟨f e, by rw [hfail]; rfl, hf e he⟩

end AgreesUnless

/-- A fault because includes are nested too deeply. -/
def Located.IsDeep (located : Located) : Prop := located.fault.isTooDeep = true

/-- What holds at each depth if it holds one level further down, where there is one, holds at every
depth. -/
theorem depth_induction {P : Nat → Prop}
    (h : ∀ depth ≤ maxIncludeDepth, (depth < maxIncludeDepth → P (depth + 1)) → P depth) :
    ∀ depth ≤ maxIncludeDepth, P depth := by
  intro depth hdepth
  induction hlevels : maxIncludeDepth - depth generalizing depth with
  | zero =>
    apply h depth hdepth
    intro hless
    omega
  | succ levels ih =>
    apply h depth hdepth
    intro hless
    exact ih (depth + 1) hless (by omega)

namespace Syntax

/-- Runs a program whose includes are at a depth. -/
def Statement.runAt (engine : Construct.Engine) (depth : Nat) : Program → LoadStep Unit :=
  Statement.runAll engine (Load.source engine (maxIncludeDepth - depth))

/-- Whether a statement assigns a value to a key, always or as a default. -/
def Statement.isAssignment (s : Statement) : Bool :=
  match s.action with
  | .include _ => false
  | _ => true

/-- The expression of a statement. -/
def Statement.expr (s : Statement) : Expr :=
  match s.action with
  | .set _ e => e
  | .default _ e => e
  | .include e => e

/-- An assignment loads nothing. -/
theorem Statement.run_assignment {s : Statement} (h : s.isAssignment = true)
    (engine : Construct.Engine) (load load' : TextSource → Load Unit) :
    s.run engine load = s.run engine load' := by
  obtain ⟨_ | _ | _, span⟩ := s
  · rfl
  · rfl
  · cases h

/-- The source that the expression of an include names. -/
def Expr.named (engine : Construct.Engine) (e : Expr) : LoadStep TextSource := do
  match sourceOf (← LoadStep.evaluateInPassing fun store => e.evaluate engine store) with
  | .error fault => throw ⟨e.span, fault⟩
  | .ok source => return source

/-- The expression of an include names a source; the second loading is the one that its evaluation
leaves behind. -/
def Expr.Names (engine : Construct.Engine) (e : Expr) (l : Loading) (source : TextSource)
    (l' : Loading) : Prop :=
  outcome (e.named engine) l = (.ok source, l')

/-- An included program: what stands behind a source that can be fetched and parsed. -/
def Program.IsOf (program : Program) (m : Machine) (source : TextSource) : Prop :=
  ∃ text, Load.fetch m source = .ok text ∧ parse text = .ok program

/-- A program that runs at a depth from one loading executes a statement at a depth from another
one, either itself or in a source that it includes. -/
inductive Executes (engine : Construct.Engine) :
    Nat → Program → Loading → Nat → Statement → Loading → Prop
  | here {depth s rest l} : Executes engine depth (s :: rest) l depth s l
  | later {depth s rest l l' depth' s' l''} :
    outcome (s.run engine (Load.source engine (maxIncludeDepth - depth))) l = (.ok (), l') →
      Executes engine depth rest l' depth' s' l'' →
      Executes engine depth (s :: rest) l depth' s' l''
  | inside {depth e span rest l source l' program depth' s' l''} : depth < maxIncludeDepth →
    e.Names engine l source l' → program.IsOf l'.trail.machine source →
      Executes engine (depth + 1) program l' depth' s' l'' →
      Executes engine depth (⟨.include e, span⟩ :: rest) l depth' s' l''

/-- A statement agrees with two ways of loading that do. -/
theorem Statement.run_agrees (engine : Construct.Engine) {load load' : TextSource → Load Unit}
    (hload : ∀ s, AgreesUnless (fun e => e.isTooDeep = true) (load s) (load' s)) (s : Statement) :
    AgreesUnless Located.IsDeep (s.run engine load) (s.run engine load') := by
  obtain ⟨_ | _ | e, span⟩ := s
  · exact .refl _
  · exact .refl _
  · refine .bind (.refl _) fun v => ?_
    cases sourceOf v with
    | error fault => exact .refl _
    | ok source => exact .adapt _ (fun _ he => he) (hload source)

/-- Statements agree with two ways of loading that do. -/
theorem Statement.runAll_agrees (engine : Construct.Engine) {load load' : TextSource → Load Unit}
    (hload : ∀ s, AgreesUnless (fun e => e.isTooDeep = true) (load s) (load' s))
    (program : Program) :
    AgreesUnless Located.IsDeep (Statement.runAll engine load program)
      (Statement.runAll engine load' program) := by
  induction program with
  | nil => exact .refl _
  | cons s rest ih => exact .bind (s.run_agrees engine hload) fun _ => ih

end Syntax

/-- A fault as an error of the text in which it is. -/
def Located.inText (origin text : String) (located : Located) : LoadError :=
  .inText origin (Syntax.positionOf text located.span) located.span located.fault

namespace Load

/-- A text that parses is its statements, with its errors located. -/
theorem text_eq (engine : Construct.Engine) (load : TextSource → Load Unit)
    (origin : String) {source : String} {program : Syntax.Program}
    (hparse : Syntax.parse source = .ok program) :
    text engine load origin source =
      ExceptT.adapt (Located.inText origin source)
        (Syntax.Statement.runAll engine load program) := by
  unfold text
  rw [hparse]
  rfl

/-- A text agrees with two ways of loading that do. -/
theorem text_agrees (engine : Construct.Engine) {load load' : TextSource → Load Unit}
    (hload : ∀ s, AgreesUnless (fun e => e.isTooDeep = true) (load s) (load' s))
    (origin source : String) :
    AgreesUnless (fun e => e.isTooDeep = true) (text engine load origin source)
      (text engine load' origin source) := by
  cases hparse : Syntax.parse source with
  | error e =>
    unfold text
    rw [hparse]
    exact .refl _
  | ok program =>
    rw [text_eq _ _ _ hparse, text_eq _ _ _ hparse]
    exact .adapt _ (fun _ he => he) (Syntax.Statement.runAll_agrees engine hload program)

/-- A load that is given one more level ends alike, unless includes are nested too deeply. -/
theorem source_agrees (engine : Construct.Engine) (levels : Nat) :
    ∀ s, AgreesUnless (fun e => e.isTooDeep = true) (source engine levels s)
      (source engine (levels + 1) s) := by
  induction levels with
  | zero => exact fun s l => .inr ⟨.tooDeep, rfl, rfl⟩
  | succ levels ih =>
    intro s
    rw [source, source]
    refine .bind (.refl _) fun loading => .bind (.refl _) fun fetched => ?_
    exact text_agrees engine ih s.text fetched

/-- A file that can be read is fetched. -/
theorem fetch_file {m : Machine} {path fetched : String}
    (h : (m.tree.text path).toOption = some fetched) : fetch m (.file path) = .ok fetched := by
  change (m.tree.text path).mapError (LoadError.unreadable _) = _
  cases htext : m.tree.text path with
  | error e =>
    rw [htext] at h
    cases h
  | ok text =>
    rw [htext] at h
    exact congrArg Except.ok (Option.some.inj h)

/-- Below the greatest depth an included source runs at the next depth. -/
theorem source_at (engine : Construct.Engine) {depth : Nat} (hdepth : depth < maxIncludeDepth)
    (s : TextSource) (l : Loading) :
    outcome (source engine (maxIncludeDepth - depth) s) l =
      match fetch l.trail.machine s with
      | .error e => (.error e, l)
      | .ok fetched => outcome (text engine (source engine (maxIncludeDepth - (depth + 1))) s.text
          fetched) l := by
  obtain ⟨levels, hlevels⟩ : ∃ levels, maxIncludeDepth - depth = levels + 1 :=
    ⟨maxIncludeDepth - (depth + 1), by omega⟩
  rw [hlevels, show maxIncludeDepth - (depth + 1) = levels by omega, source,
    outcome_bind_ok (outcome_get l)]
  cases fetch l.trail.machine s <;> rfl

/-- An included program runs at the next depth. -/
theorem source_run (engine : Construct.Engine) {depth : Nat} (hdepth : depth < maxIncludeDepth)
    {s : TextSource} {l : Loading} {fetched : String} {program : Syntax.Program}
    (hfetch : fetch l.trail.machine s = .ok fetched) (hparse : Syntax.parse fetched = .ok program) :
    outcome (source engine (maxIncludeDepth - depth) s) l =
      outcome (ExceptT.adapt (Located.inText s.text fetched)
        (Syntax.Statement.runAt engine (depth + 1) program)) l := by
  rw [source_at engine hdepth, hfetch]
  change outcome (text engine _ s.text fetched) l = _
  rw [text_eq _ _ _ hparse]
  rfl

/-- Below the greatest depth a source is too deep only where its program is. -/
theorem source_isTooDeep {engine : Construct.Engine} {depth : Nat}
    (hdepth : depth < maxIncludeDepth) {s : TextSource} {l l' : Loading} {error : LoadError}
    (h : outcome (source engine (maxIncludeDepth - depth) s) l = (.error error, l'))
    (hdeep : error.isTooDeep = true) :
    ∃ program located, Syntax.Program.IsOf program l.trail.machine s ∧
      outcome (Syntax.Statement.runAt engine (depth + 1) program) l = (.error located, l') ∧
      located.IsDeep := by
  cases hfetch : fetch l.trail.machine s with
  | error cause =>
    rw [source_at engine hdepth, hfetch] at h
    cases h
    exact (Bool.false_ne_true ((fetch_isTooDeep hfetch).symm.trans hdeep)).elim
  | ok fetched =>
    cases hparse : Syntax.parse fetched with
    | error cause =>
      rw [source_at engine hdepth, hfetch] at h
      simp only [text, hparse] at h
      cases h
      cases hdeep
    | ok program =>
      rw [source_run engine hdepth hfetch hparse, outcome_adapt] at h
      rcases hrun : outcome (Syntax.Statement.runAt engine (depth + 1) program) l with
        ⟨located | _, k⟩
      · rw [hrun] at h
        cases h
        exact ⟨program, located, ⟨fetched, hfetch, hparse⟩, hrun, hdeep⟩
      · rw [hrun] at h
        cases h

end Load

namespace Syntax

variable {engine : Construct.Engine} {e : Expr} {span : Source.Span} {depth : Nat}
  {program : Program} {source : TextSource} {l l' l'' : Loading}

/-- An include evaluates its expression and loads what it names. -/
theorem Statement.run_include_eq (engine : Construct.Engine) (load : TextSource → Load Unit)
    (e : Expr) (span : Source.Span) :
    Statement.run engine load ⟨.include e, span⟩ = e.named engine >>= fun source =>
      ExceptT.adapt (fun error => (⟨span, .inclusion source error⟩ : Located)) (load source) := by
  unfold Expr.named
  rw [bind_assoc]
  change LoadStep.evaluateInPassing _ >>= _ = _
  congr 1
  funext v
  cases sourceOf v <;> rfl

/-- An include runs what it names from where the evaluation of its expression has ended. -/
theorem Statement.run_include (load : TextSource → Load Unit) (span : Source.Span)
    (hnames : e.Names engine l source l') :
    outcome (Statement.run engine load ⟨.include e, span⟩) l =
      outcome (ExceptT.adapt (fun error => (⟨span, .inclusion source error⟩ : Located))
        (load source)) l' := by
  rw [run_include_eq, outcome_bind_ok hnames]

/-- To name a source is to evaluate its expression, which has the fault. -/
theorem Expr.named_throws (engine : Construct.Engine) (e : Expr) :
    Throws e.HasFault (e.named engine) := by
  unfold Expr.named
  refine .bind (LoadStep.evaluateInPassing_throws fun store => e.evaluate_throws engine store) ?_
  intro v
  cases hsource : sourceOf v with
  | error fault =>
    obtain ⟨_, rfl⟩ | ⟨_, rfl⟩ := sourceOf_error hsource
    all_goals exact .throw ⟨rfl, .whole⟩
  | ok source => exact .pure source

/-- The expression of an include leaves the store as it is. -/
theorem Expr.named_store (engine : Construct.Engine) (e : Expr) (l : Loading) :
    (outcome (e.named engine) l).2.store = l.store := by
  unfold Expr.named
  rw [outcome_bind, LoadStep.outcome_evaluateInPassing]
  split
  next v l' h =>
    have hstore : l'.store = l.store := congrArg (·.2.store) h.symm
    cases sourceOf v <;> exact hstore
  next located l' h => exact congrArg (·.2.store) h.symm

/-- Programs joined run one after the other. -/
theorem Statement.runAt_append (engine : Construct.Engine) (depth : Nat) (program rest : Program) :
    Statement.runAt engine depth (program ++ rest) =
      Statement.runAt engine depth program >>= fun _ => Statement.runAt engine depth rest :=
  Statement.runAll_append engine _ program rest

/-- Where a program succeeds, what stands behind it runs from what it leaves. -/
theorem Statement.runAt_append_ok {rest : Program}
    (h : outcome (Statement.runAt engine depth program) l = (.ok (), l')) :
    outcome (Statement.runAt engine depth (program ++ rest)) l =
      outcome (Statement.runAt engine depth rest) l' := by
  rw [runAt_append, outcome_bind_ok h]

/-- An include that is not refused runs what it includes at the next depth. -/
theorem Statement.runAt_include {after : Program} {fetched : String}
    (hdepth : depth < maxIncludeDepth)
    (hnames : e.Names engine l source l')
    (hfetch : Load.fetch l'.trail.machine source = .ok fetched)
    (hparse : parse fetched = .ok program) :
    outcome (Statement.runAt engine depth (⟨.include e, span⟩ :: after)) l =
      match outcome (Statement.runAt engine (depth + 1) program) l' with
      | (.ok (), k) => outcome (Statement.runAt engine depth after) k
      | (.error located, k) =>
        (.error ⟨span, .inclusion source (located.inText source.text fetched)⟩, k) := by
  change outcome (Statement.run engine _ ⟨.include e, span⟩ >>= fun _ =>
    Statement.runAt engine depth after) l = _
  rw [outcome_bind, Statement.run_include _ span hnames, outcome_adapt,
    Load.source_run engine hdepth hfetch hparse, outcome_adapt]
  rcases outcome (Statement.runAt engine (depth + 1) program) l' with ⟨_ | _, _⟩ <;> rfl

/-- At the greatest depth every include of a source is refused, whatever the source is. -/
theorem Statement.run_include_deepest (hnames : e.Names engine l source l') :
    outcome (Statement.run engine (Load.source engine (maxIncludeDepth - maxIncludeDepth))
      ⟨.include e, span⟩) l = (.error ⟨span, .inclusion source .tooDeep⟩, l') := by
  rw [run_include _ span hnames, Nat.sub_self]
  rfl

/-- At the deepest level an include is refused before it opens anything. -/
theorem Statement.runAt_include_deepest {after : Program} (hnames : e.Names engine l source l') :
    outcome (Statement.runAt engine maxIncludeDepth (⟨.include e, span⟩ :: after)) l =
      (.error ⟨span, .inclusion source .tooDeep⟩, l') :=
  outcome_bind_error (run_include_deepest hnames)

/-- An assignment fails with its expression. -/
theorem Statement.run_throws (engine : Construct.Engine) (load : TextSource → Load Unit)
    {s : Statement} (hs : s.isAssignment = true) :
    Throws s.expr.HasFault (s.run engine load) := by
  obtain ⟨⟨key, e⟩ | ⟨key, e⟩ | e, span⟩ := s
  · exact assign_throws engine key e
  · have hask (question : Store → Logged Bool) : Throws e.HasFault (LoadStep.ask question) :=
      LoadStep.evaluate_throws fun _ => Evaluation.ofLogged_throws _ _
    refine .bind (hask _) fun present => ?_
    cases present with
    | true => exact .pure _
    | false => exact assign_throws engine key e
  · cases hs

/-- Only an include whose load is too deep fails because includes are nested too deeply. -/
theorem Statement.run_isDeep {load : TextSource → Load Unit} {s : Statement} {located : Located}
    (h : outcome (s.run engine load) l = (.error located, l')) (hdeep : located.IsDeep) :
    ∃ e span source k error, s = ⟨.include e, span⟩ ∧ e.Names engine l source k ∧
      outcome (load source) k = (.error error, l') ∧ error.isTooDeep = true := by
  have hshallow {e : Expr} (hfault : e.HasFault located) : False :=
    Bool.false_ne_true (hfault.1.symm.trans hdeep)
  cases hs : s.isAssignment with
  | true => exact (hshallow (s.run_throws engine load hs l located (congrArg Prod.fst h))).elim
  | false =>
    obtain ⟨_ | _ | e, span⟩ := s
    · cases hs
    · cases hs
    · rw [run_include_eq] at h
      rcases hnames : outcome (e.named engine) l with ⟨located' | source, k⟩
      · rw [outcome_bind_error hnames] at h
        cases h
        exact (hshallow (e.named_throws engine l located (congrArg Prod.fst hnames))).elim
      · rw [outcome_bind_ok hnames, outcome_adapt] at h
        rcases hload : outcome (load source) k with ⟨error | _, k'⟩
        · rw [hload] at h
          cases h
          exact ⟨e, span, source, k, error, rfl, hnames, hload, hdeep⟩
        · rw [hload] at h
          cases h

/-- A program executes an include at the greatest depth. -/
def ExecutesDeepest (engine : Construct.Engine) (depth : Nat) (program : Program) (l : Loading) :
    Prop :=
  ∃ e span k, Executes engine depth program l maxIncludeDepth ⟨.include e, span⟩ k

/-- Where a program runs too deep, one of its includes does. -/
theorem executesDeepest_of_include (hinclude : ∀ {e span rest l source k error l'},
      e.Names engine l source k →
      outcome (Load.source engine (maxIncludeDepth - depth) source) k = (.error error, l') →
      error.isTooDeep = true → ExecutesDeepest engine depth (⟨.include e, span⟩ :: rest) l)
    {located : Located}
    (h : outcome (Statement.runAt engine depth program) l = (.error located, l'))
    (hdeep : located.IsDeep) : ExecutesDeepest engine depth program l := by
  induction program generalizing l with
  | nil => cases h
  | cons s rest ih =>
    change outcome (s.run engine _ >>= fun _ => Statement.runAt engine depth rest) l = _ at h
    rcases hrun : outcome (s.run engine (Load.source engine (maxIncludeDepth - depth))) l with
      ⟨located' | _, k⟩
    · rw [outcome_bind_error hrun] at h
      cases h
      obtain ⟨e, span, source, k', error, rfl, hnames, hload, herror⟩ :=
        Statement.run_isDeep hrun hdeep
      exact hinclude hnames hload herror
    · rw [outcome_bind_ok hrun] at h
      obtain ⟨e, span, k', hexecutes⟩ := ih h
      exact ⟨e, span, k', .later hrun hexecutes⟩

/-- Where a program runs too deep, it has executed an include at the greatest depth. -/
theorem executesDeepest_of_isDeep (hdepth : depth ≤ maxIncludeDepth) {located : Located}
    (h : outcome (Statement.runAt engine depth program) l = (.error located, l'))
    (hdeep : located.IsDeep) : ExecutesDeepest engine depth program l := by
  refine depth_induction (P := fun depth => ∀ program l l' located,
    outcome (Statement.runAt engine depth program) l = (.error located, l') → located.IsDeep →
      ExecutesDeepest engine depth program l) ?_ depth hdepth program l l' located h hdeep
  intro depth hdepth hnext program l l' located h hdeep
  obtain hmax | hless := Nat.eq_or_lt_of_le hdepth
  · subst hmax
    exact executesDeepest_of_include (fun _ _ _ => ⟨_, _, _, .here⟩) h hdeep
  · refine executesDeepest_of_include ?_ h hdeep
    intro e span rest l source k error l' hnames hload herror
    obtain ⟨included, located', hof, hrun, hdeep'⟩ := Load.source_isTooDeep hless hload herror
    obtain ⟨e', span', k', hexecutes⟩ := hnext hless _ _ _ _ hrun hdeep'
    exact ⟨e', span', k', .inside hless hnames hof hexecutes⟩

end Syntax

end TypedConfig
