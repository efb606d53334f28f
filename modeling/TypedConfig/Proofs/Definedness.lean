import TypedConfig.Proofs.Failure
import TypedConfig.Proofs.Variables

/-!
# Definition before use

The evaluation of an expression comes to its parts one after the other, as long as all that it has
evaluated before succeeds. It fails because a variable is not defined exactly where it comes to an
occurrence of one that the store does not have, and such a fault ends the load, through all includes
that are open around the text.

A statement that has run leaves its target in the store, whether it has assigned a value or found
one, and no statement takes a key away, an include as little as an assignment. So in a text whose
variables are all there before the load, or are targets of earlier statements of the text, no
variable is undefined where it is used.
-/

namespace TypedConfig

/-- A key that stands for an undefined variable: it is not in the store, and is not the key for the
store itself. -/
structure Store.Lacks (s : Store) (name : String) : Prop where
  ne_self : name ≠ selfKey
  absent : (s.contains name).result = false

namespace Syntax

variable {engine : Construct.Engine} {store : Store} {e f : Expr} {es : List Expr}
  {t u v : Trail} {located : Located} {name : String} {span : Source.Span}

section Evaluation

/-- A variable that the store lacks is undefined. -/
theorem lookUp_of_lacks (h : store.Lacks name) (span : Source.Span) (t : Trail) :
    ∃ u, outcome (lookUp store name span) t = (.error ⟨span, .undefined name⟩, u) := by
  have hnone : (store.get? name).result = none := by
    have habsent := h.absent
    rwa [Store.contains_eq, Option.isSome_eq_false_iff, Option.isNone_iff_eq_none] at habsent
  unfold lookUp
  rw [if_neg h.ne_self, outcome_bind_ok (Evaluation.outcome_ofLogged _ t), hnone]
  exact ⟨_, rfl⟩

/-- A variable is undefined only if the store lacks it. -/
theorem lacks_of_lookUp (h : outcome (lookUp store name span) t = (.error located, u)) :
    store.Lacks name ∧ located = ⟨span, .undefined name⟩ := by
  unfold lookUp at h
  split at h
  · rw [outcome_bind_ok (Evaluation.outcome_ofLogged _ t), Evaluation.outcome_ofBuild] at h
    cases h
  next hne =>
    rw [outcome_bind_ok (Evaluation.outcome_ofLogged _ t)] at h
    cases hfound : (store.get? name).result with
    | some value =>
      rw [hfound] at h
      cases h
    | none =>
      rw [hfound] at h
      cases h
      exact ⟨⟨hne, by rw [Store.contains_eq, hfound]; rfl⟩, rfl⟩

/-- Expressions are evaluated one after the other. -/
theorem Expr.evaluateAll_append (engine : Construct.Engine) (store : Store) (es fs : List Expr) :
    Expr.evaluateAll engine store (es ++ fs) = (do
      let values ← Expr.evaluateAll engine store es
      let rest ← Expr.evaluateAll engine store fs
      return values ++ rest) := by
  induction es with
  | nil => simp [Expr.evaluateAll]
  | cons e es ih => simp [Expr.evaluateAll, ih]

/-- The values of named arguments are evaluated like those of the others. -/
theorem Expr.evaluateNamed_eq (engine : Construct.Engine) (store : Store)
    (named : List (Name × Expr)) :
    Expr.evaluateNamed engine store named = (do
      let values ← Expr.evaluateAll engine store (named.map Prod.snd)
      return (named.map (·.1.text)).zip values) := by
  induction named with
  | nil => simp [Expr.evaluateNamed, Expr.evaluateAll]
  | cons entry named ih => simp [Expr.evaluateNamed, Expr.evaluateAll, ih]

/-- Several expressions fail at the first of them that fails. -/
theorem Expr.evaluateAll_error_iff :
    outcome (Expr.evaluateAll engine store es) t = (.error located, u) ↔
      ∃ before e after values between, es = before ++ e :: after ∧
        outcome (Expr.evaluateAll engine store before) t = (.ok values, between) ∧
        outcome (e.evaluate engine store) between = (.error located, u) := by
  constructor
  · intro h
    induction es generalizing t with
    | nil => cases h
    | cons e es ih =>
      rw [Expr.evaluateAll, outcome_bind_error_iff] at h
      obtain hfirst | ⟨value, between, hfirst, hlater⟩ := h
      · exact ⟨[], e, es, [], t, rfl, rfl, hfirst⟩
      · rw [outcome_bind_pure_error_iff] at hlater
        obtain ⟨before, f, after, values, between', rfl, hbefore, hfails⟩ := ih hlater
        refine ⟨e :: before, f, after, value :: values, between', rfl, ?_, hfails⟩
        rw [Expr.evaluateAll, outcome_bind_ok hfirst, outcome_bind_ok hbefore]
        rfl
  · rintro ⟨before, e, after, values, between, rfl, hbefore, hfails⟩
    rw [Expr.evaluateAll_append, outcome_bind_ok hbefore, Expr.evaluateAll]
    exact outcome_bind_error (outcome_bind_error hfails)

/-- Of two expressions the first one fails, or the second one behind it. -/
theorem Expr.evaluateAll_pair_error_iff {left right : Expr} :
    outcome (Expr.evaluateAll engine store [left, right]) t = (.error located, u) ↔
      outcome (left.evaluate engine store) t = (.error located, u) ∨
        ∃ value between, outcome (left.evaluate engine store) t = (.ok value, between) ∧
          outcome (right.evaluate engine store) between = (.error located, u) := by
  simp only [Expr.evaluateAll, outcome_bind_error_iff, outcome_pure, Prod.mk.injEq, reduceCtorEq,
    false_and, and_false, exists_false, or_false]

/-- A positional argument fails, or a named one behind them. -/
theorem Expr.evaluateAll_arguments_error_iff {arguments : List Expr} {named : List (Name × Expr)} :
    outcome (Expr.evaluateAll engine store (arguments ++ named.map Prod.snd)) t =
        (.error located, u) ↔
      outcome (Expr.evaluateAll engine store arguments) t = (.error located, u) ∨
        ∃ values between, outcome (Expr.evaluateAll engine store arguments) t =
            (.ok values, between) ∧
          outcome (Expr.evaluateNamed engine store named) between = (.error located, u) := by
  rw [Expr.evaluateAll_append, Expr.evaluateNamed_eq, outcome_bind_error_iff]
  simp only [outcome_bind_pure_error_iff]

/-- The tag of an array. -/
def Expr.tag? : Expr → Option Name
  | .array tag _ _ => tag
  | _ => none

/-- An expression is evaluated as far as its parts, since no tag of an unknown kind stands before
them. -/
def Expr.ReachesParts (engine : Construct.Engine) (e : Expr) : Prop :=
  ∃ declared, declaredKind engine.registry e.tag? = .ok declared

/-- An expression fails with its parts. -/
theorem Expr.evaluate_of_parts_error (htag : e.ReachesParts engine)
    (h : outcome (Expr.evaluateAll engine store e.parts) t = (.error located, u)) :
    outcome (e.evaluate engine store) t = (.error located, u) := by
  cases e with
  | literal | «variable» => cases h
  | concat left right span =>
    rw [Expr.evaluate]
    obtain hleft | ⟨value, between, hleft, hright⟩ := Expr.evaluateAll_pair_error_iff.mp h
    · exact outcome_bind_error hleft
    · exact (outcome_bind_ok hleft).trans (outcome_bind_error hright)
  | array tag items span =>
    obtain ⟨declared, htag⟩ := htag
    have hdeclared : outcome (liftM (declaredKind engine.registry tag) : Evaluation _) t =
        (.ok declared, t) := by
      rw [Evaluation.outcome_liftM]
      exact congrArg (·, t) htag
    have hitems : outcome (Expr.evaluateAll engine store items) t = (.error located, u) := h
    rw [Expr.evaluate, outcome_bind_ok hdeclared, outcome_bind_error hitems]
  | construct type arguments named span =>
    rw [Expr.evaluate]
    obtain harguments | ⟨values, between, harguments, hnamed⟩ :=
      Expr.evaluateAll_arguments_error_iff.mp h
    · exact outcome_bind_error harguments
    · exact (outcome_bind_ok harguments).trans (outcome_bind_error hnamed)

/-- Of all expressions only a variable is undefined itself; another one fails for this reason only
with its parts. -/
theorem Expr.parts_error_of_undefined
    (h : outcome (e.evaluate engine store) t = (.error ⟨span, .undefined name⟩, u)) :
    e = .variable name span ∧ store.Lacks name ∨ e.ReachesParts engine ∧
      outcome (Expr.evaluateAll engine store e.parts) t = (.error ⟨span, .undefined name⟩, u) := by
  cases e with
  | literal => cases h
  | «variable» name' span' =>
    obtain ⟨hlacks, hlocated⟩ := lacks_of_lookUp h
    cases hlocated
    exact .inl ⟨rfl, hlacks⟩
  | concat left right span' =>
    refine .inr ⟨⟨none, rfl⟩, Expr.evaluateAll_pair_error_iff.mpr ?_⟩
    rw [Expr.evaluate, outcome_bind_error_iff] at h
    obtain hleft | ⟨x, between, hleft, hrest⟩ := h
    · exact .inl hleft
    rw [outcome_bind_error_iff] at hrest
    obtain hright | ⟨y, _, _, hjoined⟩ := hrest
    · exact .inr ⟨x, between, hleft, hright⟩
    cases hjoin : joinValues x y with
    | ok joined =>
      rw [hjoin] at hjoined
      cases hjoined
    | error fault =>
      rw [hjoin] at hjoined
      cases hjoined
      obtain ⟨_, _, hfault | hfault⟩ := joinValues_error hjoin <;> cases hfault
  | array tag items span' =>
    rw [Expr.evaluate, outcome_bind_error_iff, Evaluation.outcome_liftM] at h
    obtain htag | ⟨declared, _, htag, hrest⟩ := h
    · obtain ⟨_, _, _, hfault⟩ := declaredKind_error (congrArg Prod.fst htag)
      cases hfault
    obtain ⟨hdeclared, rfl⟩ := Prod.mk.inj htag
    refine .inr ⟨⟨declared, hdeclared⟩, ?_⟩
    rw [outcome_bind_error_iff] at hrest
    obtain hitems | ⟨values, between, _, harray⟩ := hrest
    · exact hitems
    · rw [Evaluation.outcome_liftM] at harray
      obtain ⟨_, _, ⟨_, _, hfault⟩ | hfault⟩ := arrayOf_error (congrArg Prod.fst harray) <;>
        cases hfault
  | construct type arguments named span' =>
    refine .inr ⟨⟨none, rfl⟩, Expr.evaluateAll_arguments_error_iff.mpr ?_⟩
    rw [Expr.evaluate, outcome_bind_error_iff] at h
    obtain harguments | ⟨values, between, harguments, hrest⟩ := h
    · exact .inl harguments
    rw [outcome_bind_error_iff] at hrest
    obtain hnamed | ⟨_, _, _, hbuild⟩ := hrest
    · exact .inr ⟨values, between, harguments, hnamed⟩
    · obtain ⟨_, hfault⟩ := Evaluation.ofBuild_throws _ _ _ _ (congrArg Prod.fst hbuild)
      cases hfault

/-- An expression that is evaluated from a trail comes to an expression in it, on the trail that is
reached there: what is evaluated before succeeds. -/
inductive Expr.ComesTo (engine : Construct.Engine) (store : Store) :
    Expr → Trail → Expr → Trail → Prop
  | here {e : Expr} {t : Trail} : Expr.ComesTo engine store e t e t
  | inside {e t before f after values u g v} : e.ReachesParts engine →
    e.parts = before ++ f :: after →
      outcome (Expr.evaluateAll engine store before) t = (.ok values, u) →
      Expr.ComesTo engine store f u g v → Expr.ComesTo engine store e t g v

/-- An expression fails with the one that it comes to. -/
theorem Expr.ComesTo.fails (h : e.ComesTo engine store t f u)
    (hfails : outcome (f.evaluate engine store) u = (.error located, v)) :
    outcome (e.evaluate engine store) t = (.error located, v) := by
  induction h with
  | here => exact hfails
  | inside htag hparts hbefore _ ih =>
    exact Expr.evaluate_of_parts_error htag
      (Expr.evaluateAll_error_iff.mpr ⟨_, _, _, _, _, hparts, hbefore, ih hfails⟩)

/-- What an expression comes to mentions no other variables. -/
theorem Expr.ComesTo.variables_subset (h : e.ComesTo engine store t f u) :
    f.variables ⊆ e.variables := by
  induction h with
  | here => exact fun _ h => h
  | inside _ hparts _ _ ih =>
    refine List.Subset.trans ih (Expr.variables_subset_of_part ?_)
    rw [hparts]
    exact List.mem_append_right _ (.head _)

/-- An expression that is evaluated from a trail comes to an undefined variable. -/
def Expr.MeetsUndefined (engine : Construct.Engine) (store : Store) (e : Expr) (t : Trail)
    (name : String) (span : Source.Span) : Prop :=
  store.Lacks name ∧ ∃ u, e.ComesTo engine store t (.variable name span) u

/-- An expression fails because of an undefined variable exactly if it comes to one. -/
theorem Expr.undefined_iff :
    (outcome (e.evaluate engine store) t).1 = .error ⟨span, .undefined name⟩ ↔
      e.MeetsUndefined engine store t name span := by
  constructor
  · intro h
    replace h : outcome (e.evaluate engine store) t =
        (.error ⟨span, .undefined name⟩, (outcome (e.evaluate engine store) t).2) := Prod.ext h rfl
    generalize (outcome (e.evaluate engine store) t).2 = u at h
    induction e using Expr.parts_induction generalizing t u with
    | h e ih =>
      obtain ⟨rfl, hlacks⟩ | ⟨htag, hparts⟩ := Expr.parts_error_of_undefined h
      · exact ⟨hlacks, t, .here⟩
      · obtain ⟨before, f, after, values, between, hsplit, hbefore, hfails⟩ :=
          Expr.evaluateAll_error_iff.mp hparts
        have hpart : f ∈ e.parts := hsplit ▸ List.mem_append_right _ (.head _)
        obtain ⟨hlacks, v, hcomes⟩ := ih f hpart u hfails
        exact ⟨hlacks, v, .inside htag hsplit hbefore hcomes⟩
  · rintro ⟨hlacks, u, hcomes⟩
    obtain ⟨v, hundefined⟩ := lookUp_of_lacks hlacks span u
    exact congrArg Prod.fst (hcomes.fails hundefined)

/-- An undefined variable that is met is one of the expression. -/
theorem Expr.MeetsUndefined.mem_variables (h : e.MeetsUndefined engine store t name span) :
    name ∈ e.variables := by
  obtain ⟨_, _, hcomes⟩ := h
  exact hcomes.variables_subset (.head _)

end Evaluation

section Statements

variable {load : TextSource → Load Unit} {depth k : Nat} {program : Program} {s : Statement}
  {l l' before : Loading}

/-- A statement begins the evaluation of its expression on a trail. A default whose key is there
evaluates nothing. -/
inductive Statement.Starts : Statement → Loading → Trail → Prop
  | assignment {s : Statement} {l : Loading} {e : Expr} {t : Trail} :
    s.Evaluates l e t → Starts s l t
  | inclusion {e : Expr} {span : Source.Span} {l : Loading} :
    Starts ⟨.include e, span⟩ l ⟨l.trail.machine.withOwner "", l.trail.events⟩

/-- A statement that is run comes to an undefined variable. -/
def Statement.MeetsUndefined (engine : Construct.Engine) (s : Statement) (l : Loading)
    (name : String) (span : Source.Span) : Prop :=
  ∃ t, s.Starts l t ∧ s.expr.MeetsUndefined engine l.store t name span

/-- An assignment fails exactly as its expression does. -/
theorem assign_error_iff {key : Name} :
    (outcome (assign engine key e) l).1 = .error located ↔
      (outcome (e.evaluate engine l.store)
        ⟨l.trail.machine.withOwner key.text, l.trail.events⟩).1 = .error located := by
  rw [outcome_assign]
  rcases outcome (e.evaluate engine l.store)
    ⟨l.trail.machine.withOwner key.text, l.trail.events⟩ with ⟨located' | _, _⟩
  · simp only [Except.error.injEq]
  · exact ⟨nofun, nofun⟩

/-- An include fails because of an undefined variable exactly if its expression does. What an
included source fails for is another fault of the include. -/
theorem Statement.run_include_undefined_iff {span' : Source.Span} :
    (outcome (Statement.run engine load ⟨.include e, span'⟩) l).1 =
        .error ⟨span, .undefined name⟩ ↔
      (outcome (e.evaluate engine l.store)
        ⟨l.trail.machine.withOwner "", l.trail.events⟩).1 = .error ⟨span, .undefined name⟩ := by
  have hevaluate := LoadStep.outcome_evaluateInPassing (fun store => e.evaluate engine store) l
  rw [Statement.run_include_eq, Expr.named, bind_assoc]
  rcases hvalue : outcome (e.evaluate engine l.store)
    ⟨l.trail.machine.withOwner "", l.trail.events⟩ with ⟨located | value, u⟩
  all_goals
    rw [hvalue] at hevaluate
  · rw [outcome_bind_error hevaluate]
    simp only [Except.error.injEq]
  · rw [outcome_bind_ok hevaluate]
    refine ⟨fun h => ?_, nofun⟩
    cases hsource : sourceOf value with
    | error fault =>
      rw [hsource] at h
      cases h
      obtain ⟨_, hfault⟩ | ⟨_, hfault⟩ := sourceOf_error hsource <;> cases hfault
    | ok source =>
      rw [hsource, pure_bind, outcome_adapt] at h
      generalize (outcome (load source) _).1 = loaded at h
      cases loaded <;> cases h

/-- A statement fails because of an undefined variable exactly if it comes to one. -/
theorem Statement.run_undefined_iff (load : TextSource → Load Unit) :
    (outcome (s.run engine load) l).1 = .error ⟨span, .undefined name⟩ ↔
      s.MeetsUndefined engine l name span := by
  obtain ⟨⟨key, e⟩ | ⟨key, e⟩ | e, span'⟩ := s
  · change (outcome (assign engine key e) l).1 = _ ↔ _
    rw [assign_error_iff, Expr.undefined_iff]
    constructor
    · exact fun h => ⟨_, .assignment .set, h⟩
    · rintro ⟨_, ⟨⟨⟩⟩, h⟩
      exact h
  · cases hcontains : (l.store.contains key.text).result with
    | true =>
      rw [Statement.run_default_present hcontains]
      constructor
      · exact nofun
      · rintro ⟨_, ⟨⟨⟩ | habsent⟩, _⟩
        cases hcontains.symm.trans habsent
    | false =>
      rw [Statement.run_default_absent hcontains, assign_error_iff, Expr.undefined_iff]
      constructor
      · exact fun h => ⟨_, .assignment (.default hcontains), h⟩
      · rintro ⟨_, ⟨⟨_⟩⟩, h⟩
        exact h
  · rw [Statement.run_include_undefined_iff, Expr.undefined_iff]
    constructor
    · exact fun h => ⟨_, .inclusion, h⟩
    · rintro ⟨_, ⟨⟨⟩⟩ | _, h⟩
      exact h

/-- A program fails because of an undefined variable exactly if it reaches a statement that comes to
one. -/
theorem Statement.runAt_undefined_iff :
    (outcome (Statement.runAt engine depth program) l).1 = .error ⟨span, .undefined name⟩ ↔
      ∃ k s before, Reaches engine depth program l k s before ∧
        s.MeetsUndefined engine before name span := by
  constructor
  · intro h
    obtain ⟨k, s, before, hreaches, hfails⟩ := Statement.runAt_error_iff.mp (Prod.ext h rfl)
    exact ⟨k, s, before, hreaches, (Statement.run_undefined_iff _).mp (congrArg Prod.fst hfails)⟩
  · rintro ⟨k, s, before, hreaches, hmeets⟩
    have hfails :=
      (Statement.run_undefined_iff (Load.source engine (maxIncludeDepth - depth))).mpr hmeets
    exact congrArg Prod.fst
      (Statement.runAt_error_iff.mpr ⟨k, s, before, hreaches, Prod.ext hfails rfl⟩)

/-- Behind an assignment there is an entry for its key. -/
theorem assign_contains {key : Name} (h : outcome (assign engine key e) l = (.ok (), l')) :
    (l'.store.contains key.text).result = true := by
  rw [outcome_assign] at h
  rcases hvalue : outcome (e.evaluate engine l.store)
    ⟨l.trail.machine.withOwner key.text, l.trail.events⟩ with ⟨located | value, u⟩
  · rw [hvalue] at h
    cases h
  · rw [hvalue] at h
    cases h
    rw [Store.contains_eq, Store.get?_put, if_pos rfl]
    rfl

/-- A statement that has run leaves its target in the store, whether it was there before or not. -/
theorem Statement.run_contains_target (htarget : s.target? = some name)
    (h : outcome (s.run engine load) l = (.ok (), l')) :
    (l'.store.contains name).result = true := by
  obtain ⟨⟨key, e⟩ | ⟨key, e⟩ | e, span'⟩ := s
  · cases htarget
    exact assign_contains h
  · cases htarget
    cases hcontains : (l.store.contains key.text).result with
    | true =>
      rw [Statement.run_default_present hcontains] at h
      cases h
      exact hcontains
    | false =>
      rw [Statement.run_default_absent hcontains] at h
      exact assign_contains h
  · cases htarget

/-- A program takes no key away, whatever it includes. -/
theorem Statement.runAt_contains (engine : Construct.Engine) (hdepth : depth ≤ maxIncludeDepth)
    (program : Program) (h : (l.store.contains name).result = true) :
    ((outcome (Statement.runAt engine depth program) l).2.store.contains name).result = true := by
  refine Statement.runAt_keeps (P := fun store => (store.contains name).result = true) hdepth ?_ h
  intro _ s l' _ hs hl'
  obtain hsame | ⟨_, _, key, value, _, _, _, _, _, hput⟩ :=
    Statement.run_store hs engine (Load.source engine 0) l'
  · rwa [hsame]
  · rw [hput]
    exact Store.contains_put hl' key value

/-- What is in the store before a program is there wherever the program comes to. -/
theorem Reaches.contains (h : Reaches engine depth program l k s before)
    (hdepth : depth ≤ maxIncludeDepth) (hname : (l.store.contains name).result = true) :
    (before.store.contains name).result = true := by
  have hkept := Statement.runAt_contains engine hdepth (program.take k) hname
  rwa [h.2] at hkept

/-- Where a program comes to, the targets of all statements in front are in the store. -/
theorem Reaches.contains_target {j : Nat} {first : Statement}
    (h : Reaches engine depth program l k s before) (hdepth : depth ≤ maxIncludeDepth)
    (hj : j < k) (hfirst : program[j]? = some first) (htarget : first.target? = some name) :
    (before.store.contains name).result = true := by
  have hsplit : program.take k =
      (program.take k).take j ++ first :: (program.take k).drop (j + 1) := by
    have hthere : (program.take k)[j]? = some first := by
      rw [List.getElem?_take_of_lt hj, hfirst]
    obtain ⟨hless, rfl⟩ := List.getElem?_eq_some_iff.mp hthere
    rw [← List.drop_eq_getElem_cons hless, List.take_append_drop]
  have hrun := h.2
  rw [hsplit, Statement.runAt_append] at hrun
  obtain ⟨_, between, _, hrun⟩ := outcome_bind_eq_ok hrun
  change outcome (first.run engine _ >>= fun _ =>
    Statement.runAt engine depth ((program.take k).drop (j + 1))) between = _ at hrun
  obtain ⟨_, behind, hput, hrest⟩ := outcome_bind_eq_ok hrun
  have hkept := Statement.runAt_contains engine hdepth
    ((program.take k).drop (j + 1)) (Statement.run_contains_target htarget hput)
  rwa [hrest] at hkept

/-- Every variable of a program is the store itself, or known beforehand, or the target of an
earlier statement. -/
def Program.DefinesBeforeUse (program : Program) (known : String → Prop) : Prop :=
  ∀ (k : Nat) (s : Statement), program[k]? = some s → ∀ name ∈ s.expr.variables,
    name = selfKey ∨ known name ∨
      ∃ (j : Nat) (first : Statement), j < k ∧ program[j]? = some first ∧
        first.target? = some name

/-- A program that defines variables before it uses them finds all of them. -/
theorem Program.DefinesBeforeUse.not_undefined (hdepth : depth ≤ maxIncludeDepth)
    (h : program.DefinesBeforeUse fun name => (l.store.contains name).result = true)
    (span : Source.Span) (name : String) :
    (outcome (Statement.runAt engine depth program) l).1 ≠ .error ⟨span, .undefined name⟩ := by
  intro hundefined
  obtain ⟨k, s, before, hreaches, t, _, hmeets⟩ := Statement.runAt_undefined_iff.mp hundefined
  have habsent := hmeets.1.absent
  have hcontains : (before.store.contains name).result = true := by
    obtain hself | hknown | ⟨j, first, hj, hfirst, htarget⟩ :=
      h k s hreaches.1 name hmeets.mem_variables
    · exact (hmeets.1.ne_self hself).elim
    · exact hreaches.contains hdepth hknown
    · exact hreaches.contains_target hdepth hj hfirst htarget
  cases hcontains.symm.trans habsent

end Statements

end Syntax

/-- The failure behind a load error is the error itself, or is behind the failure of an include. -/
inductive LoadError.Behind (inner : LoadError) : LoadError → Prop
  | same : LoadError.Behind inner inner
  | included {origin position span source error} : LoadError.Behind inner error →
    LoadError.Behind inner (.inText origin position span (.inclusion source error))

/-- The message of the failure behind a load error is reported with it. -/
theorem LoadError.Behind.message_mem {inner error : LoadError} (h : inner.Behind error) :
    inner.message ∈ error.message :: error.causes := by
  induction h with
  | same => exact .head _
  | included _ ih =>
    rw [LoadError.causes, TextFault.causes]
    exact .tail _ (.tail _ ih)

/-- What is reported of a variable that is not defined in a text. -/
def undefinedMessage (origin text : String) (span : Source.Span) (name : String) : String :=
  "Error in " ++ origin ++ ": " ++ Syntax.locatedMessage (Syntax.positionOf text span)
    ("variable '" ++ name ++ "' is not defined")

namespace Syntax

variable {engine : Construct.Engine} {depth depth' : Nat} {program : Program} {s : Statement}
  {l l' : Loading} {name text : String} {span : Source.Span}

/-- A load error comes from an undefined variable at a span of a text in which a statement
stands. -/
def Statement.RaisesUndefined (s : Statement) (name : String) (span : Source.Span)
    (error : LoadError) : Prop :=
  ∃ origin text p, parse text = .ok p ∧ s ∈ p ∧
    (Located.inText origin text ⟨span, .undefined name⟩).Behind error

/-- A program fails because of an undefined variable wherever it comes to one, itself or in a source
that it includes. -/
theorem Executes.undefined (h : Executes engine depth program l depth' s l')
    (hmeets : s.MeetsUndefined engine l' name span) (origin : String) {p : Program}
    (hparse : parse text = .ok p) (hprogram : ∀ s ∈ program, s ∈ p) :
    ∃ located k, outcome (Statement.runAt engine depth program) l = (.error located, k) ∧
      s.RaisesUndefined name span (located.inText origin text) := by
  induction h generalizing origin text p with
  | @here depth =>
    have hfails :=
      (Statement.run_undefined_iff (Load.source engine (maxIncludeDepth - depth))).mpr hmeets
    exact ⟨_, _, outcome_bind_error (Prod.ext hfails rfl), origin, text, p, hparse,
      hprogram _ (.head _), .same⟩
  | later hrun _ ih =>
    obtain ⟨located, k, hfails, hundefined⟩ := ih hmeets origin hparse fun s hs =>
      hprogram s (.tail _ hs)
    exact ⟨located, k, (outcome_bind_ok hrun).trans hfails, hundefined⟩
  | @inside depth e span' rest l source l' included _ _ _ hdepth hnames hof _ ih =>
    obtain ⟨fetched, hfetch, hparse'⟩ := hof
    obtain ⟨located, k, hfails, origin', text', p', hparse'', hmem, hcomes⟩ :=
      ih hmeets source.text hparse' fun _ hs => hs
    refine ⟨⟨span', .inclusion source (located.inText source.text fetched)⟩, k, ?_, origin', text',
      p', hparse'', hmem, hcomes.included⟩
    rw [Statement.runAt_include hdepth hnames hfetch hparse', hfails]

end Syntax

namespace Store

open Syntax (Program Statement)

variable {engine : Construct.Engine} {m : Machine} {entry : Entry} {s : Store} {text : String}

/-- A located error is that of the statements. -/
theorem error_of_mapError_inText {result : Except Located Unit} {origin origin' : String}
    {position : Source.Position} {span : Source.Span} {fault : TextFault}
    (h : result.mapError (Located.inText origin text) =
      .error (.inText origin' position span fault)) : result = .error ⟨span, fault⟩ := by
  cases result with
  | ok _ => cases h
  | error located =>
    obtain ⟨_, _, rfl, rfl⟩ := LoadError.inText.inj (Except.error.inj h)
    rfl

/-- A text that parses is loaded with the result of its program, located. -/
theorem load_result {program : Program} (hfetched : entry.fetched m = .ok text)
    (hparse : Syntax.parse text = .ok program) :
    (s.load engine m entry).result =
      (outcome (Statement.runAt engine 0 program) ⟨s, m, []⟩).1.mapError
        (Located.inText entry.title text) :=
  (load_parsed hfetched hparse rfl).1

/-- The load of a text fails in the text exactly as its program does. -/
theorem load_inText_iff {program : Program} {located : Located}
    (hfetched : entry.fetched m = .ok text) (hparse : Syntax.parse text = .ok program) :
    (s.load engine m entry).result = .error (located.inText entry.title text) ↔
      (outcome (Statement.runAt engine 0 program) ⟨s, m, []⟩).1 = .error located := by
  rw [load_result hfetched hparse]
  constructor
  · exact error_of_mapError_inText
  · intro h
    rw [h]
    rfl

/-- Definition before use suffices. A text whose variables are in the store before the load, or are
targets of earlier statements of the text, or stand for the store itself, does not fail because of
an undefined variable, whatever it includes and constructs, as an entry as well as in an include. A
text fails for this reason exactly where a statement that it reaches comes to an occurrence of a
variable that the store does not have, with what is evaluated before in the expression succeeding.
The load fails there also if the statement stands in an included source. -/
theorem load_defined_before_use (engine : Construct.Engine) :
    (∀ m entry (s : Store) text, entry.fetched m = .ok text →
      ((∀ program, Syntax.parse text = .ok program →
          program.DefinesBeforeUse fun name => (s.contains name).result = true) →
        ∀ origin position span name,
          (s.load engine m entry).result ≠
            .error (.inText origin position span (.undefined name))) ∧
      ∀ program name span, Syntax.parse text = .ok program →
        ((s.load engine m entry).result =
            .error (Located.inText entry.title text ⟨span, .undefined name⟩) ↔
          ∃ k statement before, Syntax.Reaches engine 0 program ⟨s, m, []⟩ k statement before ∧
            statement.MeetsUndefined engine before name span) ∧
        ∀ depth statement l, Syntax.Executes engine 0 program ⟨s, m, []⟩ depth statement l →
          statement.MeetsUndefined engine l name span →
          ∃ error origin text p, (s.load engine m entry).result = .error error ∧
            Syntax.parse text = .ok p ∧ statement ∈ p ∧
            (Located.inText origin text ⟨span, .undefined name⟩).Behind error ∧
            undefinedMessage origin text span name ∈ error.message :: error.causes) ∧
    ∀ depth ≤ maxIncludeDepth, ∀ (program : Program) (l : Loading),
      (program.DefinesBeforeUse fun name => (l.store.contains name).result = true) →
        ∀ span name, (outcome (Statement.runAt engine depth program) l).1 ≠
          .error ⟨span, .undefined name⟩ := by
  refine ⟨fun m entry s text hfetched => ⟨?defined, ?undefined⟩, fun depth hdepth program l h =>
    h.not_undefined hdepth⟩
  case defined =>
    intro hdefines origin position span name hresult
    cases hparse : Syntax.parse text with
    | error e =>
      rw [load_unparsed hfetched hparse] at hresult
      cases hresult
    | ok program =>
      rw [load_result hfetched hparse] at hresult
      have hdefined : Program.DefinesBeforeUse program fun name =>
          ((⟨s, m, []⟩ : Loading).store.contains name).result = true := hdefines program hparse
      exact hdefined.not_undefined (Nat.zero_le _) span name (error_of_mapError_inText hresult)
  case undefined =>
    intro program name span hparse
    refine ⟨(load_inText_iff hfetched hparse).trans Statement.runAt_undefined_iff, ?_⟩
    intro depth statement l hexecutes hmeets
    obtain ⟨located, k, hfails, origin, text', p, hparse', hmem, hbehind⟩ :=
      hexecutes.undefined hmeets entry.title hparse fun _ hs => hs
    refine ⟨located.inText entry.title text, origin, text', p, ?_, hparse', hmem, hbehind,
      hbehind.message_mem⟩
    exact (load_inText_iff hfetched hparse).mpr (congrArg Prod.fst hfails)

/-- A text that uses a key of the store and the target of a default, and a construction whose
second argument is not defined, loaded by itself and in an include. -/
theorem load_defined_before_use_sample :
    let undefined := "d = File(c, e);"
    let m := Machine.start ⟨.directory [("f", .file undefined.toUTF8)], []⟩ []
    let s := (empty.put "c" (.int 1)).result.2
    let load (text : String) := (s.load .standard m (.text text)).result
    (∀ origin position span name, load "a ~ 'x'; b = a ^ c;" ≠
      .error (.inText origin position span (.undefined name))) ∧
    load undefined = .error (Located.inText "string" undefined ⟨⟨12, 13⟩, .undefined "e"⟩) ∧
    ∃ error origin text, load "include 'f';" = .error error ∧
      undefinedMessage origin text ⟨12, 13⟩ "e" ∈ error.message :: error.causes := by
  intro undefined m s load
  have hdefined : Syntax.parse "a ~ 'x'; b = a ^ c;" =
      .ok [⟨.default ⟨"a", ⟨0, 1⟩⟩ (.literal (.string "x") ⟨4, 7⟩), ⟨0, 8⟩⟩,
        ⟨.set ⟨"b", ⟨9, 10⟩⟩ (.concat (.variable "a" ⟨13, 14⟩) (.variable "c" ⟨17, 18⟩) ⟨13, 18⟩),
          ⟨9, 19⟩⟩] := by
    have hlex : lex "a ~ 'x'; b = a ^ c;" = [⟨.key "a", ⟨0, 1⟩⟩, ⟨.tilde, ⟨2, 3⟩⟩,
        ⟨.string "x", ⟨4, 7⟩⟩, ⟨.semicolon, ⟨7, 8⟩⟩, ⟨.key "b", ⟨9, 10⟩⟩, ⟨.equals, ⟨11, 12⟩⟩,
        ⟨.key "a", ⟨13, 14⟩⟩, ⟨.caret, ⟨15, 16⟩⟩, ⟨.key "c", ⟨17, 18⟩⟩, ⟨.semicolon, ⟨18, 19⟩⟩,
        ⟨.endOfInput, ⟨19, 19⟩⟩] := by
      decide +kernel
    rw [Syntax.parse, hlex]
    rfl
  let statement : Statement := ⟨.set ⟨"d", ⟨0, 1⟩⟩
    (.construct ⟨"File", ⟨4, 8⟩⟩ [.variable "c" ⟨9, 10⟩, .variable "e" ⟨12, 13⟩] [] ⟨4, 14⟩),
    ⟨0, 15⟩⟩
  have hundefined : Syntax.parse undefined = .ok [statement] := by
    have hlex : lex "d = File(c, e);" = [⟨.key "d", ⟨0, 1⟩⟩, ⟨.equals, ⟨2, 3⟩⟩,
        ⟨.key "File", ⟨4, 8⟩⟩, ⟨.openParen, ⟨8, 9⟩⟩, ⟨.key "c", ⟨9, 10⟩⟩, ⟨.comma, ⟨10, 11⟩⟩,
        ⟨.key "e", ⟨12, 13⟩⟩, ⟨.closeParen, ⟨13, 14⟩⟩, ⟨.semicolon, ⟨14, 15⟩⟩,
        ⟨.endOfInput, ⟨15, 15⟩⟩] := by
      decide +kernel
    rw [Syntax.parse, hlex]
    rfl
  have hinclude : Syntax.parse "include 'f';" =
      .ok [⟨.include (.literal (.string "f") ⟨8, 11⟩), ⟨0, 12⟩⟩] := by
    have hlex : lex "include 'f';" = [⟨.include, ⟨0, 7⟩⟩, ⟨.string "f", ⟨8, 11⟩⟩,
        ⟨.semicolon, ⟨11, 12⟩⟩, ⟨.endOfInput, ⟨12, 12⟩⟩] := by
      decide +kernel
    rw [Syntax.parse, hlex]
    rfl
  have hmeets (l : Loading) (hstore : l.store = s) :
      statement.MeetsUndefined .standard l "e" ⟨12, 13⟩ := by
    obtain ⟨u, hargument⟩ : ∃ u,
        outcome (Syntax.Expr.evaluateAll .standard l.store [.variable "c" ⟨9, 10⟩])
          ⟨l.trail.machine.withOwner "d", l.trail.events⟩ = (.ok [.int 1], u) := by
      rw [hstore]
      exact ⟨_, rfl⟩
    have hparts : statement.expr.parts =
        [.variable "c" ⟨9, 10⟩] ++ .variable "e" ⟨12, 13⟩ :: [] := rfl
    refine ⟨_, .assignment .set, ⟨by decide, ?_⟩, u, .inside ⟨none, rfl⟩ hparts hargument .here⟩
    rw [hstore]
    rfl
  have hnames : (Syntax.Expr.literal (.string "f") ⟨8, 11⟩).Names .standard ⟨s, m, []⟩ (.file "f")
      ⟨s, m, []⟩ := rfl
  have hfetch : Load.fetch m (.file "f") = .ok undefined := by
    apply Load.fetch_file
    decide +kernel
  obtain ⟨hload, -⟩ := load_defined_before_use .standard
  refine ⟨(hload m (.text _) s _ rfl).1 ?_, ?_, ?_⟩
  · intro program hparse k statement hstatement name hname
    obtain rfl := Except.ok.inj (hdefined.symm.trans hparse)
    match k with
    | 0 =>
      cases hstatement
      cases hname
    | 1 =>
      cases hstatement
      rcases List.mem_pair.mp hname with rfl | rfl
      · exact .inr (.inr ⟨0, _, Nat.zero_lt_one, rfl, rfl⟩)
      · exact .inr (.inl rfl)
    | k + 2 => cases hstatement
  · obtain ⟨hiff, -⟩ := (hload m (.text undefined) s undefined rfl).2 _ "e" ⟨12, 13⟩ hundefined
    exact hiff.mpr ⟨0, statement, ⟨s, m, []⟩, ⟨rfl, rfl⟩, hmeets _ rfl⟩
  · obtain ⟨-, hinside⟩ := (hload m (.text _) s _ rfl).2 _ "e" ⟨12, 13⟩ hinclude
    obtain ⟨error, origin, text, _, hresult, _, _, _, hmessage⟩ := hinside 1 statement _
      (.inside (by decide) hnames ⟨undefined, hfetch, hundefined⟩ .here) (hmeets _ rfl)
    exact ⟨error, origin, text, hresult, hmessage⟩

end Store

end TypedConfig
