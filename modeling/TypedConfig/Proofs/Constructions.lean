import TypedConfig.Proofs.StoreInvariants

/-!
# Constructions of a load

The constructions that reach a store are those in the expressions that are assigned to its keys. A
construction is made where its arguments have been evaluated, whether or not it succeeds. What the
expression of an include constructs is not counted, since no key is bound to it.
-/

namespace TypedConfig

/-- A construction with the values of its arguments. -/
structure Construction where
  type : String
  arguments : List Value
  named : List (String × Value)

namespace Syntax

mutual

/-- An expression that is evaluated from a trail makes a construction. -/
inductive Expr.Makes (engine : Construct.Engine) (store : Store) :
    Expr → Trail → Construction → Prop
  | left {left right span t c} : left.Makes engine store t c →
      Expr.Makes engine store (.concat left right span) t c
  | right {left right span t v t' c} : outcome (left.evaluate engine store) t = (.ok v, t') →
      right.Makes engine store t' c → Expr.Makes engine store (.concat left right span) t c
  | item {tag declared items span t c} : declaredKind engine.registry tag = .ok declared →
      Expr.AnyMakes engine store items t c → Expr.Makes engine store (.array tag items span) t c
  | argument {type arguments named span t c} : Expr.AnyMakes engine store arguments t c →
      Expr.Makes engine store (.construct type arguments named span) t c
  | named {type arguments named span t values t' c} :
      outcome (Expr.evaluateAll engine store arguments) t = (.ok values, t') →
      Expr.AnyMakes engine store (named.map Prod.snd) t' c →
      Expr.Makes engine store (.construct type arguments named span) t c
  | construct {type arguments named span t values t' namedValues t''} :
      outcome (Expr.evaluateAll engine store arguments) t = (.ok values, t') →
      outcome (Expr.evaluateNamed engine store named) t' = (.ok namedValues, t'') →
      Expr.Makes engine store (.construct type arguments named span) t
        ⟨type.text, values, namedValues⟩

/-- One of several expressions that are evaluated from left to right makes a construction. -/
inductive Expr.AnyMakes (engine : Construct.Engine) (store : Store) :
    List Expr → Trail → Construction → Prop
  | here {e es t c} : e.Makes engine store t c → Expr.AnyMakes engine store (e :: es) t c
  | later {e es t v t' c} : outcome (e.evaluate engine store) t = (.ok v, t') →
      Expr.AnyMakes engine store es t' c → Expr.AnyMakes engine store (e :: es) t c

end

/-- A statement evaluates an expression from a trail in order to assign its value. -/
inductive Statement.Evaluates : Statement → Loading → Expr → Trail → Prop
  | set {key e span l} :
    Evaluates ⟨.set key e, span⟩ l e ⟨l.trail.machine.withOwner key.text, l.trail.events⟩
  | default {key e span l} : (l.store.contains key.text).result = false →
    Evaluates ⟨.default key e, span⟩ l e
      ⟨l.trail.machine.withOwner key.text, l.trail.events ++ (l.store.contains key.text).events⟩

/-- An assignment puts the value of its expression, or fails with the expression. -/
theorem outcome_assign (engine : Construct.Engine) (key : Name) (e : Expr) (l : Loading) :
    outcome (assign engine key e) l =
      match outcome (e.evaluate engine l.store)
        ⟨l.trail.machine.withOwner key.text, l.trail.events⟩ with
      | (.ok v, t) => (.ok (), ⟨(l.store.put key.text v).result.2,
          ⟨t.machine, t.events ++ (l.store.put key.text v).events⟩⟩)
      | (.error located, t) => (.error located, ⟨l.store, t⟩) := by
  have hevaluate := LoadStep.outcome_evaluate (fun store => e.evaluate engine store)
    ⟨l.store, ⟨l.trail.machine.withOwner key.text, l.trail.events⟩⟩
  unfold assign
  rw [outcome_bind_ok (LoadStep.outcome_setOwner key.text l)]
  rcases hvalue : outcome (e.evaluate engine l.store)
    ⟨l.trail.machine.withOwner key.text, l.trail.events⟩ with ⟨located | v, t⟩
  · rw [hvalue] at hevaluate
    rw [outcome_bind_error hevaluate]
  · rw [hvalue] at hevaluate
    rw [outcome_bind_ok hevaluate]
    rfl

/-- A default is assigned to a key that is not there yet. -/
theorem Statement.run_default (engine : Construct.Engine) (load : TextSource → Load Unit)
    (key : Name) (e : Expr) (span : Source.Span) (l : Loading) :
    outcome (Statement.run engine load ⟨.default key e, span⟩) l =
      let found := l.store.contains key.text
      outcome (if found.result then pure () else assign engine key e)
        ⟨l.store, ⟨l.trail.machine, l.trail.events ++ found.events⟩⟩ :=
  outcome_bind_ok (LoadStep.outcome_ask (Store.contains key.text) l)

/-- A default whose key is there does nothing. -/
theorem Statement.run_default_present {key : Name} {l : Loading}
    (h : (l.store.contains key.text).result = true) (engine : Construct.Engine)
    (load : TextSource → Load Unit) (e : Expr) (span : Source.Span) :
    outcome (Statement.run engine load ⟨.default key e, span⟩) l =
      (.ok (), ⟨l.store,
        ⟨l.trail.machine, l.trail.events ++ (l.store.contains key.text).events⟩⟩) := by
  rw [Statement.run_default]
  simp only [h, if_true]
  rfl

/-- A default whose key is not there assigns. -/
theorem Statement.run_default_absent {key : Name} {l : Loading}
    (h : (l.store.contains key.text).result = false) (engine : Construct.Engine)
    (load : TextSource → Load Unit) (e : Expr) (span : Source.Span) :
    outcome (Statement.run engine load ⟨.default key e, span⟩) l =
      outcome (assign engine key e) ⟨l.store,
        ⟨l.trail.machine, l.trail.events ++ (l.store.contains key.text).events⟩⟩ := by
  rw [Statement.run_default]
  simp only [h, Bool.false_eq_true, if_false]

/-- The key to which a statement assigns a value, always or as a default. -/
def Statement.target? (s : Statement) : Option String :=
  match s.action with
  | .set key _ => some key.text
  | .default key _ => some key.text
  | .include _ => none

/-- An assignment leaves the store as it is, or succeeds and puts the value of the expression that
it evaluates under its key. -/
theorem Statement.run_store {s : Statement} (hs : s.isAssignment = true)
    (engine : Construct.Engine) (load : TextSource → Load Unit) (l : Loading) :
    (outcome (s.run engine load) l).2.store = l.store ∨
      ∃ e t key v t', s.Evaluates l e t ∧ s.target? = some key ∧
        outcome (e.evaluate engine l.store) t = (.ok v, t') ∧
        (outcome (s.run engine load) l).1 = .ok () ∧
        (outcome (s.run engine load) l).2.store = (l.store.put key v).result.2 := by
  have hassign (key : Name) (e : Expr) (events : List Event)
      (hevaluates : s.Evaluates l e ⟨l.trail.machine.withOwner key.text, events⟩)
      (htarget : s.target? = some key.text)
      (hrun : outcome (s.run engine load) l =
        outcome (assign engine key e) ⟨l.store, ⟨l.trail.machine, events⟩⟩) :
      (outcome (s.run engine load) l).2.store = l.store ∨
        ∃ e t key v t', s.Evaluates l e t ∧ s.target? = some key ∧
          outcome (e.evaluate engine l.store) t = (.ok v, t') ∧
          (outcome (s.run engine load) l).1 = .ok () ∧
          (outcome (s.run engine load) l).2.store = (l.store.put key v).result.2 := by
    rw [hrun, outcome_assign]
    rcases hvalue : outcome (e.evaluate engine l.store)
      ⟨l.trail.machine.withOwner key.text, events⟩ with ⟨located | v, t'⟩
    · exact .inl rfl
    · exact .inr ⟨e, _, key.text, v, t', hevaluates, htarget, hvalue, rfl, rfl⟩
  obtain ⟨⟨key, e⟩ | ⟨key, e⟩ | e, span⟩ := s
  · exact hassign key e l.trail.events .set rfl rfl
  · cases hcontains : (l.store.contains key.text).result with
    | true =>
      rw [Statement.run_default_present hcontains]
      exact .inl rfl
    | false =>
      exact hassign key e _ (.default hcontains) rfl
        (Statement.run_default_absent hcontains engine load e span)
  · cases hs

end Syntax

namespace Store

variable {engine : Construct.Engine} {P : Value → Prop}

/-- The load of an entry evaluates an expression from a loading in order to assign its value, in the
entry itself or in an included source. The trail is the one on which the evaluation begins. -/
def Evaluates (engine : Construct.Engine) (m : Machine) (entry : Entry) (s : Store) (l : Loading)
    (e : Syntax.Expr) (t : Trail) : Prop :=
  ∃ opened depth statement, entry.opened m = .ok opened ∧
    Syntax.Executes engine 0 opened.pending ⟨s, m, []⟩ depth statement l ∧ statement.Evaluates l e t

/-- A text that is one assignment evaluates the expression of it. -/
theorem Evaluates.of_assignment {m : Machine} {s : Store} {l : Loading} {e e' : Syntax.Expr}
    {t : Trail} {source : String} {key : Syntax.Name} {span : Source.Span}
    (hparse : Syntax.parse source = .ok [⟨.set key e, span⟩])
    (h : s.Evaluates engine m (.text source) l e' t) :
    l = ⟨s, m, []⟩ ∧ e' = e ∧ t = ⟨m.withOwner key.text, []⟩ := by
  obtain ⟨opened, depth, statement, hopened, hexecutes, hevaluates⟩ := h
  have hpending : opened.pending = [⟨.set key e, span⟩] := by
    change OpenText.parsed "string" source = .ok opened at hopened
    rw [OpenText.parsed, hparse] at hopened
    cases hopened
    rfl
  rw [hpending] at hexecutes
  cases hexecutes with
  | here =>
    cases hevaluates
    exact ⟨rfl, rfl, rfl⟩
  | later _ hlater => cases hlater

/-- The load of an entry makes a construction. -/
def Makes (engine : Construct.Engine) (m : Machine) (entry : Entry) (s : Store) (c : Construction) :
    Prop :=
  ∃ l e t, s.Evaluates engine m entry l e t ∧ e.Makes engine l.store t c

/-- A load keeps what holds of each value, if it holds of the values that are assigned. -/
theorem load_each (m : Machine) (entry : Entry) (s : Store)
    (hassigned : ∀ l e t v t', s.Evaluates engine m entry l e t → l.store.Each P →
      outcome (e.evaluate engine l.store) t = (.ok v, t') → P v)
    (hfile : ∀ id path, P (.object id (.file path))) (hs : s.Each P) :
    (s.load engine m entry).store.Each P := by
  refine load_keeps m entry s ?_ (fun file _ id _ _ h => (h.put_iff _).mpr (hfile id file)) hs
  intro opened hopened depth statement l hexecutes hstatement hl
  obtain hsame | ⟨e, t, key, v, t', hevaluates, _, hvalue, _, hput⟩ :=
    Syntax.Statement.run_store hstatement engine (Load.source engine 0) l
  · rw [hsame]
    exact hl
  · rw [hput, hl.put_iff]
    exact hassigned l e t v t' ⟨opened, depth, statement, hopened, hexecutes, hevaluates⟩ hl hvalue

/-- A load changes its store only by puts, so it keeps what each put keeps. -/
theorem load_keeps_of_put {P : Store → Prop}
    (hput : ∀ key v t, P t → P (t.put key v).result.2) (m : Machine) (entry : Entry) {s : Store}
    (hs : P s) : P (s.load engine m entry).store := by
  refine load_keeps m entry s ?_ (fun _ _ _ _ _ ht => hput _ _ _ ht) hs
  intro _ _ _ statement l _ hstatement hl
  obtain hsame | ⟨_, _, key, v, _, _, _, _, _, hstore⟩ :=
    Syntax.Statement.run_store hstatement engine (Load.source engine 0) l
  · rw [hsame]
    exact hl
  · rw [hstore]
    exact hput key v _ hl

/-- Loads several entries one after the other, each of them on a machine of its own. What a load
that fails has put into the store stays. -/
def loadAll (engine : Construct.Engine) : List (Machine × Entry) → Store → Store
  | [], s => s
  | (m, entry) :: rest, s => loadAll engine rest (s.load engine m entry).store

/-- One of several loads makes a construction. -/
def AnyMakes (engine : Construct.Engine) : List (Machine × Entry) → Store → Construction → Prop
  | [], _, _ => False
  | (m, entry) :: rest, s, c =>
    s.Makes engine m entry c ∨ AnyMakes engine rest (s.load engine m entry).store c

end Store

end TypedConfig
