import TypedConfig.Construct.Engine
import TypedConfig.Proofs.Outcome

/-!
# What constructions yield

A construction goes through the steps of one type: a factory, the named arguments, and the last
steps. What these steps say of the value they make, by way of an invariant of the state between
them, therefore holds of the construction as a whole. The validator has no part in this, since it
only refuses values.
-/

namespace TypedConfig

variable {ε σ α β : Type}

/-- Every result of a step satisfies a predicate. -/
def Yields (P : α → Prop) (x : ExceptT ε (StateM σ) α) : Prop :=
  ∀ s a s', outcome x s = (.ok a, s') → P a

namespace Yields

/-- A computation that gives a value yields it. -/
theorem pure {P : α → Prop} {a : α} (h : P a) :
    Yields P (Pure.pure a : ExceptT ε (StateM σ) α) := by
  intro s a' s' ha
  cases ha
  exact h

/-- A computation that fails yields nothing. -/
theorem throw {P : α → Prop} (e : ε) :
    Yields P (MonadExcept.throw e : ExceptT ε (StateM σ) α) := by
  intro s a s' h
  cases h

/-- The result of a sequence is that of its second part. -/
theorem bind {P : β → Prop} {x : ExceptT ε (StateM σ) α} {f : α → ExceptT ε (StateM σ) β}
    (Q : α → Prop) (first : Yields Q x) (rest : ∀ a, Q a → Yields P (f a)) :
    Yields P (x >>= f) := by
  intro s b s' h
  rw [outcome_bind] at h
  rcases hx : outcome x s with ⟨e | a, s''⟩
  · rw [hx] at h
    cases h
  · rw [hx] at h
    exact rest a (first s a s'' hx) s'' b s' h

/-- What comes before says nothing about the result. -/
theorem after {P : β → Prop} {x : ExceptT ε (StateM σ) α} {f : α → ExceptT ε (StateM σ) β}
    (rest : ∀ a, Yields P (f a)) : Yields P (x >>= f) :=
  bind (fun _ => True) (fun _ _ _ _ => trivial) fun a _ => rest a

end Yields

namespace Evaluation

/-- A question to a store yields its answer. -/
theorem ofLogged_yields {P : α → Prop} {x : Logged α} (h : P x.result) : Yields P (ofLogged x) := by
  intro t a t' ha
  cases ha
  exact h

/-- A construction that is evaluated results in what it yields. -/
theorem ofBuild_yields {P : α → Prop} {b : Construct.Build α} (h : Yields P b)
    (span : Source.Span) : Yields P (ofBuild span b) := by
  intro t a t' ha
  rw [outcome_ofBuild] at ha
  rcases hbuild : outcome b t.machine with ⟨error | a', m⟩
  · rw [hbuild] at ha
    cases ha
  · rw [hbuild] at ha
    cases ha
    exact h _ _ _ hbuild

end Evaluation

namespace Construct

namespace Arguments

variable {γ δ : Type}

/-- A reader that succeeds has succeeded in both of its parts. -/
theorem bind_ok {x : Arguments γ} {f : γ → Arguments δ} {values rest : List Value} {b : δ}
    (h : (x >>= f).run values = .ok (b, rest)) :
    ∃ a between, x.run values = .ok (a, between) ∧ (f a).run between = .ok (b, rest) := by
  change (x.run values >>= fun p => (f p.1).run p.2) = _ at h
  rcases hx : x.run values with fault | ⟨a, between⟩
  · rw [hx] at h
    cases h
  · rw [hx] at h
    exact ⟨a, between, rfl, h⟩

/-- The next argument is the first one that is left. -/
theorem next_ok {use : Value → Option γ} {values rest : List Value} {a : γ}
    (h : (next use).run values = .ok (a, rest)) : ∃ v, values = v :: rest ∧ use v = some a := by
  cases values with
  | nil => cases h
  | cons v vs =>
    dsimp only [next, StateT.run] at h
    cases huse : use v with
    | none =>
      rw [huse] at h
      cases h
    | some x =>
      rw [huse] at h
      cases h
      exact ⟨v, rfl, huse⟩

/-- An array that is read is the first of the values. -/
theorem array_ok {values rest : List Value} {array : Kind × List Value}
    (h : Arguments.array.run values = .ok (array, rest)) :
    values = .array array.1 array.2 :: rest := by
  obtain ⟨v, rfl, huse⟩ := next_ok h
  cases v <;> cases huse
  rfl

end Arguments

/-- The steps of a type carry a predicate on arguments over to one on what is made of them:
arguments that satisfy it, and what is asked of them together, lead to states with an invariant, and
from such a state only values with the second predicate are made. -/
structure Blueprint.Carries (b : Blueprint) (P : Value → Prop) (asked : List Value → Prop)
    (Inv : b.State → Prop) (made : Value → Prop) : Prop where
  create {f values state rest} : f ∈ b.factories → (∀ v ∈ values, P v) → asked values →
    f.create.run values = .ok (state, rest) → Inv state
  inject {target v state state'} :
    P v → Inv state → b.inject target v state = .ok state' → Inv state'
  init {state state'} : Inv state → b.init state = .ok state' → Inv state'
  finish {state} : Inv state → Yields made (b.finish state)

/-- Coerced arguments satisfy what coercion keeps. -/
theorem coerceAll_mem {P : Value → Prop}
    (hcoerce : ∀ {kind v w}, P v → Kind.coerce kind v = some w → P w)
    {kinds : List Kind} {arguments values : List Value} (harguments : ∀ v ∈ arguments, P v)
    (h : coerceAll kinds arguments = some values) : ∀ w ∈ values, P w := by
  induction kinds generalizing arguments values with
  | nil =>
    cases h
    exact nofun
  | cons kind kinds ih =>
    cases arguments with
    | nil =>
      cases h
      exact nofun
    | cons v arguments =>
      obtain ⟨w, hw, h⟩ := Option.bind_eq_some_iff.mp h
      obtain ⟨ws, hws, h⟩ := Option.bind_eq_some_iff.mp h
      cases h
      intro w' hw'
      rcases List.mem_cons.mp hw' with rfl | hw'
      · exact hcoerce (harguments v (.head _)) hw
      · exact ih (fun v hv => harguments v (.tail _ hv)) hws w' hw'

/-- A type is under construction once one of its factories has been called with coerced
arguments. -/
theorem create_ok {b : Blueprint} {arguments : List Value} {i : Instance}
    (h : create b arguments = .ok i) :
    ∃ f ∈ b.factories, ∃ values state rest, coerceAll f.parameters arguments = some values ∧
      f.create.run values = .ok (state, rest) ∧ i = ⟨b, state⟩ := by
  unfold create at h
  split at h
  · cases h
  next f hfilter =>
    have hf : f ∈ b.factories := (List.mem_filter.mp (hfilter ▸ List.mem_singleton_self f)).1
    cases hvalues : coerceAll f.parameters arguments with
    | none =>
      simp only [hvalues] at h
      cases h
    | some values =>
      simp only [hvalues] at h
      rcases hcreate : f.create.run values with fault | ⟨state, rest⟩
      · simp only [hcreate] at h
        cases h
      · simp only [hcreate] at h
        cases h
        exact ⟨f, hf, values, state, rest, hvalues, hcreate, rfl⟩
  · cases h

/-- A named argument is handed over as it is or coerced. -/
theorem route_ok {P : Value → Prop}
    (hcoerce : ∀ {kind v w}, P v → Kind.coerce kind v = some w → P w)
    {b : Blueprint} {key : String} {v w : Value} {target : Target} (hv : P v)
    (h : route b key v = .ok (target, w)) : P w := by
  have hbind {kind? : Option Kind} {w : Value} (hw : kind?.bind (·.coerce v) = some w) : P w := by
    obtain ⟨kind, _, hw⟩ := Option.bind_eq_some_iff.mp hw
    exact hcoerce hv hw
  unfold route at h
  split at h
  next hw =>
    cases h
    exact hbind hw
  next =>
    split at h
    next kind _ =>
      split at h
      next hw =>
        cases h
        exact hcoerce hv hw
      next => cases h
    next =>
      split at h
      next hw =>
        cases h
        exact hbind hw
      next => cases h

section Carries

variable {b : Blueprint} {P made : Value → Prop} {asked : List Value → Prop} {Inv : b.State → Prop}

/-- Named arguments keep the invariant of a type under construction. -/
theorem Blueprint.Carries.inject_ok (hcarries : b.Carries P asked Inv made)
    (hcoerce : ∀ {kind v w}, P v → Kind.coerce kind v = some w → P w)
    {named : List (String × Value)} (hnamed : ∀ entry ∈ named, P entry.2) {state : b.State}
    (hstate : Inv state) {i : Instance} (h : (⟨b, state⟩ : Instance).inject named = .ok i) :
    ∃ state', i = ⟨b, state'⟩ ∧ Inv state' := by
  induction named generalizing state with
  | nil =>
    cases h
    exact ⟨state, rfl, hstate⟩
  | cons entry named ih =>
    obtain ⟨key, v⟩ := entry
    unfold Instance.inject Instance.injectOne at h
    cases hroute : route b key v with
    | error fault =>
      simp only [hroute] at h
      cases h
    | ok routed =>
      obtain ⟨target, w⟩ := routed
      simp only [hroute] at h
      cases hinject : b.inject target w state with
      | error fault =>
        simp only [hinject] at h
        cases h
      | ok state' =>
        simp only [hinject] at h
        have hw : P w := route_ok hcoerce (hnamed (key, v) (.head _)) hroute
        exact ih (fun entry hentry => hnamed entry (.tail _ hentry))
          (hcarries.inject hw hstate hinject) h

/-- The last steps of a construction yield what the type makes. -/
theorem Blueprint.Carries.finalize_yields (hcarries : b.Carries P asked Inv made) {state : b.State}
    (hstate : Inv state) (validator : Validator) :
    Yields made ((⟨b, state⟩ : Instance).finalize validator) := by
  unfold Instance.finalize
  cases hinit : b.init state with
  | error fault => exact .throw _
  | ok state' =>
    refine .bind made (hcarries.finish (hcarries.init hstate hinit)) fun v hv => ?_
    cases validator v with
    | none => exact .pure hv
    | some e => exact .throw _

/-- A construction yields what its type makes of the arguments. -/
theorem Engine.build_yields {engine : Engine} {type : String} {arguments : List Value}
    {named : List (String × Value)} (hlookup : engine.registry.lookup type = .ok b)
    (hcarries : b.Carries P asked Inv made)
    (hcoerce : ∀ {kind v w}, P v → Kind.coerce kind v = some w → P w)
    (hasked : ∀ f ∈ b.factories, ∀ values, coerceAll f.parameters arguments = some values →
      asked values)
    (harguments : ∀ v ∈ arguments, P v) (hnamed : ∀ entry ∈ named, P entry.2) :
    Yields made (engine.build type arguments named) := by
  unfold Engine.build Engine.construct
  simp only [hlookup]
  cases hcreate : create b arguments with
  | error e => exact .throw _
  | ok i =>
    obtain ⟨f, hf, values, state, rest, hvalues, hrun, rfl⟩ := create_ok hcreate
    have hstate : Inv state := hcarries.create hf (coerceAll_mem hcoerce harguments hvalues)
      (hasked f hf values hvalues) hrun
    dsimp only
    cases hinject : (⟨b, state⟩ : Instance).inject named with
    | error e => exact .throw _
    | ok i =>
      obtain ⟨state', rfl, hstate'⟩ := hcarries.inject_ok hcoerce hnamed hstate hinject
      exact hcarries.finalize_yields hstate' engine.validator

end Carries

/-- A value that is built has come from a factory of its type, the named arguments, the last steps
and the validator. -/
theorem Engine.build_ok {engine : Engine} {b : Blueprint} {type : String} {arguments : List Value}
    {named : List (String × Value)} {m m' : Machine} {v : Value}
    (hlookup : engine.registry.lookup type = .ok b)
    (hbuild : outcome (engine.build type arguments named) m = (.ok v, m')) :
    ∃ f ∈ b.factories, ∃ values state rest i state', f.create.run values = .ok (state, rest) ∧
      (⟨b, state⟩ : Instance).inject named = .ok i ∧ i.blueprint.init i.state = .ok state' ∧
      outcome (i.blueprint.finish state') m = (.ok v, m') ∧ engine.validator v = none := by
  unfold build construct at hbuild
  rw [hlookup] at hbuild
  dsimp only at hbuild
  cases hcreate : create b arguments with
  | error e =>
    rw [hcreate] at hbuild
    cases hbuild
  | ok created =>
    rw [hcreate] at hbuild
    dsimp only at hbuild
    obtain ⟨f, hf, values, state, rest, -, hrun, rfl⟩ := create_ok hcreate
    cases hinject : (⟨b, state⟩ : Instance).inject named with
    | error e =>
      rw [hinject] at hbuild
      cases hbuild
    | ok i =>
      rw [hinject] at hbuild
      dsimp only [Instance.finalize] at hbuild
      cases hinit : i.blueprint.init i.state with
      | error fault =>
        rw [hinit] at hbuild
        cases hbuild
      | ok state' =>
        rw [hinit] at hbuild
        obtain ⟨w, between, hfinish, hvalid⟩ := outcome_bind_eq_ok hbuild
        cases hw : engine.validator w with
        | some e =>
          rw [hw] at hvalid
          cases hvalid
        | none =>
          rw [hw] at hvalid
          cases hvalid
          exact ⟨f, hf, values, state, rest, i, state', hrun, hinject, hinit, hfinish, hw⟩

/-- A construction of an unknown type yields nothing. -/
theorem Engine.build_unknown {P : Value → Prop} {engine : Engine} {type : String}
    {e : ConstructError}
    (h : engine.registry.lookup type = .error e) (arguments : List Value)
    (named : List (String × Value)) : Yields P (engine.build type arguments named) := by
  unfold Engine.build Engine.construct
  simp only [h]
  exact .throw _

/-- A registry knows only the types that it has been made from, under their ids. -/
theorem Registry.lookup_ofList_typeId {blueprints : List Blueprint} {shortcuts : Shortcuts}
    {name : String} {b : Blueprint}
    (h : (Registry.ofList blueprints shortcuts).lookup name = .ok b) :
    b ∈ blueprints ∧ b.typeId = (Registry.ofList blueprints shortcuts).canonical name := by
  unfold lookup at h
  split at h
  next found hfound =>
    cases h
    rcases Entries.mem_or_get?_of_get?_insertAll hfound with hmem | hnone
    · obtain ⟨b', hb', hentry⟩ := List.mem_map.mp hmem
      obtain ⟨hid, rfl⟩ := Prod.mk.inj hentry
      exact ⟨hb', hid⟩
    · cases hnone
  next => cases h

/-- What is found in a list of types is one of them. -/
theorem Registry.lookup_ofList {blueprints : List Blueprint} {shortcuts : Shortcuts} {name : String}
    {b : Blueprint} (h : (Registry.ofList blueprints shortcuts).lookup name = .ok b) :
    b ∈ blueprints :=
  (lookup_ofList_typeId h).1

/-- A registry finds the last of the types that have an id. -/
theorem Registry.lookup_of_resolve {blueprints : List Blueprint} {shortcuts : Shortcuts}
    {name id : String} {b : Blueprint} (hname : shortcuts.resolve name = id)
    (hb : Entries.get? id (blueprints.map fun b => (b.typeId, b)).reverse = some b) :
    (Registry.ofList blueprints shortcuts).lookup name = .ok b := by
  have hfound : Entries.get? id (Registry.ofList blueprints shortcuts).blueprints = some b := by
    rw [Registry.ofList, Entries.get?_insertAll, hb]
    rfl
  unfold lookup canonical
  rw [show (Registry.ofList blueprints shortcuts).shortcuts.resolve name = id from hname, hfound]

end Construct

end TypedConfig
