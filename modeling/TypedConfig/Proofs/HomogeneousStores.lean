import TypedConfig.Proofs.Constructions
import TypedConfig.Proofs.HomogeneousTypes

/-!
# Homogeneous stores

Loads keep stores homogeneous, as long as the arrays of each union that they make fit together. An
expression evaluates to a homogeneous value, since literals, look-ups, joined arrays and coerced
items are homogeneous, and so is what the built-in types make.

A union whose arrays do not fit together is the one exception, and it is always one: the store to
which its value is assigned is not homogeneous any more.
-/

namespace TypedConfig

/-- Each array that can be reached from a store declares a kind that accepts all of its items. -/
def Store.IsHomogeneous (s : Store) : Prop := s.Each (·.isHomogeneous = true)

/-- A construction of a union is of arrays that fit together. -/
def Construction.Fits (engine : Construct.Engine) (c : Construction) : Prop :=
  engine.registry.lookup c.type = .ok Construct.Builtin.union →
    Construct.Builtin.unionFits c.arguments = true

/-- An engine makes homogeneous values of homogeneous arguments, except for unions of arrays that do
not fit together. -/
def Construct.Engine.KeepsHomogeneous (engine : Construct.Engine) : Prop :=
  ∀ c : Construction, c.Fits engine → (∀ v ∈ c.arguments, v.isHomogeneous = true) →
    (∀ entry ∈ c.named, entry.2.isHomogeneous = true) →
    Yields (·.isHomogeneous = true) (engine.build c.type c.arguments c.named)

/-- The engines of the built-in types do, with any libraries, short names and validator. -/
theorem Construct.Engine.standard_keepsHomogeneous (libraries : Libraries)
    (shortcuts : Construct.Shortcuts) (validator : Construct.Validator) :
    Construct.Engine.KeepsHomogeneous ⟨Construct.Registry.standard libraries shortcuts, validator⟩ :=
  fun _ hfits harguments hnamed =>
    build_isHomogeneous libraries shortcuts validator harguments hnamed hfits

namespace Syntax

/-- A literal holds no array. -/
theorem Literal.value_isHomogeneous (l : Literal) : l.value.isHomogeneous = true := by
  cases l <;> rfl

/-- Homogeneous values joined are homogeneous. -/
theorem joinValues_isHomogeneous {v w joined : Value} (hv : v.isHomogeneous = true)
    (hw : w.isHomogeneous = true) (h : joinValues v w = .ok joined) :
    joined.isHomogeneous = true := by
  unfold joinValues at h
  split at h
  · cases h
    rfl
  · split at h
    next happend =>
      cases h
      exact Value.appendArrays_isHomogeneous hv hw happend
    next => cases h
  · cases h

/-- Items that fit have been coerced to the kind of the array. -/
theorem fitItems_mem {element : Kind} {misfit : Source.Span → Kind → Located}
    {items fitted : List Value} {places : List Source.Span}
    (h : fitItems element misfit items places = .ok fitted) {w : Value} (hw : w ∈ fitted) :
    ∃ v ∈ items, element.coerce v = some w := by
  induction items generalizing places fitted with
  | nil =>
    cases h
    cases hw
  | cons v items ih =>
    cases places with
    | nil =>
      cases h
      cases hw
    | cons place places =>
      rw [fitItems] at h
      split at h
      next w' hcoerce =>
        cases hrest : fitItems element misfit items places with
        | error located =>
          rw [hrest] at h
          cases h
        | ok rest =>
          rw [hrest] at h
          cases h
          rcases List.mem_cons.mp hw with rfl | hw
          · exact ⟨v, .head _, hcoerce⟩
          · obtain ⟨v', hv', hcoerce'⟩ := ih hrest hw
            exact ⟨v', .tail _ hv', hcoerce'⟩
      next => cases h

/-- The items of an array have been coerced to the kind that it declares. -/
theorem arrayOf_eq_ok {declared : Option Kind} {items : List Value} {places : List Source.Span}
    {span : Source.Span} {v : Value} (h : arrayOf declared items places span = .ok v) :
    ∃ element fitted, v = .array element fitted ∧
      ∀ w ∈ fitted, ∃ v ∈ items, element.coerce v = some w := by
  have hfit (element : Kind) (misfit : Source.Span → Kind → Located)
      (harray : (fitItems element misfit items places >>= fun fitted =>
        Except.ok (Value.array element fitted)) = .ok v) :
      ∃ element fitted, v = .array element fitted ∧
        ∀ w ∈ fitted, ∃ v ∈ items, element.coerce v = some w := by
    cases hfitted : fitItems element misfit items places with
    | error located =>
      rw [hfitted] at harray
      cases harray
    | ok fitted =>
      rw [hfitted] at harray
      cases harray
      exact ⟨element, fitted, rfl, fun w hw => fitItems_mem hfitted hw⟩
  cases declared with
  | some element => exact hfit _ _ h
  | none => exact hfit _ _ h

/-- An array of homogeneous items is homogeneous, whatever kind it is declared as. -/
theorem arrayOf_isHomogeneous {declared : Option Kind} {items : List Value}
    {places : List Source.Span} {span : Source.Span} {v : Value}
    (hitems : ∀ v ∈ items, v.isHomogeneous = true)
    (h : arrayOf declared items places span = .ok v) : v.isHomogeneous = true := by
  obtain ⟨element, fitted, rfl, hfitted⟩ := arrayOf_eq_ok h
  rw [Value.isHomogeneous_array]
  intro w hw
  obtain ⟨v, hv, hcoerce⟩ := hfitted w hw
  exact ⟨Kind.coerce_accepts hcoerce, Kind.coerce_isHomogeneous (hitems v hv) hcoerce⟩

/-- What is looked up in a homogeneous store is homogeneous. -/
theorem lookUp_isHomogeneous {store : Store} (hstore : store.IsHomogeneous) (name : String)
    (span : Source.Span) : Yields (·.isHomogeneous = true) (lookUp store name span) := by
  unfold lookUp
  split
  · refine .bind (fun entries => ∀ entry ∈ entries, entry.2.isHomogeneous = true)
      (Evaluation.ofLogged_yields hstore.entries) fun entries hentries => ?_
    have hmap : (Content.map entries).isHomogeneous = true :=
      (Value.entriesAreHomogeneous_iff entries).mpr hentries
    exact Evaluation.ofBuild_yields (Construct.Build.object_isHomogeneous hmap) span
  · refine .bind (fun found => ∀ v, found = some v → v.isHomogeneous = true)
      (Evaluation.ofLogged_yields (hstore name)) fun found hfound => ?_
    cases found with
    | none => exact .throw _
    | some v => exact .pure (hfound v rfl)

section Evaluation

variable {engine : Construct.Engine} {store : Store}

mutual

/-- An expression whose unions fit together is evaluated to a homogeneous value. -/
theorem Expr.evaluate_isHomogeneous (hengine : engine.KeepsHomogeneous)
    (hstore : store.IsHomogeneous) :
    (e : Expr) → {t t' : Trail} → {v : Value} → (∀ c, e.Makes engine store t c → c.Fits engine) →
      outcome (e.evaluate engine store) t = (.ok v, t') → v.isHomogeneous = true
  | .literal value _, _, _, _, _, h => by
    cases h
    exact value.value_isHomogeneous
  | .variable name span, _, _, _, _, h => lookUp_isHomogeneous hstore name span _ _ _ h
  | .concat left right span, t, _, v, hfits, h => by
    unfold Expr.evaluate at h
    obtain ⟨vl, tl, hleft, h⟩ := outcome_bind_eq_ok h
    obtain ⟨vr, tr, hright, h⟩ := outcome_bind_eq_ok h
    have hvl := left.evaluate_isHomogeneous hengine hstore (fun c hc => hfits c (.left hc)) hleft
    have hvr := right.evaluate_isHomogeneous hengine hstore
      (fun c hc => hfits c (.right hleft hc)) hright
    cases hjoined : joinValues vl vr with
    | error fault =>
      rw [hjoined] at h
      cases h
    | ok joined =>
      rw [hjoined] at h
      cases h
      exact joinValues_isHomogeneous hvl hvr hjoined
  | .array tag items span, t, _, v, hfits, h => by
    unfold Expr.evaluate at h
    obtain ⟨declared, t', hdeclared, h⟩ := outcome_bind_eq_ok h
    rw [Evaluation.outcome_liftM] at hdeclared
    obtain ⟨hkind, rfl⟩ := Prod.mk.inj hdeclared
    obtain ⟨values, t'', hvalues, harray⟩ := outcome_bind_eq_ok h
    rw [Evaluation.outcome_liftM] at harray
    have hitems := Expr.evaluateAll_isHomogeneous hengine hstore items
      (fun c hc => hfits c (.item hkind hc)) hvalues
    exact arrayOf_isHomogeneous hitems (Prod.mk.inj harray).1
  | .construct type arguments named span, t, _, v, hfits, h => by
    unfold Expr.evaluate at h
    obtain ⟨values, t', hvalues, h⟩ := outcome_bind_eq_ok h
    obtain ⟨namedValues, t'', hnamed, h⟩ := outcome_bind_eq_ok h
    have harguments := Expr.evaluateAll_isHomogeneous hengine hstore arguments
      (fun c hc => hfits c (.argument hc)) hvalues
    have hentries := Expr.evaluateNamed_isHomogeneous hengine hstore named
      (fun c hc => hfits c (.named hvalues hc)) hnamed
    exact Evaluation.ofBuild_yields
      (hengine ⟨type.text, values, namedValues⟩ (hfits _ (.construct hvalues hnamed)) harguments
        hentries) span _ _ _ h

/-- Expressions evaluate to homogeneous values if the unions that they make fit. -/
theorem Expr.evaluateAll_isHomogeneous (hengine : engine.KeepsHomogeneous)
    (hstore : store.IsHomogeneous) :
    (es : List Expr) → {t t' : Trail} → {vs : List Value} →
      (∀ c, Expr.AnyMakes engine store es t c → c.Fits engine) →
      outcome (Expr.evaluateAll engine store es) t = (.ok vs, t') →
      ∀ v ∈ vs, v.isHomogeneous = true
  | [], _, _, _, _, h => by
    cases h
    exact nofun
  | e :: es, t, _, vs, hfits, h => by
    unfold Expr.evaluateAll at h
    obtain ⟨v, t', hv, h⟩ := outcome_bind_eq_ok h
    obtain ⟨rest, t'', hrest, h⟩ := outcome_bind_eq_ok h
    cases h
    have hfirst := e.evaluate_isHomogeneous hengine hstore (fun c hc => hfits c (.here hc)) hv
    have hlater := Expr.evaluateAll_isHomogeneous hengine hstore es
      (fun c hc => hfits c (.later hv hc)) hrest
    exact List.forall_mem_cons.mpr ⟨hfirst, hlater⟩

/-- Named arguments evaluate to homogeneous values if the unions that they make fit. -/
theorem Expr.evaluateNamed_isHomogeneous (hengine : engine.KeepsHomogeneous)
    (hstore : store.IsHomogeneous) :
    (es : List (Name × Expr)) → {t t' : Trail} → {vs : List (String × Value)} →
      (∀ c, Expr.AnyMakes engine store (es.map Prod.snd) t c → c.Fits engine) →
      outcome (Expr.evaluateNamed engine store es) t = (.ok vs, t') →
      ∀ entry ∈ vs, entry.2.isHomogeneous = true
  | [], _, _, _, _, h => by
    cases h
    exact nofun
  | (name, e) :: es, t, _, vs, hfits, h => by
    unfold Expr.evaluateNamed at h
    obtain ⟨v, t', hv, h⟩ := outcome_bind_eq_ok h
    obtain ⟨rest, t'', hrest, h⟩ := outcome_bind_eq_ok h
    cases h
    have hfirst := e.evaluate_isHomogeneous hengine hstore (fun c hc => hfits c (.here hc)) hv
    have hlater := Expr.evaluateNamed_isHomogeneous hengine hstore es
      (fun c hc => hfits c (.later hv hc)) hrest
    exact List.forall_mem_cons.mpr ⟨hfirst, hlater⟩

end

end Evaluation

/-- The store to which a union is assigned stays homogeneous exactly if its arrays fit together. -/
theorem assign_union_isHomogeneous_iff {engine : Construct.Engine} {l l' : Loading}
    {key type : Name} {arguments : List Expr} {named : List (Name × Expr)} {span : Source.Span}
    {values : List Value} {namedValues : List (String × Value)} {t t' : Trail}
    (hunion : engine.registry.lookup type.text = .ok Construct.Builtin.union)
    (hvalues : outcome (Expr.evaluateAll engine l.store arguments)
      ⟨l.trail.machine.withOwner key.text, l.trail.events⟩ = (.ok values, t))
    (hnamed : outcome (Expr.evaluateNamed engine l.store named) t = (.ok namedValues, t'))
    (hl : l.store.IsHomogeneous) (harguments : ∀ v ∈ values, v.isHomogeneous = true)
    (hentries : ∀ entry ∈ namedValues, entry.2.isHomogeneous = true)
    (h : outcome (assign engine key (.construct type arguments named span)) l = (.ok (), l')) :
    l'.store.IsHomogeneous ↔ Construct.Builtin.unionFits values = true := by
  have hbuild := Construct.Engine.build_union hunion harguments hentries
  have hevaluate : outcome (Expr.evaluate engine l.store (.construct type arguments named span))
      ⟨l.trail.machine.withOwner key.text, l.trail.events⟩ =
        outcome (Evaluation.ofBuild span (engine.build type.text values namedValues)) t' := by
    unfold Expr.evaluate
    rw [outcome_bind_ok hvalues, outcome_bind_ok hnamed]
  rw [outcome_assign, hevaluate] at h
  rcases hv : outcome (Evaluation.ofBuild span (engine.build type.text values namedValues)) t' with
    ⟨located | v, t''⟩
  · rw [hv] at h
    cases h
  · rw [hv] at h
    cases h
    rw [Store.IsHomogeneous, hl.put_iff, Evaluation.ofBuild_yields hbuild span _ _ _ hv]

end Syntax

namespace Store

variable {engine : Construct.Engine} {s : Store}

/-- A load keeps a store homogeneous, if the arrays of each union that it makes fit together. -/
theorem load_isHomogeneous (hengine : engine.KeepsHomogeneous) {m : Machine} {entry : Entry}
    (hs : s.IsHomogeneous) (hfits : ∀ c, s.Makes engine m entry c → c.Fits engine) :
    (s.load engine m entry).store.IsHomogeneous := by
  refine load_each m entry s ?_ (fun _ _ => rfl) hs
  intro l e t v t' hevaluates hl hv
  exact e.evaluate_isHomogeneous hengine hl (fun c hc => hfits c ⟨l, e, t, hevaluates, hc⟩) hv

/-- Loads one after the other keep a store homogeneous, if their unions fit together. -/
theorem loadAll_isHomogeneous_of_fits (hengine : engine.KeepsHomogeneous)
    {loads : List (Machine × Entry)} (hs : s.IsHomogeneous)
    (hfits : ∀ c, s.AnyMakes engine loads c → c.Fits engine) :
    (s.loadAll engine loads).IsHomogeneous := by
  induction loads generalizing s with
  | nil => exact hs
  | cons load rest ih =>
    have hload := load_isHomogeneous hengine hs fun c hc => hfits c (.inl hc)
    exact ih hload fun c hc => hfits c (.inr hc)

/-- Loads with the standard types keep a new store homogeneous, if the kind of the first array of
each union that they make accepts the items of the others. Where it does not, the store to which the
union is assigned is not homogeneous any more. -/
theorem loadAll_isHomogeneous (libraries : Libraries) (shortcuts : Construct.Shortcuts)
    (validator : Construct.Validator) :
    let engine : Construct.Engine := ⟨Construct.Registry.standard libraries shortcuts, validator⟩
    empty.IsHomogeneous ∧ (∀ outer : Store, outer.IsHomogeneous → outer.scopeOver.IsHomogeneous) ∧
    (∀ (loads : List (Machine × Entry)) (s : Store), s.IsHomogeneous →
      (∀ c, s.AnyMakes engine loads c → c.Fits engine) → (s.loadAll engine loads).IsHomogeneous) ∧
    (∀ (key type : Syntax.Name) (arguments : List Syntax.Expr)
      (named : List (Syntax.Name × Syntax.Expr)) (span : Source.Span) (l l' : Loading)
      (values : List Value) (namedValues : List (String × Value)) (t t' : Trail),
      engine.registry.lookup type.text = .ok Construct.Builtin.union →
      outcome (Syntax.Expr.evaluateAll engine l.store arguments)
        ⟨l.trail.machine.withOwner key.text, l.trail.events⟩ = (.ok values, t) →
      outcome (Syntax.Expr.evaluateNamed engine l.store named) t = (.ok namedValues, t') →
      l.store.IsHomogeneous → (∀ v ∈ values, v.isHomogeneous = true) →
      (∀ entry ∈ namedValues, entry.2.isHomogeneous = true) →
      outcome (Syntax.assign engine key (.construct type arguments named span)) l = (.ok (), l') →
      (l'.store.IsHomogeneous ↔ Construct.Builtin.unionFits values = true)) := by
  intro engine
  have hengine := Construct.Engine.standard_keepsHomogeneous libraries shortcuts validator
  refine ⟨empty_each rfl, fun outer houter => houter.scopeOver rfl, ?_, ?_⟩
  · intro loads s hs hfits
    exact loadAll_isHomogeneous_of_fits hengine hs hfits
  · intro key type arguments named span l l' values namedValues t t' hunion hvalues hnamed hl
      harguments hentries h
    exact Syntax.assign_union_isHomogeneous_iff hunion hvalues hnamed hl harguments hentries h

/-- A union of arrays of integers keeps its store homogeneous. A union of an array of integers and
one of texts does not. -/
theorem load_union_isHomogeneous :
    let engine : Construct.Engine := ⟨.standard .own .builtin, .constraints⟩
    let m := Machine.start ⟨.directory [], []⟩ []
    let holding (items : List Value) := (empty.put "a" (.array (.array .any) items)).result.2
    let union : Syntax.Expr := .construct ⟨"Union", ⟨4, 9⟩⟩ [.variable "a" ⟨10, 11⟩] [] ⟨4, 12⟩
    let ended := outcome (Syntax.assign engine ⟨"u", ⟨0, 1⟩⟩ union)
      ⟨holding [.array .int [.int 1], .array .string [.string "s"]], ⟨m, []⟩⟩
    (loadAll engine [(m, .text "u = Union(a);")]
      (holding [.array .int [.int 1], .array .int [.int 2]])).IsHomogeneous ∧
    ended.1.toOption = some () ∧ ¬ ended.2.store.IsHomogeneous := by
  intro engine m holding union ended
  obtain ⟨hempty, _, hloads, hunion⟩ := loadAll_isHomogeneous .own .builtin .constraints
  have hholding (items : List Value) (h : (Value.array (.array .any) items).isHomogeneous = true) :
      (holding items).IsHomogeneous := (hempty.put_iff "a").mpr h
  have hparse : Syntax.parse "u = Union(a);" = .ok [⟨.set ⟨"u", ⟨0, 1⟩⟩ union, ⟨0, 13⟩⟩] := by
    have hlex : lex "u = Union(a);" = [⟨.key "u", ⟨0, 1⟩⟩, ⟨.equals, ⟨2, 3⟩⟩,
        ⟨.key "Union", ⟨4, 9⟩⟩, ⟨.openParen, ⟨9, 10⟩⟩, ⟨.key "a", ⟨10, 11⟩⟩,
        ⟨.closeParen, ⟨11, 12⟩⟩, ⟨.semicolon, ⟨12, 13⟩⟩, ⟨.endOfInput, ⟨13, 13⟩⟩] := by
      decide +kernel
    rw [Syntax.parse, hlex]
    rfl
  have hlookup : engine.registry.lookup "Union" = .ok Construct.Builtin.union := by
    have hname : Construct.Shortcuts.builtin.resolve "Union" = "omni.collections.Union" := by
      rw [Construct.Shortcuts.resolve, Construct.Shortcuts.builtin, Entries.get?_insertAll]
      rfl
    exact Construct.Registry.lookup_of_resolve hname rfl
  have hassigned : ended.1.toOption = some () := by decide +kernel
  refine ⟨?_, ?_, ?_⟩
  · refine hloads _ _ (hholding _ (by decide +kernel)) fun c hc => ?_
    obtain ⟨l, e, t, hevaluates, hc⟩ | hnone := hc
    · obtain ⟨rfl, rfl, rfl⟩ := hevaluates.of_assignment hparse
      change Syntax.Expr.Makes _ _ (.construct _ [.variable _ _] [] _) _ c at hc
      cases hc with
      | argument harguments =>
        cases harguments with
        | here hvariable => cases hvariable
        | later _ hnone => cases hnone
      | named _ hnone => cases hnone
      | construct hvalues _ =>
        cases hvalues
        have hfits : Construct.Builtin.unionFits [.array (.array .any)
            [.array .int [.int 1], .array .int [.int 2]]] = true := by
          decide +kernel
        exact fun _ => hfits
    · cases hnone
  · exact hassigned
  · have hended (x : Except Located Unit × Loading) (hx : x.1.toOption = some ()) :
        x = (.ok (), x.2) := by
      obtain ⟨_ | _, l⟩ := x
      · cases hx
      · rfl
    rw [hunion ⟨"u", ⟨0, 1⟩⟩ ⟨"Union", ⟨4, 9⟩⟩ [.variable "a" ⟨10, 11⟩] [] ⟨4, 12⟩ _ ended.2 _ _ _ _
      hlookup rfl rfl (hholding _ (by decide +kernel))
      (List.forall_mem_singleton.mpr (by decide +kernel)) nofun
      (hended ended hassigned)]
    decide +kernel

/-- A load can unite arrays of different kinds, since an array of untyped arrays accepts them, and
an intersection leaves the untyped one out. -/
theorem load_unfit_union :
    let text := "a = \x7b\x7b\x7d, \x7b1\x7d, \x7b\"s\"\x7d\x7d; " ++
      "u = Union(Intersection(\x7ba, \x7b\x7b1\x7d\x7d\x7d) ^ " ++
      "Intersection(\x7ba, \x7b\x7b\"s\"\x7d\x7d\x7d));"
    ¬ (empty.load .standard (.start ⟨.directory [], []⟩ []) (.text text)).store.IsHomogeneous := by
  intro text h
  have hfound : ((empty.load .standard (.start ⟨.directory [], []⟩ []) (.text text)).store.get?
      "u").result.any (fun v => !v.isHomogeneous) = true := by
    decide +kernel
  obtain ⟨v, hv, hbroken⟩ := (Option.any_eq_true _ _).mp hfound
  rw [h "u" v hv] at hbroken
  cases hbroken

end Store

end TypedConfig
