import TypedConfig.Construct.Samples
import TypedConfig.Proofs.Building
import TypedConfig.Proofs.Coercions

/-!
# The calls that a construction makes

A construction sees of a type what the type shows: the parameters of its factories and its slots.
From this and from the arguments alone it follows which calls it makes into the type: a factory, one
slot for each named argument, `init` and `finish`. The type answers these calls one after the other,
in whatever way it is made, and the first failure is the last call. The main statement is that a
build consists of such calls for every type, and hands out a value only after all of them.
-/

namespace TypedConfig

/-- A value is handed over where a kind is asked for: coerced to the kind, which accepts it and
would leave it as it is. -/
structure Kind.Hands (kind : Kind) (v w : Value) : Prop where
  accepts : kind.accepts v = true
  coerce : kind.coerce v = some w
  accepted : kind.accepts w = true
  settled : kind.coerce w = some w

/-- What a kind accepts is handed over in one way only. -/
theorem Kind.hands_of_coerce {kind : Kind} {v w : Value} (h : kind.coerce v = some w) :
    kind.Hands v w :=
  ⟨accepts_of_coerce h, h, coerce_accepts h, coerce_of_coerce h⟩

/-- A value that a kind does not accept is not coerced. -/
theorem Kind.coerce_eq_none {kind : Kind} {v : Value} (h : kind.accepts v = false) :
    kind.coerce v = none := by
  refine Option.eq_none_iff_forall_ne_some.mpr fun w hw => ?_
  rw [accepts_of_coerce hw] at h
  cases h

/-- A value that a kind accepts is handed on in some form. -/
theorem Kind.exists_hands {kind : Kind} {v : Value} (h : kind.accepts v = true) :
    ∃ w, kind.Hands v w := by
  obtain ⟨w, hw⟩ := Option.isSome_iff_exists.mp (coerce_isSome h)
  exact ⟨w, hands_of_coerce hw⟩

namespace Construct

/-- What a type shows to constructions. -/
structure Advert where
  typeId : String
  signatures : List (List Kind)
  setters : List Slot
  fields : List Slot
  put : Option Kind

/-- What a blueprint shows of itself. -/
def Blueprint.advert (b : Blueprint) : Advert :=
  ⟨b.typeId, b.signatures, b.setters, b.fields, b.put⟩

/-- A call into a type under construction. Factories are called by their number. -/
inductive TypeCall where
  | create (factory : Nat) (values : List Value)
  | inject (target : Target) (value : Value)
  | init
  | finish

/-- Values that are handed over for arguments, one for each parameter. -/
inductive HandsEach : List Kind → List Value → List Value → Prop
  | nil : HandsEach [] [] []
  | cons {kind : Kind} {kinds : List Kind} {v w : Value} {vs ws : List Value} :
    kind.Hands v w → HandsEach kinds vs ws → HandsEach (kind :: kinds) (v :: vs) (w :: ws)

namespace Advert

/-- A factory is the only one whose parameters accept the arguments, one each, and it is called with
the values. -/
structure Picks (a : Advert) (arguments : List Value) (factory : Nat) (values : List Value) :
    Prop where
  handed : ∃ kinds, a.signatures[factory]? = some kinds ∧ HandsEach kinds arguments values
  only {other : Nat} {kinds : List Kind} : a.signatures[other]? = some kinds →
    List.Forall₂ (fun kind v => Kind.accepts kind v = true) kinds arguments → other = factory

/-- No setter accepts a named argument. -/
def PassesSetter (a : Advert) (key : String) (v : Value) : Prop :=
  ∀ kind, Blueprint.slotKind? a.setters key = some kind → kind.accepts v = false

/-- A named argument is handed to a slot: to the setter of its name if that accepts it, else to the
field of its name if there is one, else to `put`. -/
inductive Delivers (a : Advert) : String × Value → TypeCall → Prop
  | setter {key : String} {v w : Value} {kind : Kind} :
    Blueprint.slotKind? a.setters key = some kind → kind.Hands v w →
      Delivers a (key, v) (.inject (.setter key) w)
  | field {key : String} {v w : Value} {kind : Kind} : a.PassesSetter key v →
    Blueprint.slotKind? a.fields key = some kind → kind.Hands v w →
      Delivers a (key, v) (.inject (.field key) w)
  | put {key : String} {v w : Value} {kind : Kind} : a.PassesSetter key v →
    Blueprint.slotKind? a.fields key = none → a.put = some kind → kind.Hands v w →
      Delivers a (key, v) (.inject (.put key) w)

/-- A named argument fits no slot. -/
inductive Refuses (a : Advert) (key : String) (v : Value) : InjectionFault → Prop
  | field {kind : Kind} : a.PassesSetter key v → Blueprint.slotKind? a.fields key = some kind →
    kind.accepts v = false → Refuses a key v (.fieldKind kind v.kind)
  | put : a.PassesSetter key v → Blueprint.slotKind? a.fields key = none →
    (∀ kind, a.put = some kind → kind.accepts v = false) → Refuses a key v .noSlot

/-- The calls that follow from what a type shows, and why there are no more of them if they do not
reach the end. -/
inductive Plans (a : Advert) (arguments : List Value) (named : List (String × Value)) :
    List TypeCall → Option ConstructError → Prop
  | unfit : a.signatures.countP (acceptsAll · arguments) = 0 →
    Plans a arguments named [] (some (.noFactory a.typeId (arguments.map Value.kind)))
  | ambiguous {count : Nat} : a.signatures.countP (acceptsAll · arguments) = count → 1 < count →
    Plans a arguments named [] (some (.ambiguous a.typeId (arguments.map Value.kind) count))
  | stopped {factory : Nat} {values : List Value} {front back : List (String × Value)}
    {key : String} {v : Value} {calls : List TypeCall} {fault : InjectionFault} :
    a.Picks arguments factory values → named = front ++ (key, v) :: back →
      List.Forall₂ a.Delivers front calls → a.Refuses key v fault →
      Plans a arguments named (.create factory values :: calls)
        (some (.injection a.typeId key fault))
  | whole {factory : Nat} {values : List Value} {calls : List TypeCall} :
    a.Picks arguments factory values → List.Forall₂ a.Delivers named calls →
      Plans a arguments named (.create factory values :: calls ++ [.init, .finish]) none

end Advert

/-- How far a type under construction is. -/
inductive Stage (State : Type) where
  | unmade
  | made (state : State)
  | finished (v : Value)

namespace Blueprint

/-- How a type answers a call: with the stage behind it, or with an error. Only a factory can be
called first, and nothing after `finish`. -/
inductive Answers (b : Blueprint) : Stage b.State → Machine → TypeCall →
    Except ConstructError (Stage b.State) → Machine → Prop
  | created {i f values state rest m} : b.factories[i]? = some f →
    f.create.run values = .ok (state, rest) →
      Answers b .unmade m (.create i values) (.ok (.made state)) m
  | notCreated {i f values fault m} : b.factories[i]? = some f →
    f.create.run values = .error fault →
      Answers b .unmade m (.create i values) (.error (.instantiation b.typeId fault)) m
  | injected {target w state state' m} : b.inject target w state = .ok state' →
    Answers b (.made state) m (.inject target w) (.ok (.made state')) m
  | notInjected {target w state fault m} : b.inject target w state = .error fault →
    Answers b (.made state) m (.inject target w) (.error (.injection b.typeId target.key fault)) m
  | initialized {state state' m} : b.init state = .ok state' →
    Answers b (.made state) m .init (.ok (.made state')) m
  | notInitialized {state fault m} : b.init state = .error fault →
    Answers b (.made state) m .init (.error (.instantiation b.typeId fault)) m
  | finished {state v m m'} : outcome (b.finish state) m = (.ok v, m') →
    Answers b (.made state) m .finish (.ok (.finished v)) m'
  | notFinished {state e m m'} : outcome (b.finish state) m = (.error e, m') →
    Answers b (.made state) m .finish (.error e) m'

/-- Calls are made one after the other. A call that fails is the last one, and its error the
result. -/
inductive Makes (b : Blueprint) : Stage b.State → Machine → List TypeCall →
    Except ConstructError (Stage b.State) → Machine → Prop
  | done {stage m} : Makes b stage m [] (.ok stage) m
  | failed {stage m c e m'} : b.Answers stage m c (.error e) m' →
    Makes b stage m [c] (.error e) m'
  | next {stage m c stage' m' calls result m''} : b.Answers stage m c (.ok stage') m' →
    Makes b stage' m' calls result m'' → Makes b stage m (c :: calls) result m''

/-- What planned calls come to: the first of them that fails ends everything. Behind all of them a
plan may stop; otherwise there is a value, which is handed out if the validator accepts it. -/
inductive Follows (b : Blueprint) (validator : Validator) (planned : List TypeCall)
    (refusal : Option ConstructError) (m : Machine) : Except ConstructError Value × Machine → Prop
  | failed {made e m'} : made <+: planned → b.Makes .unmade m made (.error e) m' →
    Follows b validator planned refusal m (.error e, m')
  | refused {stage e m'} : refusal = some e → b.Makes .unmade m planned (.ok stage) m' →
    Follows b validator planned refusal m (.error e, m')
  | invalid {v e m'} : refusal = none → b.Makes .unmade m planned (.ok (.finished v)) m' →
    validator v = some e → Follows b validator planned refusal m (.error (.validation e), m')
  | accepted {v m'} : refusal = none → b.Makes .unmade m planned (.ok (.finished v)) m' →
    validator v = none → Follows b validator planned refusal m (.ok v, m')

variable {b : Blueprint} {stage stage' : Stage b.State} {m m' m'' : Machine}
  {calls calls' : List TypeCall} {result : Except ConstructError (Stage b.State)}

/-- Calls of two stages come one behind the other. -/
theorem Makes.append (first : b.Makes stage m calls (.ok stage') m')
    (rest : b.Makes stage' m' calls' result m'') :
    b.Makes stage m (calls ++ calls') result m'' := by
  generalize hend : Except.ok stage' = answer at first
  induction first with
  | done =>
    cases hend
    exact rest
  | failed => cases hend
  | next hanswer _ ih => exact .next hanswer (ih rest hend)

end Blueprint

section Planning

variable {a : Advert} {arguments values : List Value} {key : String} {v : Value}

/-- Arguments are accepted if each kind accepts its own. -/
theorem acceptsAll_iff {kinds : List Kind} : acceptsAll kinds arguments = true ↔
    List.Forall₂ (fun kind v => Kind.accepts kind v = true) kinds arguments := by
  induction kinds generalizing arguments with
  | nil => cases arguments <;> simp [acceptsAll]
  | cons kind kinds ih => cases arguments <;> simp [acceptsAll, ih]

/-- Arguments that are handed on have been accepted. -/
theorem HandsEach.acceptsAll {kinds : List Kind} (h : HandsEach kinds arguments values) :
    acceptsAll kinds arguments = true := by
  induction h with
  | nil => rfl
  | cons hfirst _ ih => rw [Construct.acceptsAll, hfirst.accepts, ih, Bool.and_self]

/-- Arguments are handed on as coerced. -/
theorem HandsEach.coerceAll {kinds : List Kind} (h : HandsEach kinds arguments values) :
    coerceAll kinds arguments = some values := by
  induction h with
  | nil => rfl
  | cons hfirst _ ih =>
    rw [Construct.coerceAll, hfirst.coerce, ih]
    rfl

/-- Arguments that are accepted are handed over. -/
theorem exists_handsEach {kinds : List Kind} (h : acceptsAll kinds arguments = true) :
    ∃ values, HandsEach kinds arguments values := by
  rw [acceptsAll_iff] at h
  induction h with
  | nil => exact ⟨[], .nil⟩
  | cons hfirst _ ih =>
    obtain ⟨w, hw⟩ := Kind.exists_hands hfirst
    obtain ⟨ws, hws⟩ := ih
    exact ⟨w :: ws, .cons hw hws⟩

/-- If a list has one item of a sort, that is its only place with such an item. -/
theorem exists_only_of_countP {α : Type} {p : α → Bool} {items : List α} (h : items.countP p = 1) :
    ∃ (i : Nat) (x : α), items[i]? = some x ∧ p x = true ∧
      ∀ (j : Nat) (y : α), items[j]? = some y → p y = true → j = i := by
  induction items with
  | nil => cases h
  | cons z items ih =>
    rw [List.countP_cons] at h
    by_cases hz : p z = true
    · rw [if_pos hz, Nat.add_eq_right, List.countP_eq_zero] at h
      refine ⟨0, z, rfl, hz, fun j y hy hp => ?_⟩
      cases j with
      | zero => rfl
      | succ j => exact (h y (List.mem_of_getElem? hy) hp).elim
    · rw [if_neg hz, Nat.add_zero] at h
      obtain ⟨i, x, hx, hp, honly⟩ := ih h
      refine ⟨i + 1, x, hx, hp, fun j y hy hp => ?_⟩
      cases j with
      | zero =>
        cases hy
        exact (hz hp).elim
      | succ j => exact congrArg (· + 1) (honly j y hy hp)

/-- Where an item of a sort has the only place, the others are left out. -/
theorem filter_eq_singleton_of_only {α : Type} {p : α → Bool} {items : List α} {i : Nat} {x : α}
    (hx : items[i]? = some x) (hp : p x = true)
    (honly : ∀ (j : Nat) (y : α), items[j]? = some y → p y = true → j = i) :
    items.filter p = [x] := by
  induction items generalizing i with
  | nil => cases hx
  | cons z items ih =>
    cases i with
    | zero =>
      cases hx
      rw [List.filter_cons_of_pos hp, List.filter_eq_nil_iff.mpr]
      intro y hy hpy
      obtain ⟨j, hj⟩ := List.mem_iff_getElem?.mp hy
      cases honly (j + 1) y hj hpy
    | succ i =>
      have hz : ¬ p z = true := fun hz => nomatch honly 0 z rfl hz
      rw [List.filter_cons_of_neg hz]
      exact ih hx fun j y hy hpy => Nat.succ.inj (honly (j + 1) y hy hpy)

/-- A named argument is handed to a slot, or there is a reason why not. -/
theorem Advert.delivers_or_refuses (a : Advert) (key : String) (v : Value) :
    (∃ call, a.Delivers (key, v) call) ∨ ∃ fault, a.Refuses key v fault := by
  by_cases hpasses : a.PassesSetter key v
  · cases hfield : Blueprint.slotKind? a.fields key with
    | some kind =>
      cases haccepts : kind.accepts v with
      | true =>
        obtain ⟨w, hw⟩ := Kind.exists_hands haccepts
        exact .inl ⟨_, .field hpasses hfield hw⟩
      | false => exact .inr ⟨_, .field hpasses hfield haccepts⟩
    | none =>
      by_cases hput : ∀ kind, a.put = some kind → kind.accepts v = false
      · exact .inr ⟨_, .put hpasses hfield hput⟩
      · obtain ⟨kind, hkind, haccepts⟩ : ∃ kind, a.put = some kind ∧ kind.accepts v = true := by
          simpa using hput
        obtain ⟨w, hw⟩ := Kind.exists_hands haccepts
        exact .inl ⟨_, .put hpasses hfield hkind hw⟩
  · obtain ⟨kind, hkind, haccepts⟩ : ∃ kind, Blueprint.slotKind? a.setters key = some kind ∧
        kind.accepts v = true := by
      simpa [Advert.PassesSetter] using hpasses
    obtain ⟨w, hw⟩ := Kind.exists_hands haccepts
    exact .inl ⟨_, .setter hkind hw⟩

/-- Named arguments are handed over up to the first one that is refused. -/
theorem Advert.exists_delivered (a : Advert) (named : List (String × Value)) :
    (∃ calls, List.Forall₂ a.Delivers named calls) ∨
      ∃ front key v back calls fault, named = front ++ (key, v) :: back ∧
        List.Forall₂ a.Delivers front calls ∧ a.Refuses key v fault := by
  induction named with
  | nil => exact .inl ⟨[], .nil⟩
  | cons entry named ih =>
    obtain ⟨key, v⟩ := entry
    obtain ⟨call, hcall⟩ | ⟨fault, hfault⟩ := a.delivers_or_refuses key v
    · obtain ⟨calls, hcalls⟩ | ⟨front, key', v', back, calls, fault, rfl, hfront, hfault⟩ := ih
      · exact .inl ⟨call :: calls, .cons hcall hcalls⟩
      · exact .inr ⟨(key, v) :: front, key', v', back, call :: calls, fault, rfl,
          .cons hcall hfront, hfault⟩
    · exact .inr ⟨[], key, v, named, [], fault, rfl, .nil, hfault⟩

/-- What a type shows always leads to a plan. -/
theorem Advert.exists_plan (a : Advert) (arguments : List Value) (named : List (String × Value)) :
    ∃ planned refusal, a.Plans arguments named planned refusal := by
  obtain hzero | hone | hmore : a.signatures.countP (acceptsAll · arguments) = 0 ∨
      a.signatures.countP (acceptsAll · arguments) = 1 ∨
      1 < a.signatures.countP (acceptsAll · arguments) := by
    omega
  · exact ⟨_, _, .unfit hzero⟩
  · obtain ⟨i, kinds, hkinds, haccepts, honly⟩ := exists_only_of_countP hone
    obtain ⟨values, hvalues⟩ := exists_handsEach haccepts
    have hpicks : a.Picks arguments i values :=
      ⟨⟨kinds, hkinds, hvalues⟩, fun hother h => honly _ _ hother (acceptsAll_iff.mpr h)⟩
    obtain ⟨calls, hcalls⟩ | ⟨front, key, v, back, calls, fault, hnamed, hfront, hfault⟩ :=
      a.exists_delivered named
    · exact ⟨_, _, .whole hpicks hcalls⟩
    · exact ⟨_, _, .stopped hpicks hnamed hfront hfault⟩
  · exact ⟨_, _, .ambiguous rfl hmore⟩

end Planning

section Following

variable {b : Blueprint} {arguments values : List Value} {named : List (String × Value)}
  {key : String} {v : Value} {m : Machine}

/-- A value that passes over the setters fits none of them. -/
theorem route_of_passesSetter (h : b.advert.PassesSetter key v) :
    (Blueprint.slotKind? b.setters key).bind (·.coerce v) = none := by
  refine Option.bind_eq_none_iff.mpr fun kind hkind => ?_
  exact Kind.coerce_eq_none (h kind hkind)

/-- The engine routes a named argument as it is delivered. -/
theorem route_of_delivers {target : Target} {w : Value}
    (h : b.advert.Delivers (key, v) (.inject target w)) : route b key v = .ok (target, w) := by
  unfold route
  cases h with
  | setter hkind hw =>
    have hsetter : (Blueprint.slotKind? b.setters key).bind (·.coerce v) = some w :=
      Option.bind_eq_some_iff.mpr ⟨_, hkind, hw.coerce⟩
    rw [hsetter]
  | field hpasses hkind hw =>
    rw [route_of_passesSetter hpasses, show Blueprint.slotKind? b.fields key = _ from hkind]
    simp only [hw.coerce]
  | put hpasses hnone hkind hw =>
    have hput : b.put.bind (·.coerce v) = some w :=
      Option.bind_eq_some_iff.mpr ⟨_, hkind, hw.coerce⟩
    rw [route_of_passesSetter hpasses, show Blueprint.slotKind? b.fields key = _ from hnone]
    simp only [hput]

/-- A named argument that the advert refuses is refused. -/
theorem route_of_refuses {fault : InjectionFault} (h : b.advert.Refuses key v fault) :
    route b key v = .error fault := by
  unfold route
  cases h with
  | field hpasses hkind hrefuses =>
    rw [route_of_passesSetter hpasses, show Blueprint.slotKind? b.fields key = _ from hkind]
    simp only [Kind.coerce_eq_none hrefuses]
  | put hpasses hnone hrefuses =>
    have hput : b.put.bind (·.coerce v) = none :=
      Option.bind_eq_none_iff.mpr fun kind hkind => Kind.coerce_eq_none (hrefuses kind hkind)
    rw [route_of_passesSetter hpasses, show Blueprint.slotKind? b.fields key = _ from hnone]
    simp only [hput]

/-- A delivered argument is one call of `inject`. -/
theorem exists_inject_of_delivers {entry : String × Value} {call : TypeCall}
    (h : b.advert.Delivers entry call) :
    ∃ target w, call = .inject target w ∧ target.key = entry.1 ∧
      route b entry.1 entry.2 = .ok (target, w) := by
  have hroute {key v target w} (h : b.advert.Delivers (key, v) (.inject target w))
      (hkey : target.key = key) : ∃ target' w', TypeCall.inject target w = .inject target' w' ∧
        target'.key = key ∧ route b key v = .ok (target', w') :=
    ⟨target, w, rfl, hkey, route_of_delivers h⟩
  cases h with
  | setter hkind hw => exact hroute (.setter hkind hw) rfl
  | field hpasses hkind hw => exact hroute (.field hpasses hkind hw) rfl
  | put hpasses hnone hkind hw => exact hroute (.put hpasses hnone hkind hw) rfl

/-- Delivered arguments are injected by the calls for them, or the first call that fails ends the
injection. -/
theorem inject_makes {front : List (String × Value)} {calls : List TypeCall}
    (h : List.Forall₂ b.advert.Delivers front calls) (rest : List (String × Value))
    (state : b.State) (m : Machine) :
    (∃ state', b.Makes (.made state) m calls (.ok (.made state')) m ∧
      (⟨b, state⟩ : Instance).inject (front ++ rest) = (⟨b, state'⟩ : Instance).inject rest) ∨
    ∃ made e, made <+: calls ∧ b.Makes (.made state) m made (.error e) m ∧
      (⟨b, state⟩ : Instance).inject (front ++ rest) = .error e := by
  -- Every call leaves another state behind, from which the others go on.
  induction h generalizing state with
  | nil => exact .inl ⟨state, .done, rfl⟩
  | @cons entry call front calls hcall _ ih =>
    obtain ⟨key, v⟩ := entry
    obtain ⟨target, w, rfl, hkey, hroute⟩ := exists_inject_of_delivers hcall
    rw [List.cons_append, Instance.inject, Instance.injectOne]
    simp only [hroute]
    cases hinject : b.inject target w state with
    | error fault =>
      have hfails := Blueprint.Answers.notInjected (m := m) hinject
      rw [hkey] at hfails
      exact .inr ⟨[.inject target w], _, ⟨calls, rfl⟩, .failed hfails, rfl⟩
    | ok state' =>
      have hanswer := Blueprint.Answers.injected (m := m) hinject
      obtain ⟨state'', hmakes, hrest⟩ | ⟨made, e, hmade, hmakes, hrest⟩ := ih state'
      · exact .inl ⟨state'', .next hanswer hmakes, hrest⟩
      · refine .inr ⟨.inject target w :: made, e, ?_, .next hanswer hmakes, hrest⟩
        exact (List.prefix_cons_inj _).mpr hmade

/-- The factory that is picked is called with the values that are handed over. -/
theorem create_of_picks {i : Nat} (h : b.advert.Picks arguments i values) :
    ∃ f, b.factories[i]? = some f ∧ create b arguments =
      match f.create.run values with
      | .ok (state, _) => .ok ⟨b, state⟩
      | .error fault => .error (.instantiation b.typeId fault) := by
  obtain ⟨kinds, hkinds, hvalues⟩ := h.handed
  have hsignature (j : Nat) : b.advert.signatures[j]? = b.factories[j]?.map (·.parameters) :=
    List.getElem?_map
  rw [hsignature] at hkinds
  obtain ⟨f, hf, rfl⟩ := Option.map_eq_some_iff.mp hkinds
  -- Two factories may have the same parameters, so it is the number that tells the only one.
  have hfilter : (b.factories.filter fun f => acceptsAll f.parameters arguments) = [f] := by
    refine filter_eq_singleton_of_only hf hvalues.acceptsAll fun j g hg haccepts => ?_
    have hkinds : b.advert.signatures[j]? = some g.parameters := by
      rw [hsignature, hg]
      rfl
    exact h.only hkinds (acceptsAll_iff.mp haccepts)
  refine ⟨f, hf, ?_⟩
  rcases hrun : f.create.run values with fault | ⟨state, left⟩ <;>
    simp only [create, hfilter, hvalues.coerceAll, hrun]

/-- The parameters of the factories that accept some arguments are counted. -/
theorem length_filter_factories (b : Blueprint) (arguments : List Value) :
    (b.factories.filter fun f => acceptsAll f.parameters arguments).length =
      b.advert.signatures.countP (acceptsAll · arguments) := by
  rw [← List.countP_eq_length_filter]
  change _ = (b.factories.map (·.parameters)).countP _
  rw [List.countP_map]
  rfl

/-- Where not one factory accepts the arguments, a construction ends before the first call. -/
theorem create_eq_error (h : b.advert.signatures.countP (acceptsAll · arguments) = 0 ∨
      1 < b.advert.signatures.countP (acceptsAll · arguments)) :
    create b arguments = .error
      (if b.advert.signatures.countP (acceptsAll · arguments) = 0 then
        .noFactory b.typeId (arguments.map Value.kind)
      else .ambiguous b.typeId (arguments.map Value.kind)
        (b.advert.signatures.countP (acceptsAll · arguments))) := by
  rw [← length_filter_factories] at h ⊢
  unfold create
  generalize b.factories.filter (fun f => acceptsAll f.parameters arguments) = accepting at h ⊢
  match accepting with
  | [] => rfl
  | [_] => simp at h
  | _ :: _ :: _ => rfl

variable {e : Engine} {type : String}

/-- A construction creates, takes the named arguments and finishes. -/
theorem Engine.build_eq (hlookup : e.registry.lookup type = .ok b) (arguments : List Value)
    (named : List (String × Value)) : e.build type arguments named =
      match create b arguments with
      | .error err => throw err
      | .ok i =>
        match i.inject named with
        | .error err => throw err
        | .ok i => i.finalize e.validator := by
  rcases hcreate : create b arguments with err | i
  · simp only [build, construct, hlookup, hcreate]
  · rcases hinject : i.inject named with err | i' <;>
      simp only [build, construct, hlookup, hcreate, hinject]

/-- A build begins with the factory that is picked and with the calls for named arguments. It ends
with the first of these calls that fails, and goes on with the other arguments if none does. -/
theorem Engine.build_begins (hlookup : e.registry.lookup type = .ok b) {i : Nat}
    (hpicks : b.advert.Picks arguments i values) {front : List (String × Value)}
    {calls : List TypeCall} (hcalls : List.Forall₂ b.advert.Delivers front calls)
    (rest : List (String × Value)) (m : Machine) :
    (∃ state, b.Makes .unmade m (.create i values :: calls) (.ok (.made state)) m ∧
      e.build type arguments (front ++ rest) =
        match (⟨b, state⟩ : Instance).inject rest with
        | .error err => throw err
        | .ok i => i.finalize e.validator) ∨
    ∃ made err, made <+: .create i values :: calls ∧ b.Makes .unmade m made (.error err) m ∧
      e.build type arguments (front ++ rest) = throw err := by
  obtain ⟨f, hf, hcreate⟩ := create_of_picks hpicks
  rw [build_eq hlookup, hcreate]
  rcases hrun : f.create.run values with fault | ⟨state, left⟩
  · refine .inr ⟨[.create i values], _, ⟨calls, rfl⟩, .failed (.notCreated hf hrun), rfl⟩
  · have hanswer := Blueprint.Answers.created (m := m) hf hrun
    obtain ⟨state', hmakes, hrest⟩ | ⟨made, err, hmade, hmakes, hrest⟩ :=
      inject_makes hcalls rest state m
    · exact .inl ⟨state', .next hanswer hmakes, by simp only [hrest]⟩
    · refine .inr ⟨.create i values :: made, err, ?_, .next hanswer hmakes, by simp only [hrest]⟩
      exact (List.prefix_cons_inj _).mpr hmade

/-- Behind the calls for named arguments come the last two. -/
theorem finalize_follows {calls : List TypeCall} {state : b.State}
    (hmakes : b.Makes .unmade m calls (.ok (.made state)) m) (validator : Validator) :
    b.Follows validator (calls ++ [.init, .finish]) none m
      (outcome ((⟨b, state⟩ : Instance).finalize validator) m) := by
  unfold Instance.finalize
  rcases hinit : b.init state with fault | state'
  · have hfails := Blueprint.Answers.notInitialized (m := m) hinit
    exact .failed ⟨[.finish], by simp⟩ (hmakes.append (.failed hfails))
  · have hinitialized := Blueprint.Answers.initialized (m := m) hinit
    simp only [outcome_bind]
    rcases hfinish : outcome (b.finish state') m with ⟨err | v, m'⟩
    · have hfails := Blueprint.Answers.notFinished hfinish
      exact .failed List.prefix_rfl (hmakes.append (.next hinitialized (.failed hfails)))
    · have hfinished := Blueprint.Answers.finished hfinish
      have hall := hmakes.append (.next hinitialized (.next hfinished .done))
      rcases hvalid : validator v with _ | err
      · simp only [hvalid]
        exact .accepted rfl hall hvalid
      · simp only [hvalid]
        exact .invalid rfl hall hvalid

/-- A build of a type comes to what its plan comes to. -/
theorem Engine.build_follows (hlookup : e.registry.lookup type = .ok b)
    {planned : List TypeCall} {refusal : Option ConstructError}
    (h : b.advert.Plans arguments named planned refusal) (m : Machine) :
    b.Follows e.validator planned refusal m (outcome (e.build type arguments named) m) := by
  -- Where the plan stops early, the arguments from the refused one on are the rest of the build.
  cases h with
  | unfit hzero =>
    rw [build_eq hlookup, create_eq_error (.inl hzero), if_pos hzero]
    exact .refused rfl .done
  | ambiguous hcount hmore =>
    rw [build_eq hlookup, create_eq_error (.inr (hcount ▸ hmore)), hcount, if_neg (by omega)]
    exact .refused rfl .done
  | @stopped _ _ front back key v _ fault hpicks hnamed hcalls hrefuses =>
    obtain ⟨state, hmakes, hrest⟩ | ⟨made, err, hmade, hmakes, hrest⟩ :=
      build_begins hlookup hpicks hcalls ((key, v) :: back) m
    · rw [hnamed, hrest, Instance.inject, Instance.injectOne]
      simp only [route_of_refuses hrefuses]
      exact .refused rfl hmakes
    · rw [hnamed, hrest]
      exact .failed hmade hmakes
  | whole hpicks hcalls =>
    obtain ⟨state, hmakes, hrest⟩ | ⟨made, err, hmade, hmakes, hrest⟩ :=
      build_begins hlookup hpicks hcalls [] m
    · rw [List.append_nil] at hrest
      rw [hrest]
      exact finalize_follows hmakes e.validator
    · rw [List.append_nil] at hrest
      rw [hrest]
      exact .failed (hmade.trans (List.prefix_append _ _)) hmakes

/-- From what a type shows follows a plan for every construction, and a build of the type comes to
what the planned calls come to. If it yields a value, then it has called the one factory that
accepts the arguments, handed over every named argument by a call of its own, in order, and taken
both of the last steps, and the validator accepts the value. -/
theorem Engine.build_calls_advertised (hlookup : e.registry.lookup type = .ok b)
    (arguments : List Value) (named : List (String × Value)) (m : Machine) :
    (∃ planned refusal, b.advert.Plans arguments named planned refusal) ∧
      (∀ planned refusal, b.advert.Plans arguments named planned refusal →
        b.Follows e.validator planned refusal m (outcome (e.build type arguments named) m)) ∧
      ∀ v m', outcome (e.build type arguments named) m = (.ok v, m') →
        ∃ factory values calls, b.advert.Picks arguments factory values ∧
          List.Forall₂ b.advert.Delivers named calls ∧
          b.Makes .unmade m (.create factory values :: calls ++ [.init, .finish])
            (.ok (.finished v)) m' ∧ e.validator v = none := by
  obtain ⟨planned, refusal, hplans⟩ := b.advert.exists_plan arguments named
  refine ⟨⟨planned, refusal, hplans⟩, fun _ _ h => build_follows hlookup h m, fun v m' hbuilt => ?_⟩
  have hfollows := build_follows hlookup hplans m
  rw [hbuilt] at hfollows
  cases hfollows with
  | accepted hwhole hmakes hvalid =>
    subst hwhole
    cases hplans with
    | whole hpicks hcalls => exact ⟨_, _, _, hpicks, hcalls, hmakes, hvalid⟩

/-- The setter for a number takes texts only, so the number goes on to the field and becomes a long
one. -/
theorem Engine.build_bean_past_setter :
    let e : Engine := ⟨Registry.ofList [Samples.bean] [], .constraints⟩
    let m := Machine.start ⟨.directory [], []⟩ []
    let arguments := [Value.string "X"]
    let named := [("a", Value.string "A"), ("d", .int 5)]
    let planned : List TypeCall := [.create 1 [.string "X"],
      .inject (.setter "a") (.string "A"), .inject (.field "d") (.long 5), .init, .finish]
    e.registry.lookup "test.Bean" = .ok Samples.bean ∧
      Samples.bean.advert.Plans arguments named planned none ∧
      ∃ v m', outcome (e.build "test.Bean" arguments named) m = (.ok v, m') ∧
        v.text = "Bean(x=X,a=A,b=-,c=-,d=5)" ∧ e.validator v = none ∧
        Samples.bean.Makes .unmade m planned (.ok (.finished v)) m' := by
  intro e m arguments named planned
  have hlookup : e.registry.lookup "test.Bean" = .ok Samples.bean :=
    Registry.lookup_of_resolve rfl rfl
  have hpicks : Samples.bean.advert.Picks [.string "X"] 1 [.string "X"] := by
    refine ⟨⟨[.string], rfl, .cons (Kind.hands_of_coerce rfl) .nil⟩, ?_⟩
    intro other kinds hother h
    match other with
    | 0 =>
      cases hother
      cases h
    | 1 => rfl
    | _ + 2 => cases hother
  have hpasses : Samples.bean.advert.PassesSetter "d" (.int 5) := by
    intro kind hkind
    cases hkind
    rfl
  have hplans : Samples.bean.advert.Plans arguments named planned none :=
    .whole hpicks (.cons (.setter rfl (Kind.hands_of_coerce rfl))
      (.cons (.field hpasses rfl (Kind.hands_of_coerce rfl)) .nil))
  have hbuilt : outcome (e.build "test.Bean" arguments named) m =
      outcome (Samples.bean.finish { x := some "X", a := some "A", d := some 5 }) m := by
    unfold build construct
    rw [hlookup]
    rfl
  obtain ⟨_, hfollows, _⟩ := build_calls_advertised hlookup arguments named m
  have hplanned := hfollows planned none hplans
  refine ⟨hlookup, hplans, _, _, hbuilt, rfl, ?_⟩
  rw [hbuilt] at hplanned
  cases hplanned with
  | accepted _ hmakes hvalid => exact ⟨hvalid, hmakes⟩

end Following

end Construct

end TypedConfig
