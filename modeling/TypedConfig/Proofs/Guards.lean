import Mathlib.Data.List.Forall2
import TypedConfig.Proofs.Building
import TypedConfig.Proofs.Homogeneous
import TypedConfig.Proofs.Shallow

/-!
# Guards of a construction

The kinds that a type declares guard the code behind them: a factory is called with values of the
kinds of its parameters only, and a slot is handed values of its kind only. The code reads these
values in its own way. Here it is said what a value of a kind looks like once it has been coerced,
what a reader of arguments may then rely on, and which errors of a construction are left over if
each part of a type relies on no more than that.

The objects among the values have to be of the built-in types, since an object of another type may
claim any tag.
-/

namespace TypedConfig

mutual

/-- Whether a value is no object of a type that is not built in, and no array has one as an
element. -/
def Value.isBuiltin : Value → Bool
  | .array _ items => Value.areBuiltin items
  | .object _ (.custom _) => false
  | _ => true

/-- Whether all of some values are built in. -/
def Value.areBuiltin : List Value → Bool
  | [] => true
  | v :: vs => v.isBuiltin && Value.areBuiltin vs

end

namespace Value

/-- Values are built in if each of them is. -/
theorem areBuiltin_iff (vs : List Value) :
    areBuiltin vs = true ↔ ∀ v ∈ vs, v.isBuiltin = true := by
  induction vs with
  | nil => simp [areBuiltin]
  | cons v vs ih => simp [areBuiltin, ih]

/-- An array is built in if its items are. -/
theorem isBuiltin_array (element : Kind) (items : List Value) :
    (array element items).isBuiltin = true ↔ ∀ v ∈ items, v.isBuiltin = true := by
  rw [isBuiltin, areBuiltin_iff]

end Value

namespace Kind

/-- The forms of values. A kind other than `any` accepts values of one form only. -/
inductive Form where
  | integer
  | fraction
  | bool
  | string
  | object
  | array
  deriving DecidableEq

/-- The form of the values that a kind accepts; `none` if it accepts all forms. -/
def form? : Kind → Option Form
  | .int => some .integer
  | .long => some .integer
  | .float => some .fraction
  | .double => some .fraction
  | .bool => some .bool
  | .string => some .string
  | .object _ => some .object
  | .array _ => some .array
  | .any => none

/-- Whether two kinds accept values of different forms. -/
def apart (k l : Kind) : Bool :=
  match k.form?, l.form? with
  | some f, some g => f != g
  | _, _ => false

/-- A value has the form of the kinds that accept it, if they have one. -/
theorem form?_of_accepts {kind : Kind} {v : Value} {f : Form} (h : kind.accepts v = true)
    (hf : kind.form? = some f) : v.kind.form? = some f := by
  cases kind <;> cases hf <;> cases v <;> first | rfl | cases h

/-- Kinds that are apart accept no value in common. -/
theorem not_accepts_of_apart {k l : Kind} {v : Value} (h : k.apart l = true)
    (hk : k.accepts v = true) : l.accepts v = false := by
  rw [Bool.eq_false_iff]
  intro hl
  unfold apart at h
  split at h
  next f g hf hg =>
    have hsame : f = g :=
      Option.some.inj ((form?_of_accepts hk hf).symm.trans (form?_of_accepts hl hg))
    rw [hsame, bne_self_eq_false] at h
    cases h
  next => cases h

/-- Where each item gives something, the list does. -/
theorem mapM_isSome {α β : Type} {f : α → Option β} {items : List α}
    (h : ∀ item ∈ items, (f item).isSome) : (items.mapM f).isSome := by
  induction items with
  | nil => rfl
  | cons item items ih =>
    obtain ⟨w, hw⟩ := Option.isSome_iff_exists.mp (h item (.head _))
    obtain ⟨ws, hws⟩ := Option.isSome_iff_exists.mp (ih fun v hv => h v (.tail _ hv))
    rw [List.mapM_cons, hw, hws]
    rfl

/-- A kind of arrays accepts the elements of the arrays that it accepts. -/
theorem accepts_of_mem {want element : Kind} {items : List Value}
    (h : (Kind.array want).accepts (.array element items) = true) :
    ∀ v ∈ items, want.accepts v = true := by
  unfold accepts at h
  split at h
  next hempty =>
    rw [List.isEmpty_iff.mp hempty]
    exact List.forall_mem_nil _
  next => exact List.all_eq_true.mp h

/-- What a kind accepts can be coerced to it. -/
theorem coerce_isSome {kind : Kind} {v : Value} (h : kind.accepts v = true) :
    (kind.coerce v).isSome := by
  induction kind generalizing v with
  | array want ih =>
    cases v with
    | array given items =>
      rw [coerce, h]
      split
      · contradiction
      · split
        · rfl
        · rw [Option.isSome_map]
          exact mapM_isSome fun item hitem => ih (accepts_of_mem h item hitem)
    | _ => cases h
  | _ => cases v <;> first | rfl | simp_all [coerce]

/-- A value has been coerced to a kind, and is built in. -/
def Gives (kind : Kind) (w : Value) : Prop := w.isBuiltin = true ∧ ∃ v, kind.coerce v = some w

/-- Coercion keeps built-in values. -/
theorem gives_of_coerce {kind : Kind} {v w : Value} (hv : v.isBuiltin = true)
    (h : kind.coerce v = some w) : kind.Gives w := by
  refine ⟨?_, v, h⟩
  refine coerce_keeps (P := (·.isBuiltin = true)) (fun _ => rfl) (fun _ => rfl) ?_ ?_ hv h
  · intro given items hv
    exact (Value.isBuiltin_array given items).mp hv
  · intro want items hitems
    exact (Value.isBuiltin_array want items).mpr fun w hw => (hitems w hw).2

namespace Gives

variable {w : Value}

/-- A kind accepts what it gives. -/
theorem accepts {kind : Kind} (h : kind.Gives w) : kind.accepts w = true := by
  obtain ⟨_, v, hv⟩ := h
  exact coerce_accepts hv

/-- What coercion to texts gives is a text. -/
theorem string (h : Kind.string.Gives w) : ∃ s, w = .string s := by
  have haccepts := h.accepts
  cases w <;> cases haccepts
  exact ⟨_, rfl⟩

/-- What coercion to `int` gives is one. -/
theorem int (h : Kind.int.Gives w) : ∃ n, w = .int n := by
  have haccepts := h.accepts
  cases w <;> cases haccepts
  exact ⟨_, rfl⟩

/-- What coercion to `boolean` gives is one. -/
theorem bool (h : Kind.bool.Gives w) : ∃ b, w = .bool b := by
  have haccepts := h.accepts
  cases w <;> cases haccepts
  exact ⟨_, rfl⟩

/-- An integer may have been coerced to 64 bits, or not have needed it. -/
theorem long (h : Kind.long.Gives w) : ∃ n, w.long? = some n := by
  have haccepts := h.accepts
  cases w <;> cases haccepts
  all_goals exact ⟨_, rfl⟩

/-- An array of a kind has elements that the kind accepts. -/
theorem array {want : Kind} (h : (Kind.array want).Gives w) :
    ∃ element items, w = .array element items ∧ ∀ v ∈ items, want.accepts v = true := by
  have haccepts := h.accepts
  cases w with
  | array element items => exact ⟨element, items, rfl, accepts_of_mem haccepts⟩
  | _ => cases haccepts

/-- The declared kind of the elements of a coerced array is the one that is asked for, unless any
kind will do. -/
theorem element_eq {want element : Kind} {items : List Value}
    (h : (Kind.array want).Gives (.array element items)) (hwant : want ≠ .any) :
    element = want := by
  obtain ⟨_, v, hv⟩ := h
  cases v with
  | array given items' =>
    rw [coerce] at hv
    split at hv
    · cases hv
    · split at hv
      next hsame =>
        cases hv
        exact hsame.resolve_left hwant
      next =>
        obtain ⟨_, _, hw⟩ := Option.map_eq_some_iff.mp hv
        cases hw
        rfl
  | _ => simp [coerce, Kind.accepts] at hv

/-- An array of texts can be read as such. -/
theorem strings (h : (Kind.array .string).Gives w) : ∃ ss, w.strings? = some ss := by
  obtain ⟨element, items, rfl, hitems⟩ := h.array
  rw [h.element_eq nofun]
  refine Option.isSome_iff_exists.mp (mapM_isSome fun v hv => ?_)
  have haccepts := hitems v hv
  cases v <;> cases haccepts
  rfl

/-- An object that a tag names is built in. -/
theorem object {tag : String} (h : (Kind.object tag).Gives w) :
    ∃ id content, w = .object id content ∧ content.isA tag = true ∧
      ∀ custom, content ≠ .custom custom := by
  have haccepts := h.accepts
  have hbuiltin := h.1
  cases w with
  | object id content =>
    refine ⟨id, content, rfl, haccepts, ?_⟩
    rintro custom rfl
    cases hbuiltin
  | _ => cases haccepts

/-- What coercion to files gives is a file, if it is built in. -/
theorem file (h : (Kind.object TypeId.file).Gives w) : ∃ id path, w = .object id (.file path) := by
  obtain ⟨id, content, rfl, hisA, hcustom⟩ := h.object
  cases content with
  | file path => exact ⟨id, path, rfl⟩
  | custom object => exact (hcustom object rfl).elim
  | _ =>
    simp [Content.isA, Content.typeId, Content.capabilities, TypeId.file, TypeId.resource,
      TypeId.url, TypeId.timeZone, TypeId.socket, TypeId.map, TypeId.list, TypeId.storeMarker,
      TypeId.shell, TypeId.parallel] at hisA

/-- Among the built-in objects only maps answer to the tag of maps. -/
theorem map (h : (Kind.object "Map").Gives w) :
    ∃ id entries, w = .object id (.map entries) := by
  obtain ⟨id, content, rfl, hisA, hcustom⟩ := h.object
  cases content with
  | map entries => exact ⟨id, entries, rfl⟩
  | custom object => exact (hcustom object rfl).elim
  | _ =>
    simp [Content.isA, Content.typeId, Content.capabilities, TypeId.file, TypeId.resource,
      TypeId.url, TypeId.timeZone, TypeId.socket, TypeId.list, TypeId.storeMarker,
      TypeId.shell, TypeId.parallel] at hisA

end Gives

end Kind

namespace Construct

/-- A fault that shows that a type has misread what it has asked for. No built-in type has faults of
its own making. -/
def Fault.isInternal : Fault → Bool
  | .argumentMissing => true
  | .argumentKind _ => true
  | .argumentsNotCoerced => true
  | .itemNotArray _ => true
  | .custom .. => true
  | _ => false

/-- A slot is handed a value that it cannot use. Only the directory of a command is handed values of
any kind. -/
def InjectionFault.isInternal (type key : String) : InjectionFault → Bool
  | .unusable _ => type != TypeId.shell || key != "dir"
  | _ => false

/-- An error that shows that the kinds which a type declares do not fit the code behind them. -/
def ConstructError.isInternal : ConstructError → Bool
  | .ambiguous .. => true
  | .instantiation _ fault => fault.isInternal
  | .injection type key fault => fault.isInternal type key
  | _ => false

/-- A reader of arguments takes values of some kinds. Its result satisfies a predicate, and it
leaves what comes after the values. If it fails, it has not misread them. -/
def Arguments.Takes {α : Type} (kinds : List Kind) (x : Arguments α) (P : α → Prop) : Prop :=
  ∀ values rest, List.Forall₂ (fun v kind => Kind.Gives kind v) values kinds →
    (∃ a, x.run (values ++ rest) = .ok (a, rest) ∧ P a) ∨
      ∃ fault, x.run (values ++ rest) = .error fault ∧ fault.isInternal = false

namespace Arguments.Takes

variable {α β : Type} {P : α → Prop} {Q : β → Prop} {x : Arguments α} {f : α → Arguments β}
  {kind : Kind} {kinds more : List Kind}

/-- To take no argument needs none. -/
theorem pure {a : α} (h : P a) : Takes [] (Pure.pure a) P := by
  intro values rest hvalues
  cases hvalues
  exact .inl ⟨a, rfl, h⟩

/-- To refuse with a fault of the type needs no argument. -/
theorem throw {fault : Fault} (h : fault.isInternal = false) :
    Takes [] (MonadExcept.throw fault) P := by
  intro values rest hvalues
  cases hvalues
  exact .inr ⟨fault, rfl, h⟩

/-- The second reader takes what the first one leaves. -/
theorem bind (first : Takes kinds x P) (rest : ∀ a, P a → Takes more (f a) Q) :
    Takes (kinds ++ more) (x >>= f) Q := by
  intro values behind hvalues
  have hrun (values : List Value) :
      (x >>= f).run values = x.run values >>= fun p => (f p.1).run p.2 := rfl
  rw [← List.take_append_drop kinds.length values, List.append_assoc, hrun]
  obtain ⟨a, hx, ha⟩ | ⟨fault, hx, hfault⟩ :=
    first (values.take kinds.length) (values.drop kinds.length ++ behind)
      (List.forall₂_take_append values kinds more hvalues)
  · rw [hx]
    exact rest a ha _ behind (List.forall₂_drop_append values kinds more hvalues)
  · rw [hx]
    exact .inr ⟨fault, rfl, hfault⟩

/-- A reader takes one argument and leaves the others to what comes behind. -/
theorem cons (first : Takes [kind] x P) (rest : ∀ a, P a → Takes more (f a) Q) :
    Takes (kind :: more) (x >>= f) Q :=
  bind first rest

/-- What comes behind the last argument needs none. -/
theorem andThen (first : Takes kinds x P) (rest : ∀ a, P a → Takes [] (f a) Q) :
    Takes kinds (x >>= f) Q := by
  have hbind := bind first rest
  rwa [List.append_nil] at hbind

/-- One argument is read in a form that all values of its kind have. -/
theorem next {use : Value → Option α} (h : ∀ v, kind.Gives v → ∃ a, use v = some a ∧ P a) :
    Takes [kind] (Arguments.next use) P := by
  intro values rest hvalues
  obtain ⟨v, _, hv, hnil, rfl⟩ := List.forall₂_cons_right_iff.mp hvalues
  cases hnil
  obtain ⟨a, huse, ha⟩ := h v hv
  refine .inl ⟨a, ?_, ha⟩
  simp only [Arguments.next, StateT.run, List.singleton_append, huse]

/-- A text is read by the kind of texts. -/
theorem string : Takes [.string] Arguments.string fun _ => True := by
  refine next fun v hv => ?_
  obtain ⟨s, rfl⟩ := hv.string
  exact ⟨s, rfl, trivial⟩

/-- An `int` is read by its kind. -/
theorem int : Takes [.int] Arguments.int fun _ => True := by
  refine next fun v hv => ?_
  obtain ⟨n, rfl⟩ := hv.int
  exact ⟨n, rfl, trivial⟩

/-- A truth value is read by its kind. -/
theorem bool : Takes [.bool] Arguments.bool fun _ => True := by
  refine next fun v hv => ?_
  obtain ⟨b, rfl⟩ := hv.bool
  exact ⟨b, rfl, trivial⟩

/-- Texts are read by the kind of arrays of texts. -/
theorem strings : Takes [.array .string] Arguments.strings fun _ => True := by
  refine next fun v hv => ?_
  obtain ⟨ss, hss⟩ := hv.strings
  exact ⟨ss, hss, trivial⟩

/-- An array is read with the items that its kind accepts. -/
theorem array {want : Kind} : Takes [.array want] Arguments.array fun array =>
    ∀ v ∈ array.2, want.accepts v = true := by
  refine next fun v hv => ?_
  obtain ⟨element, items, rfl, hitems⟩ := hv.array
  exact ⟨(element, items), rfl, hitems⟩

/-- A file is read by the tag of files. -/
theorem file : Takes [.object TypeId.file] Arguments.file fun _ => True := by
  refine next fun v hv => ?_
  obtain ⟨id, path, rfl⟩ := hv.file
  exact ⟨path, rfl, trivial⟩

/-- A map is read by the tag of maps. -/
theorem entries : Takes [.object "Map"] Arguments.entries fun _ => True := by
  refine next fun v hv => ?_
  obtain ⟨id, entries, rfl⟩ := hv.map
  exact ⟨entries, rfl, trivial⟩

/-- Every object is read as its content. -/
theorem content {tag : String} : Takes [.object tag] Arguments.content fun _ => True := by
  refine next fun v hv => ?_
  obtain ⟨id, content, rfl, _⟩ := hv.object
  exact ⟨content, rfl, trivial⟩

end Arguments.Takes

/-- Whether no list of arguments is accepted by two signatures. -/
def signaturesApart : List Kind → List Kind → Bool
  | [], [] => false
  | k :: ks, l :: ls => k.apart l || signaturesApart ks ls
  | _, _ => true

/-- Arguments fit one of two signatures that are apart. -/
theorem not_acceptsAll_of_apart {ks ls : List Kind} {arguments : List Value}
    (h : signaturesApart ks ls = true) (hk : acceptsAll ks arguments = true) :
    acceptsAll ls arguments = false := by
  induction ks generalizing ls arguments with
  | nil =>
    cases arguments with
    | nil =>
      cases ls with
      | nil => cases h
      | cons l ls => rfl
    | cons v vs => cases hk
  | cons k ks ih =>
    cases arguments with
    | nil => cases hk
    | cons v vs =>
      cases ls with
      | nil => rfl
      | cons l ls =>
        rw [acceptsAll, Bool.and_eq_true] at hk
        rw [acceptsAll, Bool.and_eq_false_iff]
        rw [signaturesApart, Bool.or_eq_true] at h
        rcases h with hfirst | hrest
        · exact .inl (Kind.not_accepts_of_apart hfirst hk.1)
        · exact .inr (ih hrest hk.2)

/-- Accepted arguments can be coerced, one each. -/
theorem coerceAll_of_acceptsAll {kinds : List Kind} {arguments : List Value}
    (harguments : ∀ v ∈ arguments, v.isBuiltin = true) (h : acceptsAll kinds arguments = true) :
    ∃ values, coerceAll kinds arguments = some values ∧
      List.Forall₂ (fun v kind => Kind.Gives kind v) values kinds := by
  induction kinds generalizing arguments with
  | nil =>
    cases arguments with
    | nil => exact ⟨[], rfl, .nil⟩
    | cons v vs => cases h
  | cons kind kinds ih =>
    cases arguments with
    | nil => cases h
    | cons v vs =>
      rw [acceptsAll, Bool.and_eq_true] at h
      obtain ⟨w, hw⟩ := Option.isSome_iff_exists.mp (Kind.coerce_isSome h.1)
      obtain ⟨ws, hws, hgiven⟩ := ih (fun v hv => harguments v (.tail _ hv)) h.2
      refine ⟨w :: ws, ?_, .cons (Kind.gives_of_coerce (harguments v (.head _)) hw) hgiven⟩
      rw [coerceAll, hw, hws]
      rfl

/-- The kind of a slot is that of a slot with its name. -/
theorem Blueprint.mem_of_slotKind? {slots : List Slot} {key : String} {kind : Kind}
    (h : slotKind? slots key = some kind) : ⟨key, kind⟩ ∈ slots := by
  obtain ⟨slot, hfind, rfl⟩ := Option.map_eq_some_iff.mp h
  obtain rfl : slot.name = key := by simpa using List.find?_some hfind
  exact List.mem_of_find?_eq_some hfind

/-- The kind of values that a target is handed. -/
def Blueprint.asks (b : Blueprint) : Target → Option Kind
  | .setter key => slotKind? b.setters key
  | .field key => slotKind? b.fields key
  | .put _ => b.put

/-- A named argument goes to a target of its name, coerced to the kind that the target is handed. -/
theorem route_gives {b : Blueprint} {key : String} {v w : Value} {target : Target}
    (hv : v.isBuiltin = true) (h : route b key v = .ok (target, w)) :
    target.key = key ∧ ∃ kind, b.asks target = some kind ∧ kind.Gives w := by
  have hbind {kind? : Option Kind} (hw : kind?.bind (·.coerce v) = some w) :
      ∃ kind, kind? = some kind ∧ kind.Gives w := by
    obtain ⟨kind, hkind, hw⟩ := Option.bind_eq_some_iff.mp hw
    exact ⟨kind, hkind, Kind.gives_of_coerce hv hw⟩
  unfold route at h
  split at h
  next hw =>
    cases h
    exact ⟨rfl, hbind hw⟩
  next =>
    split at h
    next kind hkind =>
      split at h
      next hw =>
        cases h
        exact ⟨rfl, kind, hkind, Kind.gives_of_coerce hv hw⟩
      next => cases h
    next =>
      split at h
      next hw =>
        cases h
        exact ⟨rfl, hbind hw⟩
      next => cases h

/-- Why a named argument is handed to no target has nothing to do with how it would be used. -/
theorem route_error {b : Blueprint} {key : String} {v : Value} {fault : InjectionFault}
    (h : route b key v = .error fault) : fault.isInternal b.typeId key = false := by
  unfold route at h
  split at h
  · cases h
  · split at h
    · split at h
      · cases h
      · cases h
        rfl
    · split at h
      · cases h
      · cases h
        rfl

/-- The parts of a type rely on no more than the kinds that it declares. The states between the
parts have an invariant. -/
structure Blueprint.Guarded (b : Blueprint) (Inv : b.State → Prop) : Prop where
  apart : b.signatures.Pairwise (signaturesApart · · = true)
  create : ∀ f ∈ b.factories, Arguments.Takes f.parameters f.create Inv
  inject {target kind w state} : b.asks target = some kind → kind.Gives w → Inv state →
    match b.inject target w state with
    | .ok state' => Inv state'
    | .error fault => fault.isInternal b.typeId target.key = false
  init {state} : Inv state →
    match b.init state with
    | .ok state' => Inv state'
    | .error fault => fault.isInternal = false
  finish {state} : Inv state → Throws (·.isInternal = false) (b.finish state)

namespace Blueprint.Guarded

variable {b : Blueprint} {Inv : b.State → Prop}

/-- At most one factory of a guarded type accepts the arguments, and it does not misread them. -/
theorem create_guarded (h : b.Guarded Inv) {arguments : List Value}
    (harguments : ∀ v ∈ arguments, v.isBuiltin = true) :
    match Construct.create b arguments with
    | .ok i => ∃ state, i = ⟨b, state⟩ ∧ Inv state
    | .error e => e.isInternal = false := by
  have hpairwise := List.Pairwise.sublist
    (List.filter_sublist (p := fun f => acceptsAll f.parameters arguments))
    (List.pairwise_map.mp h.apart)
  unfold Construct.create
  cases hfilter : b.factories.filter fun f => acceptsAll f.parameters arguments with
  | nil => rfl
  | cons f fs =>
    have haccepting {f' : Factory b.State} (hf' : f' ∈ f :: fs) :
        f' ∈ b.factories ∧ acceptsAll f'.parameters arguments = true :=
      List.mem_filter.mp (hfilter ▸ hf')
    obtain ⟨hf, haccepts⟩ := haccepting (.head _)
    cases fs with
    | nil =>
      obtain ⟨values, hvalues, hgiven⟩ := coerceAll_of_acceptsAll harguments haccepts
      have hcreate := h.create f hf values [] hgiven
      rw [List.append_nil] at hcreate
      obtain ⟨state, hrun, hstate⟩ | ⟨fault, hrun, hfault⟩ := hcreate
      · simp only [hvalues, hrun]
        exact ⟨state, rfl, hstate⟩
      · simp only [hvalues, hrun]
        exact hfault
    | cons g fs =>
      rw [hfilter] at hpairwise
      have hapart := List.rel_of_pairwise_cons hpairwise (.head _)
      have hrefused := not_acceptsAll_of_apart hapart haccepts
      rw [(haccepting (.tail _ (.head _))).2] at hrefused
      cases hrefused

/-- Named arguments are handed over, or refused by their kinds. -/
theorem inject_guarded (h : b.Guarded Inv) {named : List (String × Value)}
    (hnamed : ∀ entry ∈ named, entry.2.isBuiltin = true) {state : b.State} (hstate : Inv state) :
    match (⟨b, state⟩ : Instance).inject named with
    | .ok i => ∃ state', i = ⟨b, state'⟩ ∧ Inv state'
    | .error e => e.isInternal = false := by
  induction named generalizing state with
  | nil => exact ⟨state, rfl, hstate⟩
  | cons entry named ih =>
    obtain ⟨key, v⟩ := entry
    unfold Instance.inject Instance.injectOne
    cases hroute : route b key v with
    | error fault => exact route_error hroute
    | ok routed =>
      obtain ⟨target, w⟩ := routed
      obtain ⟨rfl, kind, hasks, hw⟩ := route_gives (hnamed (key, v) (.head _)) hroute
      have hinject := h.inject hasks hw hstate
      dsimp only
      cases hresult : b.inject target w state with
      | error fault =>
        rw [hresult] at hinject
        exact hinject
      | ok state' =>
        rw [hresult] at hinject
        exact ih (fun entry hentry => hnamed entry (.tail _ hentry)) hinject

/-- The last steps fail for reasons of their own, or because the value breaks constraints. -/
theorem finalize_guarded (h : b.Guarded Inv) {state : b.State} (hstate : Inv state)
    (validator : Validator) :
    Throws (·.isInternal = false) ((⟨b, state⟩ : Instance).finalize validator) := by
  have hinit := h.init hstate
  unfold Instance.finalize
  cases hresult : b.init state with
  | error fault =>
    rw [hresult] at hinit
    exact .throw hinit
  | ok state' =>
    rw [hresult] at hinit
    refine .bind (h.finish hinit) fun v => ?_
    cases validator v with
    | none => exact .pure v
    | some e => exact .throw rfl

/-- No construction of a guarded type fails because the type misreads what it has asked for. -/
theorem build_guarded (h : b.Guarded Inv) {engine : Engine} {type : String}
    {arguments : List Value} {named : List (String × Value)}
    (hlookup : engine.registry.lookup type = .ok b)
    (harguments : ∀ v ∈ arguments, v.isBuiltin = true)
    (hnamed : ∀ entry ∈ named, entry.2.isBuiltin = true) :
    Throws (·.isInternal = false) (engine.build type arguments named) := by
  have hcreate := h.create_guarded harguments
  unfold Engine.build Engine.construct
  simp only [hlookup]
  cases hcreated : Construct.create b arguments with
  | error e =>
    rw [hcreated] at hcreate
    exact .throw hcreate
  | ok i =>
    rw [hcreated] at hcreate
    obtain ⟨state, rfl, hstate⟩ := hcreate
    have hinject := h.inject_guarded hnamed hstate
    dsimp only
    cases hinjected : (⟨b, state⟩ : Instance).inject named with
    | error e =>
      rw [hinjected] at hinject
      exact .throw hinject
    | ok i =>
      rw [hinjected] at hinject
      obtain ⟨state', rfl, hstate'⟩ := hinject
      exact h.finalize_guarded hstate' engine.validator

end Blueprint.Guarded

end Construct

end TypedConfig
