import TypedConfig.Proofs.Outcome

/-!
# Faults of expressions

An expression fails at a span that stands in it, and never because includes are nested too deeply.

That includes are nested too deeply shows in an error: it is the innermost failure behind it.
Nothing but an include leads to that failure. Neither an expression nor an assignment fails so, and
neither does a text that cannot be fetched.
-/

namespace TypedConfig

variable {ε ε' σ α β : Type}

/-- Every failure of a step satisfies a predicate. -/
def Throws (P : ε → Prop) (x : ExceptT ε (StateM σ) α) : Prop :=
  ∀ s e, (outcome x s).1 = .error e → P e

namespace Throws

variable {P : ε → Prop}

/-- A computation that gives a value throws nothing. -/
theorem pure (a : α) : Throws P (Pure.pure a : ExceptT ε (StateM σ) α) := by
  intro s e h
  simp at h

/-- A computation that throws an error throws nothing else. -/
theorem throw {e : ε} (h : P e) : Throws P (MonadExcept.throw e : ExceptT ε (StateM σ) α) := by
  intro s e' he
  obtain rfl : e = e' := by simpa using he
  exact h

/-- Of two computations one after the other, one throws. -/
theorem bind {x : ExceptT ε (StateM σ) α} {f : α → ExceptT ε (StateM σ) β} (first : Throws P x)
    (rest : ∀ a, Throws P (f a)) : Throws P (x >>= f) := by
  intro s e h
  rw [outcome_bind] at h
  rcases hx : outcome x s with ⟨e' | a, s'⟩
  · rw [hx] at h
    obtain rfl : e' = e := by simpa using h
    exact first s e' (by rw [hx])
  · rw [hx] at h
    exact rest a s' e h

/-- What throws certain errors throws errors of a wider sort. -/
theorem mono {Q : ε → Prop} {x : ExceptT ε (StateM σ) α} (h : Throws P x) (hPQ : ∀ e, P e → Q e) :
    Throws Q x :=
  fun s e he => hPQ e (h s e he)

end Throws

mutual

/-- Whether includes nested too deeply are the innermost failure behind an error. -/
def LoadError.isTooDeep : LoadError → Bool
  | .tooDeep => true
  | .inText _ _ _ fault => fault.isTooDeep
  | _ => false

/-- Whether includes nested too deeply are the innermost failure behind a fault. -/
def TextFault.isTooDeep : TextFault → Bool
  | .inclusion _ error => error.isTooDeep
  | _ => false

end

/-- A fault for another reason than the depth of includes. -/
def Located.IsShallow (located : Located) : Prop := located.fault.isTooDeep = false

namespace Evaluation

/-- A question to a store throws nothing. -/
theorem ofLogged_throws {α : Type} (P : Located → Prop) (x : Logged α) :
    Throws P (ofLogged x) := by
  intro t e h
  simp at h

/-- A construction throws its errors at its span. -/
theorem ofBuild_throws {α : Type} (span : Source.Span) (b : Construct.Build α) :
    Throws (fun located => ∃ error, located = ⟨span, .construction error⟩) (ofBuild span b) := by
  intro t e h
  rw [outcome_ofBuild] at h
  cases hb : (outcome b t.machine).1 with
  | ok x =>
    rw [hb] at h
    cases h
  | error cause =>
    rw [hb] at h
    cases h
    exact ⟨cause, rfl⟩

/-- A failure that is known is thrown as it is. -/
theorem liftM_throws {α : Type} {P : Located → Prop} {x : Except Located α}
    (h : ∀ e, x = .error e → P e) : Throws P (liftM x : Evaluation α) := by
  intro t e he
  exact h e (by simpa using he)

end Evaluation

namespace Syntax

/-- A span that stands in an expression: that of a node, or that of the tag of an array. -/
inductive Expr.HasSpan : Expr → Source.Span → Prop
  | whole {e} : HasSpan e e.span
  | left {left right span place} : left.HasSpan place → HasSpan (.concat left right span) place
  | right {left right span place} : right.HasSpan place → HasSpan (.concat left right span) place
  | tag {tag items span} : HasSpan (.array (some tag) items span) tag.span
  | item {tag items span e place} : e ∈ items → e.HasSpan place →
    HasSpan (.array tag items span) place
  | argument {type arguments named span e place} : e ∈ arguments → e.HasSpan place →
    HasSpan (.construct type arguments named span) place
  | named {type arguments named span entry place} : entry ∈ named → entry.2.HasSpan place →
    HasSpan (.construct type arguments named span) place

/-- A fault that the evaluation of an expression may end with. -/
def Expr.HasFault (e : Expr) (located : Located) : Prop :=
  located.IsShallow ∧ e.HasSpan located.span

/-- A variable that is not there is the fault, at its own span. -/
theorem lookUp_throws (store : Store) (name : String) (span : Source.Span) :
    Throws (fun located => located.IsShallow ∧ located.span = span) (lookUp store name span) := by
  unfold lookUp
  split
  · refine .bind (Evaluation.ofLogged_throws _ _) fun _ => (Evaluation.ofBuild_throws _ _).mono ?_
    rintro _ ⟨_, rfl⟩
    exact ⟨rfl, rfl⟩
  · refine .bind (Evaluation.ofLogged_throws _ _) fun found => ?_
    cases found with
    | none => exact .throw ⟨rfl, rfl⟩
    | some v => exact .pure v

/-- Values cannot be joined because of their kinds. -/
theorem joinValues_error {v w : Value} {fault : TextFault} (h : joinValues v w = .error fault) :
    ∃ left right, fault = .notJoined left right ∨ fault = .notAppended left right := by
  unfold joinValues at h
  split at h
  · cases h
  · split at h
    · cases h
    · cases h
      exact ⟨_, _, .inr rfl⟩
  · cases h
    exact ⟨_, _, .inl rfl⟩

/-- A tag that stands for no type is the fault. -/
theorem tagKind_error {registry : Construct.Registry} {tag : Name} {e : Located}
    (h : tagKind registry tag = .error e) : ∃ error, e = ⟨tag.span, .construction error⟩ := by
  unfold tagKind at h
  split at h
  · cases h
  · split at h
    · cases h
    · cases h
      exact ⟨_, rfl⟩

/-- Only a tag can be wrong in the kind that an array declares. -/
theorem declaredKind_error {registry : Construct.Registry} {tag : Option Name} {e : Located}
    (h : declaredKind registry tag = .error e) :
    ∃ name error, tag = some name ∧ e = ⟨name.span, .construction error⟩ := by
  cases tag with
  | none => cases h
  | some tag =>
    change (tagKind registry tag).map some = .error e at h
    cases hkind : tagKind registry tag with
    | ok kind =>
      rw [hkind] at h
      cases h
    | error e' =>
      rw [hkind] at h
      obtain rfl : e' = e := Except.error.inj h
      obtain ⟨error, rfl⟩ := tagKind_error hkind
      exact ⟨tag, error, rfl, rfl⟩

/-- An item that does not fit is the fault, at its own place. -/
theorem fitItems_throws {P : Located → Prop} (element : Kind)
    (misfit : Source.Span → Kind → Located) (values : List Value) (places : List Source.Span)
    (hmisfit : ∀ span ∈ places, ∀ given, P (misfit span given)) {e : Located}
    (h : fitItems element misfit values places = .error e) : P e := by
  induction values generalizing places with
  | nil => cases h
  | cons v vs ih =>
    cases places with
    | nil => cases h
    | cons span spans =>
      rw [fitItems] at h
      split at h
      · cases hrest : fitItems element misfit vs spans with
        | error e' =>
          rw [hrest] at h
          cases h
          exact ih spans (fun place hplace => hmisfit place (.tail _ hplace)) hrest
        | ok ws =>
          rw [hrest] at h
          cases h
      · cases h
        exact hmisfit span (.head _) v.kind

/-- An array fails because of an item that does not fit, or as a whole because of its items. -/
theorem arrayOf_error {declared : Option Kind} {items : List Value}
    {places : List Source.Span} {span : Source.Span} {e : Located}
    (h : arrayOf declared items places span = .error e) :
    ∃ given element, (∃ place ∈ places, e = ⟨place, .misfit given element⟩) ∨
      e = ⟨span, .mixed given element⟩ := by
  let P (e : Located) : Prop :=
    ∃ given element, (∃ place ∈ places, e = ⟨place, .misfit given element⟩) ∨
      e = ⟨span, .mixed given element⟩
  have hfit (element : Kind) (misfit : Source.Span → Kind → Located)
      (hmisfit : ∀ place ∈ places, ∀ given, P (misfit place given))
      (hitems : (fitItems element misfit items places >>= fun fitted =>
        Except.ok (Value.array element fitted)) = .error e) : P e := by
    cases hfitted : fitItems element misfit items places with
    | error e' =>
      rw [hfitted] at hitems
      obtain rfl : e' = e := Except.error.inj hitems
      exact fitItems_throws element misfit items places hmisfit hfitted
    | ok fitted =>
      rw [hfitted] at hitems
      cases hitems
  cases declared with
  | some element =>
    exact hfit element (fun place given => ⟨place, .misfit given element⟩)
      (fun place hplace given => ⟨given, element, .inl ⟨place, hplace, rfl⟩⟩) h
  | none =>
    exact hfit _ (fun _ given => ⟨span, .mixed given ((items.head?.map Value.kind).getD .any)⟩)
      (fun _ _ given => ⟨given, _, .inr rfl⟩) h

mutual

/-- An expression fails at a span that stands in it, and not because of the depth of includes. -/
theorem Expr.evaluate_throws (engine : Construct.Engine) (store : Store) :
    (e : Expr) → Throws e.HasFault (e.evaluate engine store)
  | .literal value _ => .pure _
  | .variable name span =>
    (lookUp_throws store name span).mono fun _ h => ⟨h.1, h.2.symm ▸ .whole⟩
  | .concat left right span => by
    unfold Expr.evaluate
    refine .bind ?_ fun v => .bind ?_ fun w => ?_
    · exact (left.evaluate_throws engine store).mono fun _ h => ⟨h.1, .left h.2⟩
    · exact (right.evaluate_throws engine store).mono fun _ h => ⟨h.1, .right h.2⟩
    cases hjoin : joinValues v w with
    | ok joined => exact .pure joined
    | error fault =>
      obtain ⟨_, _, rfl | rfl⟩ := joinValues_error hjoin
      all_goals exact .throw ⟨rfl, .whole⟩
  | .array tag items span => by
    unfold Expr.evaluate
    refine .bind (Evaluation.liftM_throws fun located h => ?_) fun declared => ?_
    · obtain ⟨name, _, rfl, rfl⟩ := declaredKind_error h
      exact ⟨rfl, .tag⟩
    · refine .bind ?_ fun values => Evaluation.liftM_throws fun located h => ?_
      · refine (Expr.evaluateAll_throws engine store items).mono fun _ h => ?_
        obtain ⟨e, he, hfault⟩ := h
        exact ⟨hfault.1, .item he hfault.2⟩
      · obtain ⟨_, _, ⟨place, hplace, rfl⟩ | rfl⟩ := arrayOf_error h
        · obtain ⟨e, he, rfl⟩ := List.mem_map.mp hplace
          exact ⟨rfl, .item he .whole⟩
        · exact ⟨rfl, .whole⟩
  | .construct type arguments named span => by
    unfold Expr.evaluate
    refine .bind ?_ fun values => .bind ?_ fun namedValues => ?_
    · refine (Expr.evaluateAll_throws engine store arguments).mono fun _ h => ?_
      obtain ⟨e, he, hfault⟩ := h
      exact ⟨hfault.1, .argument he hfault.2⟩
    · refine (Expr.evaluateNamed_throws engine store named).mono fun _ h => ?_
      obtain ⟨entry, hentry, hfault⟩ := h
      exact ⟨hfault.1, .named hentry hfault.2⟩
    · refine (Evaluation.ofBuild_throws span _).mono ?_
      rintro _ ⟨_, rfl⟩
      exact ⟨rfl, .whole⟩

/-- One of several expressions has the fault. -/
theorem Expr.evaluateAll_throws (engine : Construct.Engine) (store : Store) :
    (es : List Expr) →
      Throws (fun located => ∃ e ∈ es, e.HasFault located) (Expr.evaluateAll engine store es)
  | [] => .pure _
  | e :: es => by
    unfold Expr.evaluateAll
    refine .bind ?_ fun v => .bind ?_ fun vs => .pure _
    · exact (e.evaluate_throws engine store).mono fun _ h => ⟨e, .head _, h⟩
    · refine (Expr.evaluateAll_throws engine store es).mono fun _ h => ?_
      obtain ⟨e', he', hfault⟩ := h
      exact ⟨e', .tail _ he', hfault⟩

/-- The value of one of the named arguments has the fault. -/
theorem Expr.evaluateNamed_throws (engine : Construct.Engine) (store : Store) :
    (es : List (Name × Expr)) → Throws (fun located => ∃ entry ∈ es, entry.2.HasFault located)
      (Expr.evaluateNamed engine store es)
  | [] => .pure _
  | (name, e) :: rest => by
    unfold Expr.evaluateNamed
    refine .bind ?_ fun v => .bind ?_ fun vs => .pure _
    · exact (e.evaluate_throws engine store).mono fun _ h => ⟨(name, e), .head _, h⟩
    · refine (Expr.evaluateNamed_throws engine store rest).mono fun _ h => ?_
      obtain ⟨entry, hentry, hfault⟩ := h
      exact ⟨entry, .tail _ hentry, hfault⟩

end

end Syntax

namespace LoadStep

/-- An evaluation in a load throws what it throws in any store. -/
theorem evaluate_throws {α : Type} {P : Located → Prop} {e : Store → Evaluation α}
    (h : ∀ store, Throws P (e store)) : Throws P (evaluate e) := by
  intro l located hl
  rw [outcome_evaluate] at hl
  exact h _ _ _ hl

/-- An evaluation whose log is dropped throws what it throws in any store. -/
theorem evaluateInPassing_throws {α : Type} {P : Located → Prop} {e : Store → Evaluation α}
    (h : ∀ store, Throws P (e store)) : Throws P (evaluateInPassing e) := by
  intro l located hl
  rw [outcome_evaluateInPassing] at hl
  exact h _ _ _ hl

end LoadStep

namespace Syntax

/-- A value is no source because of its type or its kind. -/
theorem sourceOf_error {v : Value} {fault : TextFault} (h : sourceOf v = .error fault) :
    (∃ type, fault = .objectNotSource type) ∨ ∃ kind, fault = .notSource kind := by
  unfold sourceOf at h
  split at h
  · cases h
  · split at h
    · cases h
    · cases h
      exact .inl ⟨_, rfl⟩
  · cases h
    exact .inr ⟨_, rfl⟩

/-- An assignment fails only in its expression. -/
theorem assign_throws (engine : Construct.Engine) (key : Name) (e : Expr) :
    Throws e.HasFault (assign engine key e) := by
  unfold assign
  have hput (v : Value) : Throws e.HasFault (LoadStep.put key.text v) := by
    intro l located h
    simp at h
  have howner : Throws e.HasFault (LoadStep.setOwner key.text) := by
    intro l located h
    simp at h
  exact .bind howner fun _ =>
    .bind (LoadStep.evaluate_throws fun store => e.evaluate_throws engine store) hput

end Syntax

namespace Load

/-- No source is too deep to be fetched. -/
theorem fetch_isTooDeep {m : Machine} {source : TextSource} {e : LoadError}
    (h : fetch m source = .error e) : e.isTooDeep = false := by
  have hfile (path : String) (s : TextSource) (hpath : fileText m.tree path s = .error e) :
      e.isTooDeep = false := by
    unfold fileText at hpath
    cases htext : m.tree.text path with
    | error cause =>
      rw [htext] at hpath
      cases hpath
      rfl
    | ok text =>
      rw [htext] at hpath
      cases hpath
  cases source with
  | file path => exact hfile path _ h
  | resource name =>
    simp only [fetch] at h
    split at h
    · cases h
      rfl
    · exact hfile _ _ h
  | url url =>
    simp only [fetch, urlText] at h
    split at h
    · cases h
      rfl
    next parsed _ =>
      split at h
      · split at h
        · cases h
          rfl
        · exact hfile _ _ h
      · split at h
        · unfold pageText at h
          split at h <;> cases h
          rfl
        · cases h
          rfl

end Load

end TypedConfig
