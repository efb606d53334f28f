import TypedConfig.Proofs.Homogeneous

/-!
# The order of widening

One kind accepts another if each value of the second may stand where the first is asked for. This is
a partial order, and the values that a kind accepts grow along it: acceptance of a value looks at
its items, acceptance of a kind at what an array declares, and the two agree on every array whose
declared kind accepts its items. An empty array is where they meet, since it has nothing but what it
declares.
-/

namespace TypedConfig

/-- Whether an array declares a kind that accepts each of its own items. Other values declare
nothing. -/
def Value.itemsFit : Value → Bool
  | .array element items => items.all (element.accepts ·)
  | _ => true

/-- The items of a homogeneous value fit its kind. -/
theorem Value.itemsFit_of_isHomogeneous {v : Value} (h : v.isHomogeneous = true) :
    v.itemsFit = true := by
  cases v with
  | array element items =>
    rw [isHomogeneous_array] at h
    exact List.all_eq_true.mpr fun item hitem => (h item hitem).1
  | _ => rfl

namespace Kind

variable {a b c : Kind}

/-- What a kind accepts beside itself. -/
theorem acceptsKind_cases (h : a.acceptsKind b = true) :
    a = b ∨ a = .any ∨ (a = .long ∧ b = .int) ∨ (a = .double ∧ b = .float) ∨
      ∃ want given, a = .array want ∧ b = .array given ∧ want.acceptsKind given = true := by
  unfold acceptsKind at h
  split at h
  next => exact .inr (.inl rfl)
  next => exact .inr (.inr (.inl ⟨rfl, rfl⟩))
  next => exact .inr (.inr (.inr (.inl ⟨rfl, rfl⟩)))
  next want given => exact .inr (.inr (.inr (.inr ⟨want, given, rfl, rfl, h⟩)))
  next => exact .inl (beq_iff_eq.mp h)

/-- A kind of arrays accepts kinds of arrays, as its elements do. -/
theorem array_acceptsKind {want : Kind} (h : (array want).acceptsKind b = true) :
    ∃ given, b = .array given ∧ want.acceptsKind given = true := by
  obtain hb | hwant | ⟨hwant, _⟩ | ⟨hwant, _⟩ | ⟨_, given, hwant, hb, hgiven⟩ := acceptsKind_cases h
  · exact ⟨want, hb.symm, acceptsKind_refl want⟩
  · cases hwant
  · cases hwant
  · cases hwant
  · cases hwant
    exact ⟨given, hb, hgiven⟩

/-- Only `any` accepts `any`. -/
theorem eq_any_of_acceptsKind (h : a.acceptsKind .any = true) : a = .any := by
  obtain h | h | ⟨_, h⟩ | ⟨_, h⟩ | ⟨_, _, _, h, _⟩ := acceptsKind_cases h
  · exact h
  · exact h
  all_goals cases h

/-- Acceptance of kinds is transitive. -/
theorem acceptsKind_trans (hab : a.acceptsKind b = true) (hbc : b.acceptsKind c = true) :
    a.acceptsKind c = true := by
  induction a generalizing b c with
  | any => rfl
  | array want ih =>
    obtain ⟨middle, rfl, hmiddle⟩ := array_acceptsKind hab
    obtain ⟨given, rfl, hgiven⟩ := array_acceptsKind hbc
    exact ih hmiddle hgiven
  | _ =>
    obtain rfl | h | ⟨h, rfl⟩ | ⟨h, rfl⟩ | ⟨_, _, h, _, _⟩ := acceptsKind_cases hab
    · exact hbc
    all_goals cases h
    -- The narrow kinds of numbers accept nothing but themselves.
    all_goals
      obtain rfl | h | ⟨h, _⟩ | ⟨h, _⟩ | ⟨_, _, h, _, _⟩ := acceptsKind_cases hbc
      · rfl
      all_goals cases h

/-- Kinds that accept each other are the same. -/
theorem acceptsKind_antisymm (hab : a.acceptsKind b = true) (hba : b.acceptsKind a = true) :
    a = b := by
  induction a generalizing b with
  | any => exact (eq_any_of_acceptsKind hba).symm
  | array want ih =>
    obtain ⟨given, rfl, hgiven⟩ := array_acceptsKind hab
    exact congrArg array (ih hgiven hba)
  | _ =>
    obtain h | h | ⟨h, rfl⟩ | ⟨h, rfl⟩ | ⟨_, _, h, _, _⟩ := acceptsKind_cases hab
    · exact h
    all_goals cases h
    all_goals cases hba

/-- The values that an array kind accepts: what an empty array declares is asked, else the items. -/
theorem array_accepts_iff {want : Kind} {v : Value} :
    (array want).accepts v = true ↔ ∃ given items, v = .array given items ∧
      (items = [] → given = .any ∨ want.acceptsKind given = true) ∧
      ∀ item ∈ items, want.accepts item = true := by
  constructor
  · intro h
    cases v with
    | array given items =>
      refine ⟨given, items, rfl, ?_⟩
      cases items <;> simpa [accepts] using h
    | _ => cases h
  · rintro ⟨given, items, rfl, hempty, hitems⟩
    cases items with
    | nil => simpa [accepts] using hempty rfl
    | cons item items => simpa [accepts] using hitems

/-- A kind accepts all values that the kinds that it accepts do. -/
theorem accepts_of_acceptsKind {v : Value} (hab : a.acceptsKind b = true)
    (hv : b.accepts v = true) : a.accepts v = true := by
  induction a generalizing b v with
  | any => rfl
  | array want ih =>
    obtain ⟨middle, rfl, hmiddle⟩ := array_acceptsKind hab
    obtain ⟨given, items, rfl, hempty, hitems⟩ := array_accepts_iff.mp hv
    refine array_accepts_iff.mpr ⟨given, items, rfl, fun hnil => ?_, fun item hitem => ?_⟩
    · exact (hempty hnil).imp_right (acceptsKind_trans hmiddle)
    · exact ih hmiddle (hitems item hitem)
  | _ =>
    obtain rfl | h | ⟨h, rfl⟩ | ⟨h, rfl⟩ | ⟨_, _, h, _, _⟩ := acceptsKind_cases hab
    · exact hv
    all_goals cases h
    all_goals
      cases v <;> cases hv
      rfl

/-- The kind of a value accepts the value exactly if the value has items that fit. -/
theorem accepts_kind (v : Value) : v.kind.accepts v = v.itemsFit := by
  cases v with
  | array element items =>
    cases items with
    | nil => simp [Value.kind, Value.itemsFit, accepts, acceptsKind_refl]
    | cons item items => rfl
  | object id content => simp [Value.kind, Value.itemsFit, accepts, Content.isA]
  | _ => rfl

/-- Widening is a partial order of kinds, and a kind accepts the values that any kind below it
accepts. The kind of a value accepts the value exactly if what it declares for its own items fits
them, so in particular if all arrays in it do; and then it is accepted wherever its kind is. -/
theorem acceptsKind_order :
    (∀ a : Kind, a.acceptsKind a = true) ∧
    (∀ a b c : Kind, a.acceptsKind b = true → b.acceptsKind c = true → a.acceptsKind c = true) ∧
    (∀ a b : Kind, a.acceptsKind b = true → b.acceptsKind a = true → a = b) ∧
    (∀ (a b : Kind) (v : Value),
      a.acceptsKind b = true → b.accepts v = true → a.accepts v = true) ∧
    (∀ v : Value, v.kind.accepts v = true ↔ v.itemsFit = true) ∧
    (∀ v : Value, v.isHomogeneous = true → v.kind.accepts v = true) ∧
    ∀ (a : Kind) (v : Value),
      v.itemsFit = true → a.acceptsKind v.kind = true → a.accepts v = true := by
  have hown (v : Value) : v.kind.accepts v = true ↔ v.itemsFit = true := by rw [accepts_kind]
  exact ⟨acceptsKind_refl, fun _ _ _ => acceptsKind_trans, fun _ _ => acceptsKind_antisymm,
    fun _ _ _ => accepts_of_acceptsKind, hown,
    fun v hv => (hown v).mpr (Value.itemsFit_of_isHomogeneous hv),
    fun _ v hfit hkind => accepts_of_acceptsKind hkind ((hown v).mpr hfit)⟩

/-- An array that declares arrays of integers, with an empty array of no declared kind and one
integer in another, may stand where arrays of arrays of long integers are asked for. -/
theorem acceptsKind_order_nested :
    (Value.array (.array .int) [.array .any [], .array .int [.int 1]]).isHomogeneous = true ∧
      (array (.array .long)).acceptsKind (array (.array .int)) = true ∧
      (array (.array .int)).accepts
        (.array (.array .int) [.array .any [], .array .int [.int 1]]) = true ∧
      (array (.array .long)).accepts
        (.array (.array .int) [.array .any [], .array .int [.int 1]]) = true := by
  obtain ⟨_, _, _, hvalue, _, hown, _⟩ := acceptsKind_order
  have hv : (Value.array (.array .int) [.array .any [], .array .int [.int 1]]).isHomogeneous =
      true := by decide
  have hkind : (array (.array .long)).acceptsKind (array (.array .int)) = true := by decide
  have haccepts := hown _ hv
  exact ⟨hv, hkind, haccepts, hvalue _ _ _ hkind haccepts⟩

end Kind

end TypedConfig
