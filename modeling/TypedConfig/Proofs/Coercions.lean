import TypedConfig.Proofs.Guards

/-!
# What coercion makes of a value

Acceptance looks at the items of an array, and at the declared kind where there are none. Coercion
looks at the declared kind first and converts the items only if it is another one than is asked for.
Both come to the same: what is accepted is coerced, whatever its arrays declare, into a value of the
same shape that a second coercion leaves alone. Numbers are widened on the way and nothing else is.
-/

namespace TypedConfig

/-- A value has become another one by the widening of numbers. Arrays may declare another kind for
their elements. -/
inductive Value.Widens : Value → Value → Prop
  | same (v : Value) : Widens v v
  | long {n : Int32} {l : Int64} : l.toInt = n.toInt → Widens (.int n) (.long l)
  | double (x : Decimal.Single) : Widens (.float x) (.double x.widen)
  | array (k l : Kind) {items items' : List Value} :
    List.Forall₂ Widens items items' → Widens (.array k items) (.array l items')

namespace Kind

variable {kind : Kind} {v w : Value}

/-- Whether `any` occurs in a kind. -/
def mentionsAny : Kind → Bool
  | any => true
  | array element => element.mentionsAny
  | _ => false

/-- Only what a kind accepts can be coerced to it. -/
theorem accepts_of_coerce (h : kind.coerce v = some w) : kind.accepts v = true := by
  unfold coerce at h
  split at h
  · rfl
  · rfl
  · rfl
  next =>
    split at h
    · cases h
    next haccepts => simpa using haccepts
  next =>
    split at h
    next haccepts => exact haccepts
    next => cases h

/-- What has been coerced to a kind is left alone when it is coerced to it again. -/
theorem coerce_of_coerce (h : kind.coerce v = some w) : kind.coerce w = some w := by
  have haccepts : kind.accepts w = true := coerce_accepts h
  obtain ⟨rfl, _⟩ | ⟨n, rfl, _, rfl⟩ | ⟨x, rfl, _, rfl⟩ | ⟨want, _, _, items, rfl, _, _, rfl⟩ :=
    coerce_cases h
  · exact h
  · rfl
  · rfl
  · rw [coerce, haccepts]
    simp

/-- Coercion widens numbers and leaves the shape of a value as it is. -/
theorem widens_of_coerce (h : kind.coerce v = some w) : v.Widens w := by
  induction kind generalizing v w with
  | array want ih =>
    obtain ⟨rfl, _⟩ | ⟨_, hkind, _⟩ | ⟨_, hkind, _⟩ |
      ⟨_, given, items, items', hkind, rfl, hitems, rfl⟩ := coerce_cases h
    · exact .same _
    · cases hkind
    · cases hkind
    · cases hkind
      exact .array given want ((forall₂_of_mapM hitems).imp fun _ _ hitem => ih hitem)
  | _ =>
    obtain ⟨rfl, _⟩ | ⟨n, _, rfl, rfl⟩ | ⟨x, _, rfl, rfl⟩ | ⟨_, _, _, _, hkind, _⟩ := coerce_cases h
    · exact .same _
    · exact .long n.toInt_toInt64
    · exact .double x
    · cases hkind

/-- Coercion gives a value of the very kind that is asked for, unless this is `any` or the kind of
an object or leaves the elements of an array open. -/
theorem kind_of_coerce (hany : kind ≠ .any) (hobject : ∀ tag, kind ≠ .object tag)
    (helement : kind ≠ .array .any) (h : kind.coerce v = some w) : w.kind = kind := by
  have haccepts : kind.accepts w = true := coerce_accepts h
  -- Only for long and double numbers and for arrays does coercion do more than accept.
  cases kind with
  | any => exact (hany rfl).elim
  | object tag => exact (hobject tag rfl).elim
  | array want =>
    have hwant : want ≠ .any := fun hwant => helement (hwant ▸ rfl)
    cases v with
    | array given items =>
      rw [coerce] at h
      split at h
      · cases h
      · split at h
        next hsame =>
          cases h
          exact congrArg Kind.array (hsame.resolve_left hwant)
        next =>
          obtain ⟨items', _, rfl⟩ := Option.map_eq_some_iff.mp h
          rfl
    | _ => cases accepts_of_coerce h
  | long => cases v <;> cases h <;> rfl
  | double => cases v <;> cases h <;> rfl
  | _ =>
    cases w <;> cases haccepts
    rfl

/-- A kind coerces exactly the values that it accepts, whatever their arrays declare. The result is
accepted again, stays as it is when it is coerced once more, and is the value with some of its
numbers widened. Unless `any` occurs in the kind or it is that of an object, it is the kind of the
result. -/
theorem coerces_accepted (kind : Kind) (v : Value) :
    ((∃ w, kind.coerce v = some w) ↔ kind.accepts v = true) ∧
      ∀ w, kind.coerce v = some w →
        kind.accepts w = true ∧ kind.coerce w = some w ∧ v.Widens w ∧
          (kind.mentionsAny = false → (∀ tag, kind ≠ .object tag) → w.kind = kind) := by
  refine ⟨⟨fun ⟨w, h⟩ => accepts_of_coerce h, fun h => ?_⟩, fun w h => ?_⟩
  · exact Option.isSome_iff_exists.mp (coerce_isSome h)
  · refine ⟨coerce_accepts h, coerce_of_coerce h, widens_of_coerce h, fun hany hobject => ?_⟩
    refine kind_of_coerce ?_ hobject ?_ h <;> rintro rfl <;> cases hany

/-- An array of two arrays that declare other kinds than their items have, and than are asked for:
one of an integer and a long number, and an empty one. -/
theorem coerces_mislabelled_array :
    let kind := Kind.array (.array .long)
    let v := Value.array .any [.array .int [.int 1, .long 2], .array .any []]
    let w := Value.array (.array .long) [.array .long [.long 1, .long 2], .array .long []]
    kind.coerce v = some w ∧ kind.coerce w = some w ∧ v.Widens w ∧
      kind.mentionsAny = false ∧ (∀ tag, kind ≠ .object tag) ∧ w.kind = kind := by
  intro kind v w
  have hcoerce : kind.coerce v = some w := by rfl
  have hobject : ∀ tag, kind ≠ .object tag := nofun
  obtain ⟨_, hagain, hwidens, hkind⟩ := (coerces_accepted kind v).2 w hcoerce
  exact ⟨hcoerce, hagain, hwidens, rfl, hobject, hkind rfl hobject⟩

end Kind

end TypedConfig
