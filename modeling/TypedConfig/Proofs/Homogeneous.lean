import Mathlib.Data.List.Forall2
import TypedConfig.Load.Evaluate

/-!
# Homogeneous values

A value is homogeneous if each array in it, however deep, declares a kind that accepts all of its
elements. Literals are made so, joining arrays keeps them so, and so does coercion, which widens
the elements together with the declared kind.
-/

namespace TypedConfig

mutual

/-- Whether each array in a value declares a kind that accepts its elements. -/
def Value.isHomogeneous : Value → Bool
  | .array element items => items.all (element.accepts ·) && Value.areHomogeneous items
  | .object _ content => content.isHomogeneous
  | _ => true

/-- Whether all of some values are homogeneous. -/
def Value.areHomogeneous : List Value → Bool
  | [] => true
  | v :: vs => v.isHomogeneous && Value.areHomogeneous vs

/-- Whether the values of all entries are homogeneous. -/
def Value.entriesAreHomogeneous : List (String × Value) → Bool
  | [] => true
  | (_, v) :: rest => v.isHomogeneous && Value.entriesAreHomogeneous rest

/-- Whether the entries of a map, or the items of a list, are homogeneous. -/
def Content.isHomogeneous : Content → Bool
  | .map entries => Value.entriesAreHomogeneous entries
  | .list items => Value.areHomogeneous items
  | _ => true

end

namespace Value

/-- Values are homogeneous if each of them is. -/
theorem areHomogeneous_iff (vs : List Value) :
    areHomogeneous vs = true ↔ ∀ v ∈ vs, v.isHomogeneous = true := by
  induction vs with
  | nil => simp [areHomogeneous]
  | cons v vs ih => simp [areHomogeneous, ih]

/-- Entries are homogeneous if the value of each of them is. -/
theorem entriesAreHomogeneous_iff (entries : List (String × Value)) :
    entriesAreHomogeneous entries = true ↔ ∀ entry ∈ entries, entry.2.isHomogeneous = true := by
  induction entries with
  | nil => simp [entriesAreHomogeneous]
  | cons entry entries ih => simp [entriesAreHomogeneous, ih]

/-- An array is homogeneous if its kind accepts its items and they are homogeneous. -/
theorem isHomogeneous_array (element : Kind) (items : List Value) :
    (array element items).isHomogeneous = true ↔
      ∀ v ∈ items, element.accepts v = true ∧ v.isHomogeneous = true := by
  simp only [isHomogeneous, Bool.and_eq_true, List.all_eq_true, areHomogeneous_iff, forall_and]

/-- Some items of a homogeneous array are a homogeneous array. -/
theorem isHomogeneous_array_subset {element : Kind} {items items' : List Value}
    (h : (array element items).isHomogeneous = true) (hsubset : items' ⊆ items) :
    (array element items').isHomogeneous = true := by
  rw [isHomogeneous_array] at h ⊢
  exact fun v hv => h v (hsubset hv)

/-- An array of texts is homogeneous. -/
theorem isHomogeneous_strings (items : List String) : (strings items).isHomogeneous = true := by
  rw [strings, isHomogeneous_array]
  intro v hv
  obtain ⟨s, _, rfl⟩ := List.mem_map.mp hv
  exact ⟨rfl, rfl⟩

/-- Arrays that can be appended declare one kind, except that an empty one may declare none. -/
theorem appendArrays_isHomogeneous {k l element : Kind} {xs ys items : List Value}
    (hxs : (array k xs).isHomogeneous = true) (hys : (array l ys).isHomogeneous = true)
    (h : appendArrays k xs l ys = some (element, items)) :
    (array element items).isHomogeneous = true := by
  rw [isHomogeneous_array] at hxs hys ⊢
  have hempty {k : Kind} {xs : List Value} (huntyped : isUntypedEmpty k xs = true) : xs = [] := by
    unfold isUntypedEmpty at huntyped
    split at huntyped
    · rfl
    · cases huntyped
  unfold appendArrays at h
  intro v hv
  split at h
  next hleft =>
    cases h
    rcases List.mem_append.mp hv with hx | hy
    · exact hxs v hx
    · rcases hleft with rfl | huntyped
      · exact hys v hy
      · rw [hempty huntyped] at hy
        cases hy
  next =>
    split at h
    next huntyped =>
      cases h
      rw [hempty huntyped] at hv
      exact hys v hv
    next => cases h

end Value

namespace Kind

/-- A kind accepts itself. -/
theorem acceptsKind_refl (kind : Kind) : kind.acceptsKind kind = true := by
  induction kind with
  | array element ih => exact ih
  | _ => simp [acceptsKind]

/-- What a coercion can do: it leaves a value that the kind accepts as it is, widens a number, or
coerces the elements of an array. -/
theorem coerce_cases {kind : Kind} {v w : Value} (h : kind.coerce v = some w) :
    (w = v ∧ kind.accepts v = true) ∨
    (∃ n, kind = .long ∧ v = .int n ∧ w = .long n.toInt64) ∨
    (∃ x, kind = .double ∧ v = .float x ∧ w = .double x.widen) ∨
    (∃ want given items items', kind = .array want ∧ v = .array given items ∧
      items.mapM want.coerce = some items' ∧ w = .array want items') := by
  unfold coerce at h
  split at h
  · cases h
    exact .inl ⟨rfl, rfl⟩
  · cases h
    exact .inr (.inl ⟨_, rfl, rfl, rfl⟩)
  · cases h
    exact .inr (.inr (.inl ⟨_, rfl, rfl, rfl⟩))
  next want given items =>
    split at h
    · cases h
    next haccepts =>
      split at h
      · cases h
        exact .inl ⟨rfl, by simpa using haccepts⟩
      · obtain ⟨items', hitems, rfl⟩ := Option.map_eq_some_iff.mp h
        exact .inr (.inr (.inr ⟨want, given, items, items', rfl, rfl, hitems, rfl⟩))
  next =>
    split at h
    next haccepts =>
      cases h
      exact .inl ⟨rfl, haccepts⟩
    next => cases h

/-- Items that are coerced keep their order. -/
theorem forall₂_of_mapM {f : Value → Option Value} {items items' : List Value}
    (h : items.mapM f = some items') : List.Forall₂ (fun v w => f v = some w) items items' := by
  induction items generalizing items' with
  | nil =>
    cases h
    exact .nil
  | cons v items ih =>
    rw [List.mapM_cons] at h
    obtain ⟨w, hw, h⟩ := Option.bind_eq_some_iff.mp h
    obtain ⟨rest, hrest, h⟩ := Option.bind_eq_some_iff.mp h
    cases h
    exact .cons hw (ih hrest)

/-- Each coerced item comes from an item. -/
theorem mem_of_mapM {f : Value → Option Value} {items items' : List Value}
    (h : items.mapM f = some items') {w : Value} (hw : w ∈ items') : ∃ v ∈ items, f v = some w := by
  replace h := forall₂_of_mapM h
  induction h with
  | nil => cases hw
  | cons hfirst _ ih =>
    rcases List.mem_cons.mp hw with rfl | hw
    · exact ⟨_, .head _, hfirst⟩
    · obtain ⟨v, hv, hf⟩ := ih hw
      exact ⟨v, .tail _ hv, hf⟩

/-- Coercion gives what the kind accepts. -/
theorem coerce_accepts {kind : Kind} {v w : Value} (h : kind.coerce v = some w) :
    kind.accepts w = true := by
  induction kind generalizing v w with
  | array want ih =>
    obtain ⟨rfl, haccepts⟩ | ⟨_, hkind, _⟩ | ⟨_, hkind, _⟩ |
      ⟨_, _, items, items', hkind, _, hitems, rfl⟩ := coerce_cases h
    · exact haccepts
    · cases hkind
    · cases hkind
    · cases hkind
      cases items' with
      | nil => simp [accepts, acceptsKind_refl]
      | cons w ws =>
        simp only [accepts, List.isEmpty_cons, Bool.false_eq_true, if_false, List.all_eq_true]
        intro w' hw'
        obtain ⟨v', _, hv'⟩ := mem_of_mapM hitems hw'
        exact ih hv'
  | _ =>
    obtain ⟨rfl, haccepts⟩ | ⟨_, hkind, _, rfl⟩ | ⟨_, hkind, _, rfl⟩ | ⟨_, _, _, _, hkind, _⟩ :=
      coerce_cases h
    · exact haccepts
    all_goals cases hkind
    all_goals rfl

/-- Coercion keeps what numbers satisfy, and what an array satisfies exactly if its items do. -/
theorem coerce_keeps {P : Value → Prop} (hlong : ∀ n, P (.long n)) (hdouble : ∀ x, P (.double x))
    (hitems : ∀ {given items}, P (.array given items) → ∀ v ∈ items, P v)
    (harray : ∀ {want items}, (∀ w ∈ items, want.accepts w = true ∧ P w) → P (.array want items))
    {kind : Kind} {v w : Value} (hv : P v) (h : kind.coerce v = some w) : P w := by
  induction kind generalizing v w with
  | array want ih =>
    obtain ⟨rfl, _⟩ | ⟨_, hkind, _⟩ | ⟨_, hkind, _⟩ |
      ⟨_, _, items, items', hkind, rfl, hcoerced, rfl⟩ := coerce_cases h
    · exact hv
    · cases hkind
    · cases hkind
    · cases hkind
      refine harray fun w hw => ?_
      obtain ⟨v, hmem, hcoerce⟩ := mem_of_mapM hcoerced hw
      exact ⟨coerce_accepts hcoerce, ih (hitems hv v hmem) hcoerce⟩
  | _ =>
    obtain ⟨rfl, _⟩ | ⟨n, _, _, rfl⟩ | ⟨x, _, _, rfl⟩ | ⟨_, _, _, _, hkind, _⟩ := coerce_cases h
    · exact hv
    · exact hlong n.toInt64
    · exact hdouble x.widen
    · cases hkind

/-- Coercion keeps values homogeneous. -/
theorem coerce_isHomogeneous {kind : Kind} {v w : Value} (hv : v.isHomogeneous = true)
    (h : kind.coerce v = some w) : w.isHomogeneous = true := by
  refine coerce_keeps (P := (·.isHomogeneous = true)) (fun _ => rfl) (fun _ => rfl) ?_ ?_ hv h
  · intro given items hv v hmem
    exact ((Value.isHomogeneous_array given items).mp hv v hmem).2
  · intro want items hitems
    exact (Value.isHomogeneous_array want items).mpr hitems

end Kind

end TypedConfig
