import TypedConfig.Proofs.Outcome

/-!
# Joining arrays

Joining is a partial operation on arrays: the untyped empty array may stand on either side of any
other one, and two further arrays are joined if they declare the same kind. It is associative where
it is defined and where it is not, so how several arrays are grouped matters neither to what they
join to nor to whether they do. A chain of joins in a text is grouped from the left.
-/

namespace TypedConfig

namespace Value

/-- What two arrays join to, an array being the kind that it declares and its items. -/
def joinArrays (a b : Kind × List Value) : Option (Kind × List Value) :=
  appendArrays a.1 a.2 b.1 b.2

/-- The array without items that declares no kind for them. -/
def untypedEmpty : Kind × List Value := (.any, [])

/-- What several arrays join to from the left. -/
def joinAll (a : Kind × List Value) : List (Kind × List Value) → Option (Kind × List Value)
  | [] => some a
  | b :: rest => (joinArrays a b).bind fun c => joinAll c rest

variable {a b c : Kind × List Value}

/-- Only the empty array without a kind is the untyped empty one. -/
theorem isUntypedEmpty_iff : isUntypedEmpty a.1 a.2 = true ↔ a = untypedEmpty := by
  rw [Prod.ext_iff]
  unfold isUntypedEmpty
  split
  next hkind hitems => exact iff_of_true rfl ⟨hkind, hitems⟩
  next hne => exact iff_of_false Bool.false_ne_true fun h => hne h.1 h.2

/-- The untyped empty array changes nothing on the right. -/
@[simp] theorem joinArrays_untypedEmpty (a : Kind × List Value) :
    joinArrays a untypedEmpty = some a := by
  simp [joinArrays, untypedEmpty, appendArrays, isUntypedEmpty]

/-- The untyped empty array changes nothing on the left. -/
@[simp] theorem untypedEmpty_joinArrays (b : Kind × List Value) :
    joinArrays untypedEmpty b = some b := by
  unfold joinArrays appendArrays
  split
  next hright =>
    have hkind : untypedEmpty.1 = b.1 := by
      rcases hright with hkind | hempty
      · exact hkind
      · rw [isUntypedEmpty_iff.mp hempty]
    exact congrArg some (Prod.ext hkind rfl)
  next =>
    rw [if_pos (isUntypedEmpty_iff.mpr rfl)]
    rfl

/-- Of two arrays that are not empty and untyped, the declared kinds decide. -/
theorem joinArrays_of_ne (ha : a ≠ untypedEmpty) (hb : b ≠ untypedEmpty) :
    joinArrays a b = if a.1 = b.1 then some (a.1, a.2 ++ b.2) else none := by
  simp only [joinArrays, appendArrays, isUntypedEmpty_iff, ha, hb, or_false, if_false]

/-- An array that is not empty and untyped stays so with further items. -/
theorem append_ne_untypedEmpty (ha : a ≠ untypedEmpty) (items : List Value) :
    (a.1, a.2 ++ items) ≠ untypedEmpty := by
  intro h
  obtain ⟨hkind, hitems⟩ := Prod.mk.inj h
  exact ha (Prod.ext hkind (List.append_eq_nil_iff.mp hitems).1)

/-- How two arrays come to be joined. -/
theorem joinArrays_cases (h : joinArrays a b = some c) :
    (a = untypedEmpty ∧ c = b) ∨ (b = untypedEmpty ∧ c = a) ∨
      (a.1 = b.1 ∧ c = (a.1, a.2 ++ b.2)) := by
  by_cases ha : a = untypedEmpty
  · subst ha
    rw [untypedEmpty_joinArrays, Option.some.injEq] at h
    exact .inl ⟨rfl, h.symm⟩
  · by_cases hb : b = untypedEmpty
    · subst hb
      rw [joinArrays_untypedEmpty, Option.some.injEq] at h
      exact .inr (.inl ⟨rfl, h.symm⟩)
    · rw [joinArrays_of_ne ha hb] at h
      split at h <;> cases h
      next hkind => exact .inr (.inr ⟨hkind, rfl⟩)

/-- The items of a join are those of the left array in front of those of the right one. -/
theorem joinArrays_items (h : joinArrays a b = some c) : c.2 = a.2 ++ b.2 := by
  obtain ⟨rfl, rfl⟩ | ⟨rfl, rfl⟩ | ⟨_, rfl⟩ := joinArrays_cases h
  · rfl
  · exact (List.append_nil _).symm
  · rfl

/-- A join declares a kind that accepts its items if both arrays do. -/
theorem joinArrays_accepts (ha : ∀ v ∈ a.2, a.1.accepts v = true)
    (hb : ∀ v ∈ b.2, b.1.accepts v = true) (h : joinArrays a b = some c) :
    ∀ v ∈ c.2, c.1.accepts v = true := by
  obtain ⟨_, rfl⟩ | ⟨_, rfl⟩ | ⟨hkind, rfl⟩ := joinArrays_cases h
  · exact hb
  · exact ha
  · intro v hv
    rcases List.mem_append.mp hv with hleft | hright
    · exact ha v hleft
    · rw [hkind]
      exact hb v hright

/-- Three arrays join to the same array in both groupings, or in neither. -/
theorem joinArrays_assoc (a b c : Kind × List Value) :
    (joinArrays a b).bind (joinArrays · c) = (joinArrays b c).bind (joinArrays a ·) := by
  by_cases ha : a = untypedEmpty
  · subst ha
    simp
  · by_cases hb : b = untypedEmpty
    · subst hb
      simp
    · by_cases hc : c = untypedEmpty
      · subst hc
        simp
      · have hfront := joinArrays_of_ne (append_ne_untypedEmpty ha b.2) hc
        have hback := joinArrays_of_ne ha (append_ne_untypedEmpty hb c.2)
        rw [joinArrays_of_ne ha hb, joinArrays_of_ne hb hc]
        -- Both groupings ask that all three declare one kind.
        by_cases hab : a.1 = b.1
        · by_cases hbc : b.1 = c.1
          · rw [if_pos hab, if_pos hbc, Option.bind_some, Option.bind_some, hfront, hback,
              if_pos (hab.trans hbc), if_pos hab, List.append_assoc]
          · rw [if_pos hab, if_neg hbc, Option.bind_some, Option.bind_none, hfront,
              if_neg (hab ▸ hbc)]
        · by_cases hbc : b.1 = c.1
          · rw [if_neg hab, if_pos hbc, Option.bind_none, Option.bind_some, hback, if_neg hab]
          · rw [if_neg hab, if_neg hbc, Option.bind_none, Option.bind_none]

/-- An array is joined to several others from the left as it is joined to what they join to. -/
theorem joinArrays_bind_joinAll (a b : Kind × List Value) (rest : List (Kind × List Value)) :
    ((joinArrays a b).bind fun c => joinAll c rest) = (joinAll b rest).bind (joinArrays a ·) := by
  induction rest generalizing b with
  | nil => simp [joinAll]
  | cons d rest ih =>
    calc ((joinArrays a b).bind fun c => joinAll c (d :: rest))
      _ = ((joinArrays a b).bind (joinArrays · d)).bind (joinAll · rest) := by
        simp only [joinAll, Option.bind_assoc]
      _ = (joinArrays b d).bind fun e => (joinArrays a e).bind (joinAll · rest) := by
        rw [joinArrays_assoc, Option.bind_assoc]
      _ = (joinArrays b d).bind fun e => (joinAll e rest).bind (joinArrays a ·) := by simp only [ih]
      _ = (joinAll b (d :: rest)).bind (joinArrays a ·) := by rw [joinAll, Option.bind_assoc]

/-- Several arrays may be cut anywhere, and what the two parts join to be joined. -/
theorem joinAll_append (a b : Kind × List Value) (front back : List (Kind × List Value)) :
    joinAll a (front ++ b :: back) =
      (joinAll a front).bind fun left => (joinAll b back).bind (joinArrays left ·) := by
  induction front generalizing a with
  | nil => exact joinArrays_bind_joinAll a b back
  | cons c front ih => simp only [List.cons_append, joinAll, Option.bind_assoc, ih]

end Value

namespace Syntax

open Value (joinArrays joinAll untypedEmpty)

variable {engine : Construct.Engine} {store : Store}

/-- An expression followed by further ones, each of them joined to what stands before it at a place
of its own. -/
def Expr.chain (first : Expr) : List (Expr × Source.Span) → Expr
  | [] => first
  | (e, place) :: rest => Expr.chain (.concat first e place) rest

/-- Two arrays as values are joined, or their kinds are reported. -/
theorem joinValues_arrays (a b : Kind × List Value) :
    joinValues (.array a.1 a.2) (.array b.1 b.2) =
      match joinArrays a b with
      | some c => .ok (.array c.1 c.2)
      | none => .error (.notAppended a.1 b.1) := by
  unfold joinArrays
  cases hjoined : Value.appendArrays a.1 a.2 b.1 b.2 <;> simp only [joinValues, hjoined]

/-- Two expressions that have values are joined at their place. -/
theorem Expr.evaluate_concat {left right : Expr} (place : Source.Span) {t u t' : Trail}
    {v w : Value} (hleft : outcome (left.evaluate engine store) t = (.ok v, u))
    (hright : outcome (right.evaluate engine store) u = (.ok w, t')) :
    outcome ((Expr.concat left right place).evaluate engine store) t =
      ((joinValues v w).mapError (⟨place, ·⟩), t') := by
  rw [Expr.evaluate, outcome_bind_ok hleft]
  refine (outcome_bind_ok hright).trans ?_
  cases joinValues v w <;> rfl

/-- A chain fails with its first expression. -/
theorem Expr.evaluate_chain_error {first : Expr} {t t' : Trail} {e : Located}
    (h : outcome (first.evaluate engine store) t = (.error e, t'))
    (rest : List (Expr × Source.Span)) :
    outcome ((first.chain rest).evaluate engine store) t = (.error e, t') := by
  induction rest generalizing first with
  | nil => exact h
  | cons next rest ih =>
    refine ih ?_
    rw [Expr.evaluate, outcome_bind_error h]

/-- A chain of expressions whose values are arrays comes to what these join to, or fails at one of
the joins. -/
theorem Expr.evaluate_chain {first : Expr} {rest : List (Expr × Source.Span)} {t u t' : Trail}
    {a : Kind × List Value} {arrays : List (Kind × List Value)}
    (hfirst : outcome (first.evaluate engine store) t = (.ok (.array a.1 a.2), u))
    (hrest : outcome (Expr.evaluateAll engine store (rest.map Prod.fst)) u =
      (.ok (arrays.map fun b => .array b.1 b.2), t')) :
    match joinAll a arrays with
    | some c => outcome ((first.chain rest).evaluate engine store) t = (.ok (.array c.1 c.2), t')
    | none => ∃ place ∈ rest.map Prod.snd, ∃ k l t'',
        outcome ((first.chain rest).evaluate engine store) t =
          (.error ⟨place, .notAppended k l⟩, t'') := by
  induction rest generalizing first a arrays u with
  | nil =>
    rw [List.map_nil, Expr.evaluateAll, outcome_pure] at hrest
    obtain ⟨harrays, rfl⟩ := Prod.mk.inj hrest
    rw [Except.ok.injEq, eq_comm, List.map_eq_nil_iff] at harrays
    subst harrays
    exact hfirst
  | cons next rest ih =>
    obtain ⟨e, place⟩ := next
    rw [List.map_cons, Expr.evaluateAll] at hrest
    obtain ⟨v, between, hvalue, hrest⟩ := outcome_bind_eq_ok hrest
    obtain ⟨values, between', hvalues, hpure⟩ := outcome_bind_eq_ok hrest
    rw [outcome_pure] at hpure
    obtain ⟨hcons, rfl⟩ := Prod.mk.inj hpure
    obtain ⟨b, arrays, rfl, rfl, rfl⟩ := List.map_eq_cons_iff.mp (Except.ok.inj hcons).symm
    -- The first two expressions of the chain are the first one of the chain that is left.
    have hfront := Expr.evaluate_concat place hfirst hvalue
    rw [joinValues_arrays] at hfront
    rw [joinAll]
    cases hjoined : joinArrays a b with
    | some c =>
      rw [hjoined] at hfront
      have hlater := ih hfront hvalues
      rw [Option.bind_some]
      cases hall : joinAll c arrays with
      | some d =>
        rw [hall] at hlater
        exact hlater
      | none =>
        rw [hall] at hlater
        obtain ⟨place', hplace, hfails⟩ := hlater
        exact ⟨place', .tail _ hplace, hfails⟩
    | none =>
      rw [hjoined] at hfront
      exact ⟨place, .head _, a.1, b.1, between, Expr.evaluate_chain_error hfront rest⟩

/-- Joining makes a partial monoid of the arrays. The untyped empty array is its unit, both
groupings of three arrays are defined alike and equal, and two arrays that are no units are joined
exactly if they declare the same kind. A join has the items of both arrays in order, and declares a
kind that accepts them if both arrays do. The evaluation of a chain joins arrays in this way, and
whether and to what it joins them may be found by cutting the chain anywhere. -/
theorem joinArrays_partial_monoid :
    (∀ a, joinArrays untypedEmpty a = some a ∧ joinArrays a untypedEmpty = some a) ∧
    (∀ a b c, (joinArrays a b).bind (joinArrays · c) = (joinArrays b c).bind (joinArrays a ·)) ∧
    (∀ a b, a ≠ untypedEmpty → b ≠ untypedEmpty →
      ((joinArrays a b).isSome = true ↔ a.1 = b.1)) ∧
    (∀ a b c, joinArrays a b = some c → c.2 = a.2 ++ b.2 ∧
      ((∀ v ∈ a.2, a.1.accepts v = true) → (∀ v ∈ b.2, b.1.accepts v = true) →
        ∀ v ∈ c.2, c.1.accepts v = true)) ∧
    (∀ a b, joinValues (.array a.1 a.2) (.array b.1 b.2) =
      match joinArrays a b with
      | some c => .ok (.array c.1 c.2)
      | none => .error (.notAppended a.1 b.1)) ∧
    (∀ engine store first rest t u t' a arrays,
      outcome (Expr.evaluate engine store first) t = (.ok (.array a.1 a.2), u) →
      outcome (Expr.evaluateAll engine store (rest.map Prod.fst)) u =
        (.ok (arrays.map fun b => .array b.1 b.2), t') →
      match joinAll a arrays with
      | some c => outcome ((first.chain rest).evaluate engine store) t = (.ok (.array c.1 c.2), t')
      | none => ∃ place ∈ rest.map Prod.snd, ∃ k l t'',
          outcome ((first.chain rest).evaluate engine store) t =
            (.error ⟨place, .notAppended k l⟩, t'')) ∧
    ∀ a b front back, joinAll a (front ++ b :: back) =
      (joinAll a front).bind fun left => (joinAll b back).bind (joinArrays left ·) := by
  refine ⟨fun a => ⟨Value.untypedEmpty_joinArrays a, Value.joinArrays_untypedEmpty a⟩,
    Value.joinArrays_assoc, fun a b ha hb => ?_, fun a b c h => ?_, joinValues_arrays,
    fun _ _ _ _ _ _ _ _ _ hfirst hrest => Expr.evaluate_chain hfirst hrest,
    Value.joinAll_append⟩
  · rw [Value.joinArrays_of_ne ha hb]
    split
    next hkind => exact iff_of_true rfl hkind
    next hkind => exact iff_of_false Bool.false_ne_true hkind
  · exact ⟨Value.joinArrays_items h, fun ha hb => Value.joinArrays_accepts ha hb h⟩

/-- An array of anything with an item is not joined to an empty array of integers. In the chain
`{} ^ {1} ^ {} ^ {2}` every second array is the unit, and `{1} ^ {} ^ {"x"}` fails. -/
theorem joinArrays_partial_monoid_chains :
    let place : Source.Span := default
    let empty := Expr.array none [] place
    let single (l : Literal) := Expr.array none [.literal l place] place
    let store := Store.empty
    let t : Trail := ⟨.start ⟨.directory [], []⟩ [], []⟩
    (joinArrays (.any, [.int 1]) (.int, [])).isSome = false ∧
      (∀ v ∈ [Value.int 1, .int 2], Kind.int.accepts v = true) ∧
      outcome ((empty.chain [(single (.int 1), place), (empty, place),
        (single (.int 2), place)]).evaluate .standard store) t =
          (.ok (.array .int [.int 1, .int 2]), t) ∧
      ∃ k l t', outcome (((single (.int 1)).chain [(empty, place),
        (single (.string "x"), place)]).evaluate .standard store) t =
          (.error ⟨place, .notAppended k l⟩, t') := by
  intro place empty single store t
  obtain ⟨_, _, hdefined, hitems, _, hchain, _⟩ := joinArrays_partial_monoid
  refine ⟨?_, ?_, ?_, ?_⟩
  · have hkinds := hdefined (.any, [.int 1]) (.int, []) (by simp [untypedEmpty])
      (by simp [untypedEmpty])
    exact Bool.eq_false_iff.mpr fun h => nomatch hkinds.mp h
  · exact (hitems (.int, [.int 1]) (.int, [.int 2]) (.int, [.int 1, .int 2]) rfl).2
      (by simp [Kind.accepts]) (by simp [Kind.accepts])
  · exact hchain .standard store empty [(single (.int 1), place), (empty, place),
      (single (.int 2), place)] t t t untypedEmpty
      [(.int, [.int 1]), untypedEmpty, (.int, [.int 2])] rfl rfl
  · obtain ⟨_, hplace, k, l, t', hfails⟩ := hchain .standard store (single (.int 1))
      [(empty, place), (single (.string "x"), place)] t t t (.int, [.int 1])
      [untypedEmpty, (.string, [.string "x"])] rfl rfl
    rw [List.eq_of_mem_replicate (n := 2) hplace] at hfails
    exact ⟨k, l, t', hfails⟩

end Syntax

end TypedConfig
