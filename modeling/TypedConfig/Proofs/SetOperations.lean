import Mathlib.Data.List.Induction
import TypedConfig.Construct.Builtin.Collections
import TypedConfig.Proofs.Products
import TypedConfig.Proofs.TypedReads

/-!
# Sets, unions and intersections

The three types keep some items of an array and drop the others, so what they mean is said by the
positions of the items that are kept. A set keeps each item that no kept one before it equals, a
union is the set of all its arrays behind each other, and an intersection keeps the items of the
first array that each other array has. Nothing is asked of the equality: it may fail between an item
and itself.
-/

namespace TypedConfig

/-- Items are picked from a list at increasing positions. -/
structure PicksAt {α : Type} (items : List α) (positions : List Nat) (picked : List α) : Prop where
  increasing : positions.Pairwise (· < ·)
  items_eq : picked.map some = positions.map (items[·]?)

/-- What stands in a list with a last item is in front of that item or the item itself. -/
theorem getElem?_append_singleton {α : Type} {items : List α} {u v : α} {j : Nat} :
    (items ++ [v])[j]? = some u ↔ items[j]? = some u ∨ j = items.length ∧ v = u := by
  obtain hlt | rfl | hgt := Nat.lt_trichotomy j items.length
  · simp [List.getElem?_append_left hlt, Nat.ne_of_lt hlt]
  · simp
  · have hnone : (items ++ [v])[j]? = none :=
      List.getElem?_eq_none (by simpa [Nat.succ_le_iff] using hgt)
    simp [hnone, List.getElem?_eq_none (Nat.le_of_lt hgt), Nat.ne_of_gt hgt]

namespace PicksAt

variable {α : Type} {items picked : List α} {positions : List Nat}

/-- Nothing is picked from nothing. -/
theorem nil : PicksAt ([] : List α) [] [] := ⟨.nil, rfl⟩

/-- A position at which an item is picked is one of the list. -/
theorem exists_item (h : PicksAt items positions picked) {i : Nat} (hi : i ∈ positions) :
    ∃ v ∈ picked, items[i]? = some v := by
  have hmem : items[i]? ∈ picked.map some := by
    rw [h.items_eq]
    exact List.mem_map_of_mem hi
  obtain ⟨v, hv, hitem⟩ := List.mem_map.mp hmem
  exact ⟨v, hv, hitem.symm⟩

/-- A picked item has a position. -/
theorem exists_position (h : PicksAt items positions picked) {v : α} (hv : v ∈ picked) :
    ∃ i ∈ positions, items[i]? = some v := by
  have hmem : some v ∈ positions.map (items[·]?) := by
    rw [← h.items_eq]
    exact List.mem_map_of_mem hv
  exact List.mem_map.mp hmem

/-- Positions are those of items. -/
theorem lt_length (h : PicksAt items positions picked) {i : Nat} (hi : i ∈ positions) :
    i < items.length := by
  obtain ⟨v, _, hitem⟩ := h.exists_item hi
  exact (List.getElem?_eq_some_iff.mp hitem).1

/-- A last item that is not picked changes nothing. -/
theorem drop_last (h : PicksAt items positions picked) (v : α) :
    PicksAt (items ++ [v]) positions picked := by
  refine ⟨h.increasing, h.items_eq.trans (List.map_congr_left fun i hi => ?_)⟩
  rw [List.getElem?_append_left (h.lt_length hi)]

/-- One more item may be picked at the end. -/
theorem keep_last (h : PicksAt items positions picked) (v : α) :
    PicksAt (items ++ [v]) (positions ++ [items.length]) (picked ++ [v]) := by
  refine ⟨List.pairwise_append.mpr ⟨h.increasing, List.pairwise_singleton _ _, ?_⟩, ?_⟩
  · intro i hi j hj
    rw [List.mem_singleton.mp hj]
    exact h.lt_length hi
  · rw [List.map_append, List.map_append, (h.drop_last v).items_eq]
    simp

end PicksAt

namespace Value

/-- The items of a list that no item kept before them equals. -/
def KeepsFirst (items kept : List Value) : Prop :=
  ∃ positions, PicksAt items positions kept ∧
    kept.Pairwise (fun earlier later => earlier.equal later = false) ∧
    ∀ j v, items[j]? = some v → j ∉ positions →
      ∃ i ∈ positions, i < j ∧ ∃ w, items[i]? = some w ∧ w.equal v = true

/-- The items of a list, each as often as it is there, of which other lists have equal ones. -/
def KeepsShared (items : List Value) (others : List (List Value)) (kept : List Value) : Prop :=
  ∃ positions, PicksAt items positions kept ∧ ∀ j v, items[j]? = some v →
    (j ∈ positions ↔ ∀ other ∈ others, ∃ w ∈ other, w.equal v = true)

/-- A value is in a list if an item equals it. -/
theorem isIn_iff {v : Value} {items : List Value} :
    v.isIn items = true ↔ ∃ w ∈ items, w.equal v = true :=
  List.any_eq_true

/-- A value is not in a list if no item equals it. -/
theorem isIn_eq_false_iff {v : Value} {items : List Value} :
    v.isIn items = false ↔ ∀ w ∈ items, w.equal v = false := by
  simp [isIn]

section

variable {items kept : List Value} {v : Value}

/-- Of the items that are kept none equals an earlier one. -/
theorem KeepsFirst.pairwise (h : KeepsFirst items kept) :
    kept.Pairwise fun earlier later => earlier.equal later = false := by
  obtain ⟨_, _, hapart, _⟩ := h
  exact hapart

/-- Of no items none is kept. -/
theorem KeepsFirst.nil : KeepsFirst [] [] := ⟨[], .nil, .nil, nofun⟩

/-- A last item that a kept one equals is dropped. -/
theorem KeepsFirst.drop_last (h : KeepsFirst items kept) (hv : v.isIn kept = true) :
    KeepsFirst (items ++ [v]) kept := by
  obtain ⟨positions, hpicks, hapart, hdropped⟩ := h
  refine ⟨positions, hpicks.drop_last v, hapart, fun j u hu hj => ?_⟩
  obtain hfront | ⟨rfl, rfl⟩ := getElem?_append_singleton.mp hu
  · obtain ⟨i, hi, hij, w, hw, hequal⟩ := hdropped j u hfront hj
    exact ⟨i, hi, hij, w, getElem?_append_singleton.mpr (.inl hw), hequal⟩
  · obtain ⟨w, hw, hequal⟩ := isIn_iff.mp hv
    obtain ⟨i, hi, hitem⟩ := hpicks.exists_position hw
    exact ⟨i, hi, hpicks.lt_length hi, w, getElem?_append_singleton.mpr (.inl hitem), hequal⟩

/-- A last item that no kept one equals is kept. -/
theorem KeepsFirst.keep_last (h : KeepsFirst items kept) (hv : v.isIn kept = false) :
    KeepsFirst (items ++ [v]) (kept ++ [v]) := by
  obtain ⟨positions, hpicks, hapart, hdropped⟩ := h
  refine ⟨_, hpicks.keep_last v, ?_, fun j u hu hj => ?_⟩
  · refine List.pairwise_append.mpr ⟨hapart, List.pairwise_singleton _ _, fun w hw u hu => ?_⟩
    rw [List.mem_singleton.mp hu]
    exact isIn_eq_false_iff.mp hv w hw
  · rw [List.mem_append, List.mem_singleton, not_or] at hj
    obtain hfront | ⟨rfl, _⟩ := getElem?_append_singleton.mp hu
    · obtain ⟨i, hi, hij, w, hw, hequal⟩ := hdropped j u hfront hj.1
      exact ⟨i, List.mem_append_left _ hi, hij, w, getElem?_append_singleton.mpr (.inl hw), hequal⟩
    · exact (hj.2 rfl).elim

/-- What is filtered by the other lists is what they share. -/
theorem keepsShared_filter (items : List Value) (others : List (List Value)) :
    KeepsShared items others (items.filter fun v => others.all fun other => v.isIn other) := by
  have hshared (v : Value) : (others.all fun other => v.isIn other) = true ↔
      ∀ other ∈ others, ∃ w ∈ other, w.equal v = true := by
    simp only [List.all_eq_true, isIn_iff]
  induction items using List.reverseRecOn with
  | nil => exact ⟨[], .nil, nofun⟩
  | append_singleton items v ih =>
    obtain ⟨positions, hpicks, hpositions⟩ := ih
    cases hv : others.all fun other => v.isIn other with
    | true =>
      rw [List.filter_append, List.filter_singleton, hv]
      refine ⟨_, hpicks.keep_last v, fun j u hu => ?_⟩
      rw [List.mem_append, List.mem_singleton]
      obtain hfront | ⟨rfl, rfl⟩ := getElem?_append_singleton.mp hu
      · have hne : j ≠ items.length := Nat.ne_of_lt (List.getElem?_eq_some_iff.mp hfront).1
        rw [← hpositions j u hfront]
        exact or_iff_left hne
      · exact iff_of_true (.inr rfl) ((hshared v).mp hv)
    | false =>
      rw [List.filter_append, List.filter_singleton, hv, Bool.cond_false, List.append_nil]
      refine ⟨_, hpicks.drop_last v, fun j u hu => ?_⟩
      obtain hfront | ⟨rfl, rfl⟩ := getElem?_append_singleton.mp hu
      · exact hpositions j u hfront
      · refine iff_of_false (fun hj => Nat.lt_irrefl _ (hpicks.lt_length hj)) fun hall => ?_
        rw [(hshared v).mpr hall] at hv
        cases hv

end

end Value

namespace Construct

namespace Builtin

open Value (KeepsFirst KeepsShared)

/-- Items that come later are compared with all that have been kept. -/
theorem distinctFrom_append (kept xs ys : List Value) :
    distinctFrom kept (xs ++ ys) = distinctFrom (distinctFrom kept xs) ys := by
  induction xs generalizing kept with
  | nil => rfl
  | cons v xs ih => exact ih _

/-- What a set keeps is each item that no kept one before it equals. -/
theorem distinctFrom_keepsFirst (items : List Value) :
    KeepsFirst items (distinctFrom [] items) := by
  -- Whether an item is kept is decided by the items before it, so the last one is taken off.
  induction items using List.reverseRecOn with
  | nil => exact .nil
  | append_singleton items v ih =>
    rw [distinctFrom_append, distinctFrom, distinctFrom]
    split
    next hin => exact ih.drop_last hin
    next hnew => exact ih.keep_last (Bool.eq_false_iff.mpr hnew)

/-- A list is a set if no item in it equals a later one. -/
theorem distinctFrom_of_pairwise {items : List Value}
    (h : items.Pairwise fun earlier later => earlier.equal later = false) :
    distinctFrom [] items = items := by
  induction items using List.reverseRecOn with
  | nil => rfl
  | append_singleton items v ih =>
    obtain ⟨hitems, _, hlast⟩ := List.pairwise_append.mp h
    have hnew : v.isIn items = false :=
      Value.isIn_eq_false_iff.mpr fun w hw => hlast w hw v (.head _)
    rw [distinctFrom_append, ih hitems, distinctFrom, distinctFrom, hnew]
    rfl

/-- Going through several arrays is going through their items. -/
theorem foldl_distinctFrom (arrays : List (Kind × List Value)) (kept : List Value) :
    arrays.foldl (fun kept array => distinctFrom kept array.2) kept =
      distinctFrom kept (arrays.flatMap Prod.snd) := by
  induction arrays generalizing kept with
  | nil => rfl
  | cons array arrays ih => rw [List.foldl_cons, ih, List.flatMap_cons, distinctFrom_append]

/-- No other array takes anything away. -/
theorem commonItems_nil (items : List Value) : commonItems items [] = items :=
  List.filter_eq_self.mpr fun _ _ => rfl

/-- An array as a value. -/
def arrayValue (array : Kind × List Value) : Value := .array array.1 array.2

/-- Arrays inside an array. -/
def arraysIn (outer : Kind) (arrays : List (Kind × List Value)) : Value :=
  .array outer (arrays.map arrayValue)

/-- Every array is accepted where arrays of any kind are. -/
theorem anyArray_accepts (array : Kind × List Value) :
    anyArray.accepts (arrayValue array) = true :=
  Getter.accepts_array_any array.1 array.2

/-- An array stays as it is where arrays of any kind are accepted. -/
theorem anyArray_coerce (array : Kind × List Value) :
    anyArray.coerce (arrayValue array) = some (arrayValue array) := by
  simp [anyArray, arrayValue, Kind.coerce, Getter.accepts_array_any]

/-- Arrays stay as they are where arrays of any kind are accepted. -/
theorem mapM_anyArray_coerce (arrays : List (Kind × List Value)) :
    (arrays.map arrayValue).mapM anyArray.coerce = some (arrays.map arrayValue) := by
  induction arrays with
  | nil => rfl
  | cons array arrays ih => rw [List.map_cons, List.mapM_cons, anyArray_coerce, ih]; rfl

/-- If there is an array inside, what the outer one declares its elements to be is not asked. -/
theorem accepts_arraysIn_cons (outer : Kind) (first : Kind × List Value)
    (rest : List (Kind × List Value)) :
    (Kind.array anyArray).accepts (arraysIn outer (first :: rest)) = true := by
  have hitems : ((first :: rest).map arrayValue).all anyArray.accepts = true := by
    rw [List.all_map, List.all_eq_true]
    exact fun array _ => anyArray_accepts array
  exact hitems

/-- Coercion to arrays of arrays may change the declared kind of the outer one, and nothing else. -/
theorem coerce_arraysIn {outer : Kind} {arrays : List (Kind × List Value)}
    (h : (Kind.array anyArray).accepts (arraysIn outer arrays) = true) :
    ∃ outer', (Kind.array anyArray).coerce (arraysIn outer arrays) =
      some (arraysIn outer' arrays) := by
  unfold arraysIn at h ⊢
  rw [Kind.coerce, h]
  by_cases houter : anyArray = .any ∨ outer = anyArray
  · exact ⟨outer, by simp only [Bool.not_true, Bool.false_eq_true, if_false, if_pos houter]⟩
  · refine ⟨anyArray, ?_⟩
    simp only [Bool.not_true, Bool.false_eq_true, if_false, if_neg houter, mapM_anyArray_coerce,
      Option.map_some]

/-- Arrays inside an array are found there. -/
theorem nestedFrom_arrays (index : Nat) (arrays : List (Kind × List Value)) :
    nestedFrom index (arrays.map arrayValue) = .ok arrays := by
  induction arrays generalizing index with
  | nil => rfl
  | cons array arrays ih =>
    rw [List.map_cons, arrayValue, nestedFrom, ih]
    rfl

/-- The arrays of an array are taken out as they are. -/
theorem nestedArrays_arrays (first : Kind × List Value) (rest : List (Kind × List Value)) :
    nestedArrays ((first :: rest).map arrayValue) = .ok (first, rest) := by
  rw [nestedArrays, nestedFrom_arrays]
  rfl

/-- A type that makes one array of the first array inside an array and of the others. -/
def nestedBuilder (typeId : String)
    (combine : Kind × List Value → List (Kind × List Value) → List Value) : Blueprint :=
  arrayBuilder typeId (.array anyArray) fun state =>
    match nestedArrays state.2 with
    | .error fault => Build.fail typeId fault
    | .ok (first, rest) => return .array first.1 (combine first rest)

/-- An intersection keeps the items of the first array that are in all others. -/
theorem intersection_eq_nestedBuilder :
    intersection = nestedBuilder "omni.collections.Intersection" fun first rest =>
      commonItems first.2 rest := rfl

/-- A union keeps the distinct items of all arrays, one array after the other. -/
theorem union_eq_nestedBuilder :
    union = nestedBuilder "omni.collections.Union" fun first rest =>
      (first :: rest).foldl (fun kept array => distinctFrom kept array.2) [] := rfl

section

variable {r : Registry} {type typeId : String}
  {combine : Kind × List Value → List (Kind × List Value) → List Value}

/-- A set produces the distinct items of an array, under its kind. -/
theorem produces_set (hlookup : r.lookup type = .ok setBuilder) (element : Kind)
    (items : List Value) :
    r.Produces type [.array element items] (.array element (distinctFrom [] items)) :=
  have hcreate := create_arrayBuilder (anyArray_coerce (element, items))
  Registry.produces_of_finish hlookup hcreate rfl rfl

/-- What combines nested arrays produces it under the kind of the first one. -/
theorem produces_nested (hlookup : r.lookup type = .ok (nestedBuilder typeId combine))
    (outer : Kind) (first : Kind × List Value) (rest : List (Kind × List Value)) :
    r.Produces type [arraysIn outer (first :: rest)] (.array first.1 (combine first rest)) := by
  obtain ⟨outer', hcoerce⟩ := coerce_arraysIn (accepts_arraysIn_cons outer first rest)
  refine Registry.produces_of_finish hlookup (create_arrayBuilder hcoerce) rfl ?_
  simp only [nestedBuilder, arrayBuilder, nestedArrays_arrays]

/-- Without an array inside there is nothing to combine. Whether the outer one is handed over at all
is decided by what it declares. -/
theorem refuses_nested_nil (hlookup : r.lookup type = .ok (nestedBuilder typeId combine))
    (outer : Kind) :
    r.Refuses type [.array outer []]
      (if (Kind.array anyArray).accepts (.array outer []) then .instantiation typeId .noArrays
        else .noFactory typeId [.array outer]) := by
  cases haccepts : (Kind.array anyArray).accepts (.array outer []) with
  | true =>
    have hcoerced : ∃ outer', (Kind.array anyArray).coerce (arraysIn outer []) =
        some (arraysIn outer' []) := coerce_arraysIn haccepts
    obtain ⟨outer', hcoerce⟩ := hcoerced
    exact Registry.refuses_of_finish hlookup (create_arrayBuilder hcoerce) rfl rfl
  | false => exact Registry.refuses_of_create hlookup (create_arrayBuilder_of_not_accepts haccepts)

end

end Builtin

open Builtin Value

/-- The error for an array that should have arrays inside and is empty: a type that takes it finds
no array in it, and it is not taken if it is declared for elements of another kind. -/
def noArraysError (typeId : String) (outer : Kind) : ConstructError :=
  if (Kind.array anyArray).accepts (.array outer []) then .instantiation typeId .noArrays
  else .noFactory typeId [.array outer]

/-- A set keeps each item that no kept one before it equals, and the set of a set is the same array.
The items of a union are those of the set of all its arrays behind each other. An intersection keeps
the items of its first array that all others have, as often as they are there. One array is its own
intersection, and its union is its set. Of no arrays there is neither. -/
theorem Registry.set_operations {r : Registry} {set union intersection : String}
    (hset : r.lookup set = .ok Builtin.setBuilder)
    (hunion : r.lookup union = .ok Builtin.union)
    (hintersection : r.lookup intersection = .ok Builtin.intersection) :
    (∀ element items, ∃ kept, KeepsFirst items kept ∧
      r.Produces set [.array element items] (.array element kept) ∧
      r.Produces set [.array element kept] (.array element kept)) ∧
    (∀ outer first rest,
      (∃ kept, r.Produces union [arraysIn outer (first :: rest)] (.array first.1 kept) ∧
        ∀ element, r.Produces set [.array element ((first :: rest).flatMap Prod.snd)]
          (.array element kept)) ∧
      ∃ kept, KeepsShared first.2 (rest.map Prod.snd) kept ∧
        r.Produces intersection [arraysIn outer (first :: rest)] (.array first.1 kept)) ∧
    (∀ outer array,
      r.Produces intersection [arraysIn outer [array]] (arrayValue array) ∧
      ∃ v, r.Produces union [arraysIn outer [array]] v ∧ r.Produces set [arrayValue array] v) ∧
    ∀ outer,
      r.Refuses union [.array outer []] (noArraysError "omni.collections.Union" outer) ∧
      r.Refuses intersection [.array outer []]
        (noArraysError "omni.collections.Intersection" outer) := by
  rw [union_eq_nestedBuilder] at hunion
  rw [intersection_eq_nestedBuilder] at hintersection
  refine ⟨fun element items => ?_, fun outer first rest => ⟨?_, ?_⟩, fun outer array => ⟨?_, ?_⟩,
    fun outer => ⟨refuses_nested_nil hunion outer, refuses_nested_nil hintersection outer⟩⟩
  · have hkept := distinctFrom_keepsFirst items
    refine ⟨_, hkept, produces_set hset element items, ?_⟩
    have hagain := produces_set hset element (distinctFrom [] items)
    rwa [distinctFrom_of_pairwise hkept.pairwise] at hagain
  · have hproduces := produces_nested hunion outer first rest
    rw [foldl_distinctFrom] at hproduces
    exact ⟨_, hproduces, fun element => produces_set hset element _⟩
  · refine ⟨_, ?_, produces_nested hintersection outer first rest⟩
    have hshared := keepsShared_filter first.2 (rest.map Prod.snd)
    simp only [List.all_map] at hshared
    exact hshared
  · have hproduces := produces_nested hintersection outer array []
    rwa [commonItems_nil] at hproduces
  · exact ⟨_, produces_nested hunion outer array [], produces_set hset array.1 array.2⟩

/-- Where items are repeated, or not even equal to themselves. -/
theorem Registry.standard_set_operations :
    let r := Registry.standard .own Shortcuts.builtin
    r.lookup "Set" = .ok Builtin.setBuilder ∧ r.lookup "Union" = .ok Builtin.union ∧
      r.lookup "Intersection" = .ok Builtin.intersection ∧
      r.Produces "Intersection" [.array anyArray [.array .any [.double .nan, .int 1, .int 1]]]
        (.array .any [.double .nan, .int 1, .int 1]) ∧
      (∃ kept, r.Produces "Union" [.array anyArray [.array .int [.int 1, .int 1],
          .array .any [.int 2, .double .nan, .double .nan]]] (.array .int kept) ∧
        r.Produces "Set" [.array .any [.int 1, .int 1, .int 2, .double .nan, .double .nan]]
          (.array .any kept)) ∧
      r.Refuses "Union" [.array .string []]
        (.noFactory "omni.collections.Union" [.array .string]) := by
  intro r
  have hset : r.lookup "Set" = .ok Builtin.setBuilder := Registry.lookup_of_resolve rfl rfl
  have hunion : r.lookup "Union" = .ok Builtin.union := Registry.lookup_of_resolve rfl rfl
  have hintersection : r.lookup "Intersection" = .ok Builtin.intersection :=
    Registry.lookup_of_resolve rfl rfl
  obtain ⟨_, hmany, hone, hnone⟩ := Registry.set_operations hset hunion hintersection
  refine ⟨hset, hunion, hintersection, (hone anyArray (.any, _)).1, ?_, (hnone .string).1⟩
  obtain ⟨kept, hproduces, helement⟩ := (hmany anyArray (.int, [.int 1, .int 1])
    [(.any, [.int 2, .double .nan, .double .nan])]).1
  exact ⟨kept, hproduces, helement .any⟩

end Construct

end TypedConfig
