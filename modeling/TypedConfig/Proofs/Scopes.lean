import Mathlib.Data.List.Forall2
import TypedConfig.Proofs.Flattening
import TypedConfig.Proofs.Requests

/-!
# What requests change in a chain of scopes

The maps of a store stand one further out than the other. A change is made in the innermost map,
except for a removal, which goes to the first map that has the key. So from the outer maps, which
other scopes may share, keys disappear that are asked to be removed, and nothing else happens to
them.
-/

namespace TypedConfig

namespace Entries

variable {α : Type} {key : String} {es : Entries α}

/-- A removal leaves entries alone in which the key is missing. -/
theorem erase_of_get?_eq_none (h : get? key es = none) : erase key es = es := by
  induction es with
  | nil => rfl
  | cons entry rest ih =>
    obtain ⟨k, v⟩ := entry
    rw [get?_cons] at h
    split at h
    · cases h
    next hne => rw [erase, if_neg hne, ih h]

/-- After a removal the key is missing, and everything else is there as before. -/
theorem Ordered.get?_erase (h : Ordered es) (key other : String) :
    get? other (Entries.erase key es) = if other = key then none else get? other es := by
  split
  next hsame => rw [hsame, h.get?_erase_self]
  next hne => exact get?_erase_of_ne hne es

/-- Some keys of a map are gone, and everything else is there as before. -/
def Loses (removed : String → Prop) (es es' : Entries α) : Prop :=
  ∀ key, get? key es' = get? key es ∨ get? key es' = none ∧ removed key

/-- Entries that stay lose nothing. -/
theorem Loses.refl (removed : String → Prop) (es : Entries α) : Loses removed es es :=
  fun _ => .inl rfl

/-- What is lost in two steps is lost in one of them. -/
theorem Loses.trans {removed removed' : String → Prop} {es es' es'' : Entries α}
    (first : Loses removed es es') (second : Loses removed' es' es'') :
    Loses (fun key => removed key ∨ removed' key) es es'' := by
  intro key
  rcases second key with hsame | ⟨hgone, hremoved⟩
  · rw [hsame]
    exact (first key).imp_right fun ⟨hgone, hremoved⟩ => ⟨hgone, .inl hremoved⟩
  · exact .inr ⟨hgone, .inr hremoved⟩

/-- Maps that stay lose nothing. -/
theorem Loses.forall₂_refl (removed : String → Prop) (maps : List (Entries α)) :
    List.Forall₂ (Loses removed) maps maps :=
  List.forall₂_same.mpr fun es _ => .refl removed es

/-- What maps lose in two steps they lose in one of them. -/
theorem Loses.forall₂_trans {removed removed' : String → Prop} {maps maps' maps'' : List (Entries α)}
    (first : List.Forall₂ (Loses removed) maps maps')
    (second : List.Forall₂ (Loses removed') maps' maps'') :
    List.Forall₂ (Loses fun key => removed key ∨ removed' key) maps maps'' := by
  induction first generalizing maps'' with
  | nil =>
    cases second
    exact .nil
  | cons hes _ ih =>
    cases second with
    | cons hes' hrest => exact .cons (hes.trans hes') (ih hrest)

end Entries

namespace Store

variable {key : String} {s : Store} {own : Entries Value} {outer : List (Entries Value)}

/-- The maps of a store, the innermost one first. -/
def maps : Store → List (Entries Value)
  | map entries => [entries]
  | scope own outer => own :: outer.maps
  | observed inner => inner.maps
  | locked inner => inner.maps

/-- A store has an innermost map. -/
theorem exists_maps (s : Store) : ∃ own outer, s.maps = own :: outer := by
  induction s with
  | map entries => exact ⟨entries, [], rfl⟩
  | scope own outer => exact ⟨own, outer.maps, rfl⟩
  | observed inner ih => exact ih
  | locked inner ih => exact ih

/-- A look-up finds the innermost value. -/
theorem get?_maps (key : String) (s : Store) :
    (s.get? key).result = s.maps.findSome? (Entries.get? key) := by
  induction s with
  | map entries =>
    rw [maps, List.findSome?_singleton]
    rfl
  | scope own outer ih =>
    rw [get?_scope, maps, List.findSome?_cons, ih]
    cases Entries.get? key own <;> rfl
  | observed inner ih => exact ih
  | locked inner ih => exact ih

/-- A put changes the innermost map. -/
theorem put_maps (h : s.maps = own :: outer) (key : String) (v : Value) :
    (s.put key v).result.2.maps = Entries.insert key v own :: outer := by
  induction s with
  | map entries =>
    cases h
    rfl
  | scope own outer =>
    cases h
    rfl
  | observed inner ih => exact ih h
  | locked inner ih => exact ih h

/-- Several puts change the innermost map. -/
theorem putEach_maps (h : s.maps = own :: outer) (new : List (String × Value)) :
    (s.putEach new).result.maps = Entries.insertAll new own :: outer := by
  induction new generalizing s own with
  | nil => exact h
  | cons entry new ih => exact ih (put_maps h entry.1 entry.2)

/-- The innermost map is cleared. -/
theorem clear_maps (h : s.maps = own :: outer) : s.clear.result.maps = cleared own :: outer := by
  induction s with
  | map entries =>
    cases h
    rfl
  | scope own outer =>
    cases h
    rfl
  | observed inner ih => exact ih h
  | locked inner ih => exact ih h

/-- A load puts into the innermost map, and takes no key out of it. -/
theorem load_maps (h : s.maps = own :: outer) (engine : Construct.Engine) (m : Machine)
    (entry : Entry) : ∃ own', (s.load engine m entry).store.maps = own' :: outer ∧
      ∀ key ∈ Entries.keys own, key ∈ Entries.keys own' := by
  refine load_keeps_of_put (P := fun t => ∃ own', t.maps = own' :: outer ∧
    ∀ key ∈ Entries.keys own, key ∈ Entries.keys own') ?_ m entry ⟨own, h, fun _ => id⟩
  rintro key v t ⟨own', ht, hkeys⟩
  refine ⟨Entries.insert key v own', put_maps ht key v, fun other hother => ?_⟩
  exact (Entries.mem_keys_insert ..).mpr (.inr (hkeys other hother))

/-- Only the marker of the store is left in a cleared map. -/
theorem get?_cleared (key : String) (entries : Entries Value) :
    Entries.get? key (cleared entries) =
      if key = selfKey then Entries.get? key entries else none := by
  induction entries with
  | nil => exact (ite_self _).symm
  | cons entry rest ih =>
    obtain ⟨k, v⟩ := entry
    unfold cleared at ih ⊢
    by_cases hself : k = selfKey
    · rw [List.filter_cons_of_pos (by simpa using hself), Entries.get?_cons, Entries.get?_cons, ih]
      by_cases hkey : k = key
      · rw [if_pos hkey, if_pos hkey, if_pos (hkey.symm.trans hself)]
      · rw [if_neg hkey, if_neg hkey]
    · rw [List.filter_cons_of_neg (by simpa using hself), ih, Entries.get?_cons]
      by_cases hkey : key = selfKey
      · rw [if_pos hkey, if_pos hkey, if_neg fun hsame => hself (hsame.trans hkey)]
      · rw [if_neg hkey, if_neg hkey]

/-- The innermost map of a store changes, and no other one. -/
def ChangesInnermost (change : Entries Value → Entries Value → Prop) (s t : Store) : Prop :=
  ∃ own own' outer, s.maps = own :: outer ∧ t.maps = own' :: outer ∧ change own own'

/-- A key is taken out of the first map that has it. Nothing else changes, and what is there
afterwards is what the maps further out have. Without the key nothing changes at all. -/
inductive Removes (key : String) (s : Store) : Option Value → Store → Prop
  | missing : (∀ m ∈ s.maps, Entries.get? key m = none) → Removes key s none s
  | found {t : Store} (front : List (Entries Value)) {m m' : Entries Value}
    (back : List (Entries Value)) {v : Value} :
    s.maps = front ++ m :: back → t.maps = front ++ m' :: back →
      (∀ nearer ∈ front, Entries.get? key nearer = none) → Entries.get? key m = some v →
      (∀ other, Entries.get? other m' = if other = key then none else Entries.get? other m) →
      (t.get? key).result = back.findSome? (Entries.get? key) → Removes key s (some v) t

namespace Removes

variable {t : Store} {taken : Option Value}

/-- What an observed store loses is lost inside. -/
theorem observed (h : Removes key s taken t) : Removes key (.observed s) taken (.observed t) := by
  cases h with
  | missing hmissing => exact .missing hmissing
  | found front back hs ht hfront hv hm' hget =>
    exact .found front back hs ht hfront hv hm' hget

/-- What a locked store loses is lost inside. -/
theorem locked (h : Removes key s taken t) : Removes key (.locked s) taken (.locked t) := by
  cases h with
  | missing hmissing => exact .missing hmissing
  | found front back hs ht hfront hv hm' hget =>
    exact .found front back hs ht hfront hv hm' hget

/-- A scope without the key passes the removal on. -/
theorem scope {own : Entries Value} (hown : Entries.get? key own = none)
    (h : Removes key s taken t) : Removes key (.scope own s) taken (.scope own t) := by
  cases h with
  | missing hmissing => exact .missing (List.forall_mem_cons.mpr ⟨hown, hmissing⟩)
  | found front back hs ht hfront hv hm' hget =>
    refine .found (own :: front) back (congrArg (own :: ·) hs) (congrArg (own :: ·) ht)
      (List.forall_mem_cons.mpr ⟨hown, hfront⟩) hv hm' ?_
    rw [get?_scope, hown, Option.none_or, hget]

/-- Of the maps further out than the innermost one, the first that has the key loses it. -/
theorem tail_loses (h : Removes key s taken t) :
    List.Forall₂ (Entries.Loses fun other => other = key) s.maps.tail t.maps.tail := by
  cases h with
  | missing => exact Entries.Loses.forall₂_refl _ _
  | @found _ front m m' back v hs ht _ _ hm' _ =>
    rw [hs, ht]
    have hloses : Entries.Loses (fun other => other = key) m m' := by
      intro other
      rw [hm']
      split
      next hsame => exact .inr ⟨rfl, hsame⟩
      next => exact .inl rfl
    cases front with
    | nil => exact Entries.Loses.forall₂_refl _ back
    | cons nearest front =>
      exact List.rel_append (Entries.Loses.forall₂_refl _ front)
        (.cons hloses (Entries.Loses.forall₂_refl _ back))

end Removes

/-- A change of the innermost map loses nothing of the outer ones. -/
theorem ChangesInnermost.tail_loses {change : Entries Value → Entries Value → Prop} {t : Store}
    (h : ChangesInnermost change s t) (removed : String → Prop) :
    List.Forall₂ (Entries.Loses removed) s.maps.tail t.maps.tail := by
  obtain ⟨own, own', outer, hs, ht, -⟩ := h
  rw [hs, ht]
  exact Entries.Loses.forall₂_refl removed outer

/-- A removal takes the first entry with the key from the chain of maps, if there is one. -/
theorem Ordered.removes (h : s.Ordered) (key : String) :
    Removes key s (s.remove key).result.1 (s.remove key).result.2 := by
  induction s with
  | map entries =>
    rw [Store.remove]
    cases hfound : Entries.get? key entries with
    | none =>
      rw [Entries.erase_of_get?_eq_none hfound]
      exact .missing (List.forall_mem_singleton.mpr hfound)
    | some v =>
      exact .found [] [] rfl rfl (List.forall_mem_nil _) hfound
        (Entries.Ordered.get?_erase h key) (Entries.Ordered.get?_erase_self h key)
  | scope own outer ih =>
    rw [Store.remove]
    cases hfound : Entries.get? key own with
    | none =>
      have hcontains : Entries.contains key own = false := by simp [Entries.contains, hfound]
      rw [hcontains]
      exact (ih h.2).scope hfound
    | some v =>
      have hcontains : Entries.contains key own = true := by simp [Entries.contains, hfound]
      rw [hcontains]
      refine .found [] outer.maps rfl rfl (List.forall_mem_nil _) hfound
        (Entries.Ordered.get?_erase h.1 key) ?_
      change ((Store.scope (Entries.erase key own) outer).get? key).result = _
      rw [get?_scope, h.1.get?_erase_self, Option.none_or, get?_maps]
  | observed inner ih => exact (ih h).observed
  | locked inner ih => exact (ih h).locked

end Store

namespace Request

open Store (ChangesInnermost Removes)

variable {s : Store}

/-- What a request does to the maps of a store. -/
def Touches (s : Store) (q : Request) : Prop :=
  match q with
  | put key v => ChangesInnermost (fun own own' => own' = Entries.insert key v own) s (q.next s)
  | putAll new => ChangesInnermost (fun own own' => own' = Entries.insertAll new own) s (q.next s)
  | clear => ChangesInnermost (fun own own' => ∀ key, Entries.get? key own' =
      if key = selfKey then Entries.get? key own else none) s (q.next s)
  | load .. => ChangesInnermost (fun own own' => ∀ key ∈ Entries.keys own, key ∈ Entries.keys own')
      s (q.next s)
  | remove key => Removes key s ((remove key).answer s) (q.next s)
  | _ => q.next s = s

/-- A request touches the maps of a store as its kind says. -/
theorem touches (h : s.Ordered) (q : Request) : q.Touches s := by
  obtain ⟨own, outer, hmaps⟩ := s.exists_maps
  cases q with
  | put key v => exact ⟨own, _, outer, hmaps, Store.put_maps hmaps key v, rfl⟩
  | remove key => exact h.removes key
  | clear =>
    exact ⟨own, _, outer, hmaps, Store.clear_maps hmaps, fun key => Store.get?_cleared key own⟩
  | putAll new =>
    refine ⟨own, _, outer, hmaps, ?_, rfl⟩
    change (s.putAll new).result.maps = _
    rw [Store.putAll_result]
    exact Store.putEach_maps hmaps new
  | load m entry =>
    obtain ⟨own', hmaps', hkeys⟩ := Store.load_maps hmaps (.standard m.libraries) m entry
    refine ⟨own, own', outer, hmaps, ?_, hkeys⟩
    change (s.readFrom m entry).store.maps = _
    rw [(s.readFrom_eq m entry).2.2]
    exact hmaps'
  | _ => rfl

/-- From the outer maps a request takes at most the key of which it is the removal. -/
theorem Touches.tail_loses {q : Request} (h : q.Touches s) :
    List.Forall₂ (Entries.Loses fun key => remove key = q) s.maps.tail (q.next s).maps.tail := by
  cases q with
  | put => exact ChangesInnermost.tail_loses h _
  | putAll => exact ChangesInnermost.tail_loses h _
  | clear => exact ChangesInnermost.tail_loses h _
  | load => exact ChangesInnermost.tail_loses h _
  | remove key =>
    refine (Removes.tail_loses h).imp fun m m' hloses other => ?_
    exact (hloses other).imp_right (And.imp_right fun hsame => congrArg remove hsame)
  | _ => exact Entries.Loses.forall₂_refl _ _

/-- Requests keep the maps ordered. -/
theorem next_ordered (q : Request) (s : Store) (h : s.Ordered) : (q.next s).Ordered :=
  q.next_keeps (fun key v _ h => h.put key v) (fun key _ h => h.remove key) (fun _ h => h.clear) h

/-- From the outer maps several requests take at most the keys of which they are the removals. -/
theorem after_tail_loses (h : s.Ordered) (requests : List Request) :
    List.Forall₂ (Entries.Loses fun key => remove key ∈ requests) s.maps.tail
      (after requests s).maps.tail := by
  induction requests generalizing s with
  | nil => exact Entries.Loses.forall₂_refl _ _
  | cons q rest ih =>
    refine (Entries.Loses.forall₂_trans (touches h q).tail_loses (ih (next_ordered q s h))).imp ?_
    intro m m' hloses key
    exact (hloses key).imp_right (And.imp_right List.mem_cons.mpr)

end Request

/-- Whatever has been asked of a scope, from the maps below its own only keys are gone that were to
be removed. Puts, clearings and loads change the own map, and a removal goes to the first map that
has the key. -/
theorem Store.scopes_lose_only_removed (requests : List Request) (s : Store) (h : s.Ordered) :
    let t := Request.after requests s
    List.Forall₂ (Entries.Loses fun key => .remove key ∈ requests) s.maps.tail t.maps.tail ∧
      ∀ q : Request, q.Touches t := by
  intro t
  have ht : t.Ordered := Request.after_keeps (P := Store.Ordered) Request.next_ordered requests h
  exact ⟨Request.after_tail_loses h requests, Request.touches ht⟩

/-- A removal from a scope whose own map has the key, and one after it has been cleared. -/
theorem Store.scopes_lose_removed_twice :
    let s := scope [("a", .int 1), ("self", .storeMarker)]
      (scope [("a", .int 2), ("b", .int 3)] (map [("a", .int 4), ("b", .int 5)]))
    let requests : List Request := [.remove "a", .put "a" (.int 6), .clear, .remove "a"]
    let t := Request.after requests s
    s.Ordered ∧
      t.maps = [[("self", .storeMarker)], [("b", .int 3)], [("a", .int 4), ("b", .int 5)]] ∧
      List.Forall₂ (Entries.Loses fun key => .remove key ∈ requests) s.maps.tail t.maps.tail ∧
      ∀ q : Request, q.Touches t := by
  intro s requests t
  have hordered : s.Ordered := by
    refine ⟨?_, ?_, ?_⟩ <;> change (Entries.keys _).Pairwise (· < ·) <;> decide
  exact ⟨hordered, rfl, scopes_lose_only_removed requests s hordered⟩

end TypedConfig
