import TypedConfig.Proofs.Reachable
import TypedConfig.Proofs.Untouched

/-!
# The entry for the store itself

Every map is made with an entry for the store itself. Clearing keeps it and no load assigns to it,
but a put and a removal treat its key as any other one. So each map of a store has under that key
what the puts and removals that name it have left there. As long as no request names it, a store and
every scope over it hold the marker.
-/

namespace TypedConfig

/-- Leaves out the first value that is there. -/
def withoutFirst {α : Type} : List (Option α) → List (Option α)
  | [] => []
  | none :: rest => none :: withoutFirst rest
  | some _ :: rest => none :: rest

namespace Request

/-- A request that neither puts anything under the key for the store itself nor removes it. -/
def SparesSelf : Request → Prop
  | put key _ => key ≠ selfKey
  | remove key => key ≠ selfKey
  | putAll new => ∀ entry ∈ new, entry.1 ≠ selfKey
  | _ => True

/-- What a request makes of the entries for the store itself, the one of the innermost map first. -/
def onSelfEntries (found : List (Option Value)) : Request → List (Option Value)
  | put key v => found.modifyHead fun own => if key = selfKey then some v else own
  | putAll new => found.modifyHead fun own => (Entries.get? selfKey new.reverse).or own
  | remove key => if key = selfKey then withoutFirst found else found
  | _ => found

end Request

namespace Store

variable {s t : Store} {own : Entries Value} {outer : List (Entries Value)}

/-- What the maps of a store have under the key for the store itself, the innermost one first. -/
def selfEntries (s : Store) : List (Option Value) := s.maps.map (Entries.get? selfKey)

/-- The entries under the reserved key are those of the maps, the innermost first. -/
theorem selfEntries_of_maps (h : s.maps = own :: outer) :
    s.selfEntries = Entries.get? selfKey own :: outer.map (Entries.get? selfKey) :=
  congrArg (List.map (Entries.get? selfKey)) h

/-- The innermost entry under the reserved key is found. -/
theorem get?_selfEntries (s : Store) :
    (s.get? selfKey).result = s.selfEntries.findSome? id := by
  rw [get?_maps, selfEntries, List.findSome?_map]
  rfl

/-- The reserved key is there if a map has it. -/
theorem contains_selfEntries (s : Store) :
    (s.contains selfKey).result = s.selfEntries.any (·.isSome) := by
  rw [contains_eq, get?_selfEntries]
  induction s.selfEntries with
  | nil => rfl
  | cons found rest ih =>
    cases found with
    | none => exact ih
    | some v => rfl

/-- A put changes the innermost entry only if it names the reserved key. -/
theorem put_selfEntries (key : String) (v : Value) (s : Store) :
    (s.put key v).result.2.selfEntries = (Request.put key v).onSelfEntries s.selfEntries := by
  obtain ⟨own, outer, hmaps⟩ := s.exists_maps
  rw [selfEntries_of_maps (put_maps hmaps key v), selfEntries_of_maps hmaps, Request.onSelfEntries,
    List.modifyHead_cons]
  split
  next hself => rw [hself, Entries.get?_insert_self]
  next hother => rw [Entries.get?_insert_of_ne (Ne.symm hother)]

/-- Several puts change the innermost entry only if one names the reserved key. -/
theorem putAll_selfEntries (new : List (String × Value)) (s : Store) :
    (s.putAll new).result.selfEntries = (Request.putAll new).onSelfEntries s.selfEntries := by
  obtain ⟨own, outer, hmaps⟩ := s.exists_maps
  rw [putAll_result, selfEntries_of_maps (putEach_maps hmaps new), selfEntries_of_maps hmaps,
    Entries.get?_insertAll]
  rfl

/-- Clearing keeps the entries under the reserved key. -/
theorem clear_selfEntries (s : Store) : s.clear.result.selfEntries = s.selfEntries := by
  obtain ⟨own, outer, hmaps⟩ := s.exists_maps
  rw [selfEntries_of_maps (clear_maps hmaps), selfEntries_of_maps hmaps, get?_cleared, if_pos rfl]

/-- A load finds and leaves the same entries for the store itself, in each of the maps. -/
theorem load_selfEntries (engine : Construct.Engine) (m : Machine) (entry : Entry) (s : Store) :
    (s.load engine m entry).store.selfEntries = s.selfEntries := by
  refine load_keeps_of_other_puts (P := fun t => t.selfEntries = s.selfEntries)
    (fun key v t hkey ht => ?_) m entry rfl
  obtain ⟨own, outer, hmaps⟩ := t.exists_maps
  rw [put_selfEntries, ← ht, selfEntries_of_maps hmaps, Request.onSelfEntries,
    List.modifyHead_cons, if_neg hkey]

/-- The first entry is taken behind those that are not there. -/
theorem withoutFirst_append {front back : List (Option Value)} (h : ∀ found ∈ front, found = none) :
    withoutFirst (front ++ back) = front ++ withoutFirst back := by
  induction front with
  | nil => rfl
  | cons found front ih =>
    rw [List.forall_mem_cons] at h
    rw [h.1]
    exact congrArg (none :: ·) (ih h.2)

/-- A removal takes an entry only if it names the reserved key. -/
theorem Removes.selfEntries {key : String} {taken : Option Value} (h : Removes key s taken t) :
    t.selfEntries = (Request.remove key).onSelfEntries s.selfEntries := by
  have hnone {maps : List (Entries Value)} (hself : key = selfKey)
      (hmaps : ∀ m ∈ maps, Entries.get? key m = none) :
      ∀ found ∈ maps.map (Entries.get? selfKey), found = none := by
    rw [List.forall_mem_map]
    exact hself ▸ hmaps
  rw [Request.onSelfEntries]
  cases h with
  | missing hmissing =>
    split
    next hself =>
      have hwithout : withoutFirst (s.selfEntries ++ []) = s.selfEntries ++ withoutFirst [] :=
        withoutFirst_append (hnone hself hmissing)
      rw [List.append_nil] at hwithout
      exact (hwithout.trans (List.append_nil _)).symm
    next => rfl
  | @found _ front m m' back v hs ht hfront hv hm' _ =>
    rw [Store.selfEntries, Store.selfEntries, hs, ht, List.map_append, List.map_append,
      List.map_cons, List.map_cons, hm']
    split
    next hself =>
      rw [if_pos hself.symm, withoutFirst_append (hnone hself.symm hfront), hself, hv]
      rfl
    next hother => rw [if_neg (Ne.symm hother)]

end Store

namespace Request

variable {s t : Store}

/-- A request changes the entries for the store itself only if it names their key. -/
theorem next_selfEntries (h : s.Ordered) (q : Request) :
    (q.next s).selfEntries = q.onSelfEntries s.selfEntries := by
  cases q with
  | put key v => exact s.put_selfEntries key v
  | putAll new => exact s.putAll_selfEntries new
  | remove key => exact (h.removes key).selfEntries
  | clear => exact s.clear_selfEntries
  | load m entry =>
    change (s.readFrom m entry).store.selfEntries = s.selfEntries
    rw [(s.readFrom_eq m entry).2.2]
    exact s.load_selfEntries (.standard m.libraries) m entry
  | _ => rfl

/-- Requests change the entries under the reserved key one after the other. -/
theorem after_selfEntries (h : s.Ordered) (requests : List Request) :
    (after requests s).selfEntries =
      requests.foldl (fun found q => q.onSelfEntries found) s.selfEntries := by
  induction requests generalizing s with
  | nil => rfl
  | cons q rest ih =>
    rw [List.foldl_cons, ← next_selfEntries h]
    exact ih (next_ordered q s h)

/-- Requests that do not name the reserved key change none of its entries. -/
theorem SparesSelf.onSelfEntries {q : Request} (h : q.SparesSelf) (found : List (Option Value)) :
    q.onSelfEntries found = found := by
  cases q with
  | put key v =>
    rw [Request.onSelfEntries]
    simp only [if_neg (show key ≠ selfKey from h)]
    exact congrFun List.modifyHead_id found
  | putAll new =>
    have hnone : Entries.get? selfKey new.reverse = none := by
      refine Option.eq_none_iff_forall_ne_some.mpr fun v hv => ?_
      exact h _ (List.mem_reverse.mp (Entries.mem_of_get? hv)) rfl
    rw [Request.onSelfEntries]
    simp only [hnone, Option.none_or]
    exact congrFun List.modifyHead_id found
  | remove key => exact if_neg h
  | _ => rfl

end Request

namespace Store

variable {s t : Store}

/-- Steps that spare the reserved key change none of its entries. -/
theorem Steps.selfEntries (h : Steps Request.SparesSelf s t) (hs : s.Ordered) :
    t.selfEntries = s.selfEntries := by
  induction h with
  | request s hspares => rw [Request.next_selfEntries hs, hspares.onSelfEntries]
  | @outer own _ _ _ ih => exact congrArg (Entries.get? selfKey own :: ·) (ih hs.2)
  | observed _ ih => exact ih hs
  | locked _ ih => exact ih hs

/-- While no request names the key, each map has the marker under it. -/
theorem ReachableBy.selfEntries (h : s.ReachableBy Request.SparesSelf) :
    ∀ found ∈ s.selfEntries, found = some .storeMarker := by
  induction h with
  | empty => exact List.forall_mem_singleton.mpr rfl
  | scopeOver _ ih => exact List.forall_mem_cons.mpr ⟨rfl, ih⟩
  | observed _ ih => exact ih
  | locked _ ih => exact ih
  | step hs hstep ih =>
    rw [hstep.selfEntries hs.ordered]
    exact ih

/-- A store holds the marker under the key for itself. -/
def HoldsSelf (s : Store) : Prop :=
  (s.contains selfKey).result = true ∧ (s.get? selfKey).result = some .storeMarker

/-- A store holds its marker if the innermost entry under the reserved key is the marker. -/
theorem holdsSelf_iff : s.HoldsSelf ↔ s.selfEntries.findSome? id = some .storeMarker := by
  rw [HoldsSelf, contains_eq, get?_selfEntries]
  refine ⟨And.right, fun h => ⟨?_, h⟩⟩
  rw [h]
  rfl

/-- A store that is reached by steps that spare the reserved key holds its marker. -/
theorem ReachableBy.holdsSelf (h : s.ReachableBy Request.SparesSelf) : s.HoldsSelf := by
  obtain ⟨own, outer, hmaps⟩ := s.exists_maps
  have hself := h.selfEntries
  rw [selfEntries_of_maps hmaps, List.forall_mem_cons] at hself
  rw [holdsSelf_iff, selfEntries_of_maps hmaps, hself.1]
  rfl

/-- After requests, the maps of a store have under the key for the store itself what the requests
that name it have made of the entries before them, and the store holds the marker exactly if that is
the innermost of these. A store that is reached without a put or a removal under that key goes on
holding the marker as long as no request names the key, and so does every scope over it. -/
theorem holds_self_unless_named {s : Store} (h : s.Reachable) (requests : List Request) :
    let t := Request.after requests s
    let left := requests.foldl (fun found q => q.onSelfEntries found) s.selfEntries
    t.selfEntries = left ∧ (t.contains selfKey).result = left.any (·.isSome) ∧
      (t.HoldsSelf ↔ left.findSome? id = some .storeMarker) ∧
      (s.ReachableBy Request.SparesSelf → (∀ q ∈ requests, q.SparesSelf) →
        t.HoldsSelf ∧ t.scopeOver.HoldsSelf) := by
  intro t left
  have hleft : t.selfEntries = left := Request.after_selfEntries h.ordered requests
  refine ⟨hleft, hleft ▸ contains_selfEntries t, hleft ▸ holdsSelf_iff, fun hs hspare => ?_⟩
  have ht : t.ReachableBy Request.SparesSelf := hs.after hspare
  exact ⟨ht.holdsSelf, ht.scopeOver.holdsSelf⟩

/-- A scope into which a load has put a snapshot and that has been cleared since, over a map that
has been changed under it. A removal from another scope uncovers the entry of the map below, and one
more takes that out as well. -/
theorem holds_self_after_clear :
    let m := Machine.start ⟨.directory [], []⟩ []
    let s := Store.scope fresh (Request.next (.put "a" (.int 1)) empty)
    let spared : List Request := [.load m (.text "b = self;"), .clear, .remove "a"]
    let removals : List Request := [.put selfKey (.int 5), .remove selfKey]
    let t := Request.after removals empty.scopeOver
    let u := Request.after [.remove selfKey] t
    s.ReachableBy Request.SparesSelf ∧ (Request.after spared s).HoldsSelf ∧
      empty.scopeOver.Reachable ∧ t.selfEntries = [none, some .storeMarker] ∧ t.HoldsSelf ∧
      u.selfEntries = [none, none] ∧ (u.contains selfKey).result = false := by
  intro m s spared removals t u
  have hbelow : Steps Request.SparesSelf (.scope fresh empty) s :=
    .outer (.request empty (by decide : "a" ≠ selfKey))
  have hs : s.ReachableBy Request.SparesSelf := ReachableBy.empty.scopeOver.step hbelow
  have hspared : ∀ q ∈ spared, q.SparesSelf := by
    simp only [spared, List.forall_mem_cons]
    exact ⟨trivial, trivial, (by decide : "a" ≠ selfKey), nofun⟩
  obtain ⟨_, _, _, hholds⟩ := holds_self_unless_named hs.reachable spared
  have hscope : empty.scopeOver.Reachable := ReachableBy.empty.scopeOver
  obtain ⟨ht, _, hiff, _⟩ := holds_self_unless_named hscope removals
  obtain ⟨hu, hcontains, _⟩ :=
    holds_self_unless_named (hscope.after fun _ _ => trivial) [.remove selfKey]
  have hentries : t.selfEntries = [none, some .storeMarker] := ht
  rw [hentries] at hu hcontains
  exact ⟨hs, (hholds hs hspared).1, hscope, hentries, hiff.mpr rfl, hu, hcontains⟩

/-- A new map does not hold the entry for itself any more once that has been removed. -/
theorem loses_removed_self :
    ¬ ∀ requests : List Request, (Request.after requests empty).HoldsSelf := by
  intro h
  have hremoved : ((Request.after [.remove selfKey] empty).contains selfKey).result = true :=
    (h [.remove selfKey]).1
  cases hremoved

end Store

end TypedConfig
