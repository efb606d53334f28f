import TypedConfig.Proofs.Walk

/-!
# Invariants of the store

What holds of each value of a store is kept by a put of a value of which it holds as well. A load
changes its store only by the assignments that it executes, so what each of them keeps is kept by
the load, also by one that fails.
-/

namespace TypedConfig

namespace Store

variable {P : Value → Prop} {s : Store} {v : Value}

/-- Every value that a store has satisfies a predicate. -/
def Each (P : Value → Prop) (s : Store) : Prop := ∀ key v, (s.get? key).result = some v → P v

/-- A scope has the value of its own map, or else that of the store below. -/
theorem get?_scope (key : String) (own : Entries Value) (outer : Store) :
    ((scope own outer).get? key).result = (Entries.get? key own).or (outer.get? key).result := by
  rw [get?]
  cases Entries.get? key own <;> rfl

/-- A key is there exactly if there is a value under it. -/
theorem contains_eq (key : String) (s : Store) :
    (s.contains key).result = (s.get? key).result.isSome := by
  induction s with
  | map entries => rfl
  | scope own outer ih =>
    rw [get?_scope, contains]
    cases hown : Entries.get? key own with
    | none => simpa [Entries.contains, hown] using ih
    | some v => simp [Entries.contains, hown]
  | observed inner ih => exact ih
  | locked inner ih => exact ih

/-- What is put is found under its key, and nothing else changes. -/
theorem get?_put (key other : String) (v : Value) (s : Store) :
    ((s.put key v).result.2.get? other).result =
      if other = key then some v else (s.get? other).result := by
  have hinsert (entries : Entries Value) : Entries.get? other (Entries.insert key v entries) =
      if other = key then some v else Entries.get? other entries := by
    split
    next hsame => rw [hsame, Entries.get?_insert_self]
    next hne => exact Entries.get?_insert_of_ne hne v entries
  induction s with
  | map entries => exact hinsert entries
  | scope own outer =>
    change ((scope (Entries.insert key v own) outer).get? other).result = _
    rw [get?_scope, get?_scope, hinsert]
    split <;> rfl
  | observed inner ih => exact ih
  | locked inner ih => exact ih

/-- No key is lost in a put. -/
theorem contains_put {key : String} (h : (s.contains key).result = true) (other : String)
    (v : Value) : ((s.put other v).result.2.contains key).result = true := by
  rw [contains_eq] at h ⊢
  rw [get?_put]
  split
  · rfl
  · exact h

/-- A put keeps what all values satisfy exactly if the new value satisfies it. -/
theorem Each.put_iff (h : s.Each P) (key : String) : (s.put key v).result.2.Each P ↔ P v := by
  constructor
  · intro hput
    refine hput key v ?_
    rw [get?_put, if_pos rfl]
  · intro hv other w hw
    rw [get?_put] at hw
    split at hw
    · cases hw
      exact hv
    · exact h other w hw

/-- The views under some keys depend on the look-ups only. -/
theorem valuesOf_congr {t : Store} (h : ∀ key, (s.get? key).result = (t.get? key).result)
    (keys : List String) : (s.valuesOf keys).result = (t.valuesOf keys).result := by
  induction keys with
  | nil => rfl
  | cons key keys ih =>
    rw [valuesOf, valuesOf, Logged.result_bind, Logged.result_bind, h]
    cases (t.get? key).result with
    | none => exact ih
    | some v => exact congrArg (v :: ·) ih

/-- Stores that find the same have the same entries under some keys. -/
theorem entriesOf_congr {t : Store} (h : ∀ key, (s.get? key).result = (t.get? key).result)
    (keys : List String) : (s.entriesOf keys).result = (t.entriesOf keys).result := by
  induction keys with
  | nil => rfl
  | cons key keys ih =>
    rw [entriesOf, entriesOf, Logged.result_bind, Logged.result_bind, h]
    cases (t.get? key).result with
    | none => exact ih
    | some v => exact congrArg ((key, v) :: ·) ih

/-- The entries for some keys are those of the keys that have a value. -/
theorem mem_entriesOf {key : String} {keys : List String} :
    (key, v) ∈ (s.entriesOf keys).result ↔ key ∈ keys ∧ (s.get? key).result = some v := by
  induction keys with
  | nil => simp [entriesOf]
  | cons k keys ih =>
    rw [entriesOf, Logged.result_bind]
    split
    next w hfound =>
      rw [Logged.result_bind, Logged.result_pure, List.mem_cons, ih, Prod.mk.injEq, List.mem_cons]
      constructor
      · rintro (⟨rfl, rfl⟩ | ⟨hkey, hv⟩)
        · exact ⟨.inl rfl, hfound⟩
        · exact ⟨.inr hkey, hv⟩
      · rintro ⟨rfl | hkey, hv⟩
        · exact .inl ⟨rfl, Option.some.inj (hv.symm.trans hfound)⟩
        · exact .inr ⟨hkey, hv⟩
    next hnone =>
      rw [ih, List.mem_cons]
      constructor
      · exact fun ⟨hkey, hv⟩ => ⟨.inr hkey, hv⟩
      · rintro ⟨rfl | hkey, hv⟩
        · rw [hnone] at hv
          cases hv
        · exact ⟨hkey, hv⟩

/-- The entries of a store hold its values. -/
theorem Each.entries (h : s.Each P) : ∀ entry ∈ s.entries.result, P entry.2 :=
  fun entry hentry => h entry.1 entry.2 (mem_entriesOf.mp hentry).2

/-- The entries of a new map hold no value but the one for the store itself. -/
theorem eq_storeMarker_of_fresh {key : String} (h : Entries.get? key fresh = some v) :
    v = .storeMarker := by
  have hentry : (key, v) = (selfKey, Value.storeMarker) :=
    List.mem_singleton.mp (Entries.mem_of_get? h)
  exact (Prod.mk.inj hentry).2

/-- A new store holds only its marker. -/
theorem empty_each (h : P .storeMarker) : empty.Each P := by
  intro key v hv
  rw [eq_storeMarker_of_fresh hv]
  exact h

/-- A scope over a store adds only its own marker. -/
theorem Each.scopeOver (h : s.Each P) (hmarker : P .storeMarker) : s.scopeOver.Each P := by
  intro key v hv
  change ((scope fresh s).get? key).result = some v at hv
  rw [get?_scope, Option.or_eq_some_iff] at hv
  obtain hfresh | ⟨_, houter⟩ := hv
  · rw [eq_storeMarker_of_fresh hfresh]
    exact hmarker
  · exact h key v houter

end Store

namespace Syntax

variable {engine : Construct.Engine} {P : Store → Prop} {depth : Nat} {program : Program}
  {l : Loading}

/-- The assignments that a program executes, itself or in included sources, keep a predicate on
stores. -/
def AssignmentsKeep (engine : Construct.Engine) (P : Store → Prop) (depth : Nat) (program : Program)
    (l : Loading) : Prop :=
  ∀ depth' s l', Executes engine depth program l depth' s l' → s.isAssignment = true →
    P l'.store → P (outcome (s.run engine (Load.source engine 0)) l').2.store

/-- A program keeps what its assignments keep, if the loads of its includes do. -/
theorem Statement.runAt_keeps_of_source
    (hsource : ∀ {e span rest l source l'},
      AssignmentsKeep engine P depth (⟨.include e, span⟩ :: rest) l → e.Names engine l source l' →
      P l'.store → P (outcome (Load.source engine (maxIncludeDepth - depth) source) l').2.store)
    (hassign : AssignmentsKeep engine P depth program l) (hl : P l.store) :
    P (outcome (Statement.runAt engine depth program) l).2.store := by
  induction program generalizing l with
  | nil => exact hl
  | cons s rest ih =>
    have hs :
        P (outcome (s.run engine (Load.source engine (maxIncludeDepth - depth))) l).2.store := by
      cases hassignment : s.isAssignment with
      | true =>
        rw [Statement.run_assignment hassignment engine _ (Load.source engine 0)]
        exact hassign depth s l .here hassignment hl
      | false =>
        obtain ⟨_ | _ | e, span⟩ := s
        · cases hassignment
        · cases hassignment
        · have hstore : P (outcome (e.named engine) l).2.store := by
            rw [e.named_store]
            exact hl
          rw [Statement.run_include_eq, outcome_bind]
          rcases hnames : outcome (e.named engine) l with ⟨located | source, l'⟩
          · rw [hnames] at hstore
            exact hstore
          · rw [hnames] at hstore
            exact hsource hassign hnames hstore
    change P (outcome (s.run engine _ >>= fun _ => Statement.runAt engine depth rest) l).2.store
    rw [outcome_bind]
    rcases hrun : outcome (s.run engine (Load.source engine (maxIncludeDepth - depth))) l with
      ⟨located | _, l'⟩
    · rw [hrun] at hs
      exact hs
    · rw [hrun] at hs
      exact ih (fun depth' s' l'' h => hassign depth' s' l'' (.later hrun h)) hs

/-- A program keeps what the assignments that it executes keep. -/
theorem Statement.runAt_keeps (hdepth : depth ≤ maxIncludeDepth)
    (hassign : AssignmentsKeep engine P depth program l) (hl : P l.store) :
    P (outcome (Statement.runAt engine depth program) l).2.store := by
  refine depth_induction (P := fun depth => ∀ program l, AssignmentsKeep engine P depth program l →
    P l.store → P (outcome (Statement.runAt engine depth program) l).2.store)
    ?_ depth hdepth program l hassign hl
  intro depth hdepth hnext program l hassign hl
  refine Statement.runAt_keeps_of_source ?_ hassign hl
  intro e span rest l source l' hassign hnames hl'
  obtain hmax | hless := Nat.eq_or_lt_of_le hdepth
  · rw [hmax, Nat.sub_self]
    exact hl'
  · rw [Load.source_at engine hless]
    cases hfetch : Load.fetch l'.trail.machine source with
    | error error => exact hl'
    | ok fetched =>
      cases hparse : parse fetched with
      | error error =>
        simp only [Load.text, hparse]
        exact hl'
      | ok included =>
        simp only [Load.text_eq _ _ _ hparse]
        refine hnext hless included l' (fun depth' s l'' h => ?_) hl'
        exact hassign depth' s l'' (.inside hless hnames ⟨fetched, hfetch, hparse⟩ h)

end Syntax

/-- A load keeps what the assignments that it executes keep, and what the successful load of a file
keeps when it leaves the file in the store. -/
theorem Store.load_keeps {engine : Construct.Engine} {P : Store → Prop} (m : Machine)
    (entry : Entry) (s : Store) (hassign : ∀ t, entry.opened m = .ok t →
      Syntax.AssignmentsKeep engine P 0 t.pending ⟨s, m, []⟩)
    (hfile : ∀ file t id, entry = .path file → (s.load engine m entry).result = .ok () → P t →
      P (t.put Load.locationKey (.object id (.file file))).result.2)
    (hs : P s) : P (s.load engine m entry).store := by
  cases hopened : entry.opened m with
  | error e =>
    rw [load_unopened s hopened]
    exact hs
  | ok t =>
    have hkept : P (outcome (t.run engine 0) ⟨s, m, []⟩).2.store :=
      Syntax.Statement.runAt_keeps (Nat.zero_le _) (hassign t hopened) hs
    rcases hrun : outcome (t.run engine 0) ⟨s, m, []⟩ with ⟨error | _, l⟩
    all_goals
      rw [hrun] at hkept
      obtain ⟨hresult, hstore⟩ := load_opened hopened hrun
      rw [hstore]
    · exact hkept
    · cases entry with
      | path file => exact hfile file _ _ rfl hresult hkept
      | _ => exact hkept

end TypedConfig
