/-!
# Entries in the order of their keys

A finite map is the list of its entries, in the strictly increasing order of their keys. Every
operation keeps that order, and `get?` is the view through which the operations are described:
each changes it at its own key only, and two ordered lists with the same view are equal.
-/

universe u

namespace TypedConfig

/-- Keys with their values. -/
abbrev Entries (α : Type u) := List (String × α)

namespace Entries

variable {α β : Type u}

/-- The value under a key. -/
def get? (key : String) : Entries α → Option α
  | [] => none
  | (k, v) :: rest => if k = key then some v else get? key rest

/-- Puts a value under a key, in place of the one that is there. -/
def insert (key : String) (value : α) : Entries α → Entries α
  | [] => [(key, value)]
  | (k, v) :: rest =>
    if key < k then (key, value) :: (k, v) :: rest
    else if k = key then (key, value) :: rest
    else (k, v) :: insert key value rest

/-- Takes a key out. -/
def erase (key : String) : Entries α → Entries α
  | [] => []
  | (k, v) :: rest => if k = key then rest else (k, v) :: erase key rest

/-- Whether there is a value under a key. -/
def contains (key : String) (es : Entries α) : Bool := (get? key es).isSome

/-- The keys, in order. -/
def keys (es : Entries α) : List String := es.map (·.1)

/-- Puts several entries one after the other. -/
def insertAll (new : List (String × α)) (es : Entries α) : Entries α :=
  new.foldl (fun es entry => insert entry.1 entry.2 es) es

/-- The keys increase strictly, so no key occurs twice. -/
def Ordered (es : Entries α) : Prop := (keys es).Pairwise (· < ·)

/-- Without entries nothing is found. -/
@[simp] theorem get?_nil (key : String) : get? key ([] : Entries α) = none := rfl

/-- The first entry with a key counts. -/
theorem get?_cons (key k : String) (v : α) (es : Entries α) :
    get? key ((k, v) :: es) = if k = key then some v else get? key es := rfl

/-- What is inserted is found. -/
@[simp] theorem get?_insert_self (key : String) (value : α) (es : Entries α) :
    get? key (insert key value es) = some value := by
  induction es with
  | nil => simp [insert, get?_cons]
  | cons entry rest ih =>
    obtain ⟨k, v⟩ := entry
    by_cases before : key < k
    · simp [insert, before, get?_cons]
    · by_cases same : k = key <;> simp [insert, before, same, get?_cons, ih]

/-- A put changes nothing under another key. -/
theorem get?_insert_of_ne {key other : String} (h : other ≠ key) (value : α) (es : Entries α) :
    get? other (insert key value es) = get? other es := by
  induction es with
  | nil => simp [insert, get?_cons, h.symm]
  | cons entry rest ih =>
    obtain ⟨k, v⟩ := entry
    by_cases before : key < k
    · simp [insert, before, get?_cons, h.symm]
    · by_cases same : k = key
      · subst same
        simp [insert, get?_cons, h.symm]
      · simp [insert, before, same, get?_cons, ih]

/-- A removal changes nothing under another key. -/
theorem get?_erase_of_ne {key other : String} (h : other ≠ key) (es : Entries α) :
    get? other (erase key es) = get? other es := by
  induction es with
  | nil => rfl
  | cons entry rest ih =>
    obtain ⟨k, v⟩ := entry
    by_cases same : k = key
    · subst same
      simp [erase, get?_cons, h.symm]
    · simp [erase, same, get?_cons, ih]

/-- A put adds no other entry. -/
theorem eq_or_mem_of_mem_insert {key : String} {value : α} {es : Entries α} {entry : String × α}
    (h : entry ∈ insert key value es) : entry = (key, value) ∨ entry ∈ es := by
  induction es with
  | nil => exact .inl (List.mem_singleton.1 h)
  | cons first rest ih =>
    obtain ⟨k, v⟩ := first
    unfold insert at h
    split at h
    · exact List.mem_cons.1 h
    · split at h
      · rcases List.mem_cons.1 h with new | old
        · exact .inl new
        · exact .inr (.tail _ old)
      · rcases List.mem_cons.1 h with first | later
        · exact .inr (first ▸ .head _)
        · exact (ih later).imp_right (.tail _)

/-- What is found is among the entries. -/
theorem mem_of_get? {key : String} {value : α} {es : Entries α} (h : get? key es = some value) :
    (key, value) ∈ es := by
  induction es with
  | nil => cases h
  | cons entry rest ih =>
    obtain ⟨k, v⟩ := entry
    rw [get?_cons] at h
    split at h
    next same =>
      cases h
      exact same ▸ .head _
    next => exact .tail _ (ih h)

/-- The first of two lists in which there is a value under the key has it. -/
theorem get?_append (key : String) (es fs : Entries α) :
    get? key (es ++ fs) = (get? key es).or (get? key fs) := by
  induction es with
  | nil => rfl
  | cons entry es ih =>
    obtain ⟨k, v⟩ := entry
    rw [List.cons_append, get?_cons, get?_cons, ih]
    split <;> rfl

/-- Values that are changed are found changed. -/
theorem get?_map (f : α → β) (key : String) (es : Entries α) :
    get? key (es.map fun entry => (entry.1, f entry.2)) = (get? key es).map f := by
  induction es with
  | nil => rfl
  | cons entry rest ih =>
    obtain ⟨k, v⟩ := entry
    rw [List.map_cons, get?_cons, get?_cons, ih]
    split <;> rfl

/-- After several puts the last value that was put under the key is there, or the one from
before. -/
theorem get?_insertAll (key : String) (new : List (String × α)) (es : Entries α) :
    get? key (insertAll new es) = (get? key new.reverse).or (get? key es) := by
  induction new generalizing es with
  | nil => rfl
  | cons entry new ih =>
    obtain ⟨k, v⟩ := entry
    have hput : get? key (insert k v es) = (get? key [(k, v)]).or (get? key es) := by
      by_cases same : k = key
      · subst same
        simp [get?_cons]
      · simp [get?_cons, same, get?_insert_of_ne (Ne.symm same)]
    rw [List.reverse_cons, get?_append, Option.or_assoc, ← hput]
    exact ih (insert k v es)

/-- What is found after several puts is one of them, or was there before. -/
theorem mem_or_get?_of_get?_insertAll {key : String} {value : α} {new : List (String × α)}
    {es : Entries α} (h : get? key (insertAll new es) = some value) :
    (key, value) ∈ new ∨ get? key es = some value := by
  rw [get?_insertAll, Option.or_eq_some_iff] at h
  rcases h with put | before
  · exact .inl (List.mem_reverse.1 (mem_of_get? put))
  · exact .inr before.2

/-- The keys are those under which something is found. -/
theorem mem_keys_iff_get?_isSome (key : String) (es : Entries α) :
    key ∈ keys es ↔ (get? key es).isSome := by
  induction es with
  | nil => simp [keys]
  | cons entry rest ih =>
    obtain ⟨k, v⟩ := entry
    by_cases same : k = key
    · simp [keys, get?_cons, same]
    · simpa [keys, get?_cons, same, Ne.symm same] using ih

/-- A value is there under the keys. -/
theorem contains_iff_mem_keys (key : String) (es : Entries α) :
    contains key es = true ↔ key ∈ keys es :=
  (mem_keys_iff_get?_isSome key es).symm

/-- To insert an entry adds its key. -/
@[simp] theorem mem_keys_insert (key other : String) (value : α) (es : Entries α) :
    other ∈ keys (insert key value es) ↔ other = key ∨ other ∈ keys es := by
  by_cases h : other = key
  · simp [mem_keys_iff_get?_isSome, h]
  · simp [mem_keys_iff_get?_isSome, get?_insert_of_ne h, h]

/-- A removal leaves entries out and adds none. -/
theorem erase_sublist (key : String) (es : Entries α) : (erase key es).Sublist es := by
  induction es with
  | nil => exact .slnil
  | cons entry rest ih =>
    obtain ⟨k, v⟩ := entry
    by_cases same : k = key
    · simp [erase, same]
    · simpa [erase, same] using ih

/-- What stands before every key of a list is not among them. -/
theorem get?_eq_none_of_lt {key : String} {es : Entries α} (h : ∀ k ∈ keys es, key < k) :
    get? key es = none := by
  have absent : key ∉ keys es := fun found => String.lt_irrefl key (h key found)
  simpa [mem_keys_iff_get?_isSome] using absent

namespace Ordered

/-- The first key is the least one. -/
theorem head_lt {k : String} {v : α} {es : Entries α} (h : Ordered ((k, v) :: es)) :
    ∀ l ∈ keys es, k < l :=
  (List.pairwise_cons.1 h).1

/-- Entries behind the first one are ordered. -/
theorem tail {k : String} {v : α} {es : Entries α} (h : Ordered ((k, v) :: es)) : Ordered es :=
  (List.pairwise_cons.1 h).2

/-- No entries are ordered. -/
theorem nil : Ordered ([] : Entries α) := List.Pairwise.nil

/-- An entry with a lesser key may stand in front. -/
theorem cons {k : String} {v : α} {es : Entries α} (first : ∀ l ∈ keys es, k < l)
    (rest : Ordered es) : Ordered ((k, v) :: es) :=
  List.pairwise_cons.2 ⟨first, rest⟩

/-- To insert an entry keeps the order. -/
theorem insert {es : Entries α} (h : Ordered es) (key : String) (value : α) :
    Ordered (Entries.insert key value es) := by
  induction es with
  | nil => exact cons (by simp [keys]) nil
  | cons entry rest ih =>
    obtain ⟨k, v⟩ := entry
    by_cases before : key < k
    · have below : ∀ l ∈ keys ((k, v) :: rest), key < l := by
        intro l found
        rcases List.mem_cons.1 found with rfl | later
        · exact before
        · exact String.lt_trans before (h.head_lt l later)
      simpa [Entries.insert, before] using cons below h
    · by_cases same : k = key
      · subst same
        simpa [Entries.insert, before] using cons h.head_lt h.tail
      · have between : k < key :=
          Decidable.byContradiction fun above => same (String.le_antisymm before above)
        have below : ∀ l ∈ keys (Entries.insert key value rest), k < l := by
          intro l found
          rcases (mem_keys_insert ..).1 found with rfl | later
          · exact between
          · exact h.head_lt l later
        simpa [Entries.insert, before, same] using cons below (ih h.tail)

/-- To erase an entry keeps the order. -/
theorem erase {es : Entries α} (h : Ordered es) (key : String) :
    Ordered (Entries.erase key es) :=
  List.Pairwise.sublist ((erase_sublist key es).map _) h

/-- To insert several entries keeps the order. -/
theorem insertAll {es : Entries α} (h : Ordered es) (new : List (String × α)) :
    Ordered (Entries.insertAll new es) := by
  induction new generalizing es with
  | nil => exact h
  | cons entry rest ih => exact ih (h.insert entry.1 entry.2)

/-- What is erased is not found. -/
theorem get?_erase_self {es : Entries α} (h : Ordered es) (key : String) :
    get? key (Entries.erase key es) = none := by
  induction es with
  | nil => rfl
  | cons entry rest ih =>
    obtain ⟨k, v⟩ := entry
    by_cases same : k = key
    · subst same
      simpa [Entries.erase] using get?_eq_none_of_lt h.head_lt
    · simpa [Entries.erase, same, get?_cons] using ih h.tail

/-- In ordered entries no other value hides an entry. -/
theorem get?_eq_some_iff {es : Entries α} (h : Ordered es) {key : String} {value : α} :
    get? key es = some value ↔ (key, value) ∈ es := by
  refine ⟨mem_of_get?, fun hmem => ?_⟩
  induction es with
  | nil => cases hmem
  | cons entry rest ih =>
    obtain ⟨k, v⟩ := entry
    rw [get?_cons]
    rcases List.mem_cons.1 hmem with first | later
    · cases first
      exact if_pos rfl
    · have below : k < key := h.head_lt key (List.mem_map_of_mem later)
      rw [if_neg fun same : k = key => String.lt_irrefl key (same ▸ below)]
      exact ih h.tail later

/-- Ordered entries are determined by what is found under each key. -/
theorem eq_of_get?_eq {es fs : Entries α} (he : Ordered es) (hf : Ordered fs)
    (same : ∀ key, get? key es = get? key fs) : es = fs := by
  induction es generalizing fs with
  | nil =>
    cases fs with
    | nil => rfl
    | cons entry rest => simpa using (same entry.1).trans (get?_cons entry.1 entry.1 entry.2 rest)
  | cons entry rest ih =>
    obtain ⟨k, v⟩ := entry
    cases fs with
    | nil => simpa [get?_cons] using same k
    | cons other rest' =>
      obtain ⟨l, w⟩ := other
      have heads : k = l := by
        have inRight : k ∈ keys ((l, w) :: rest') := by
          simp [mem_keys_iff_get?_isSome, ← same k, get?_cons]
        have inLeft : l ∈ keys ((k, v) :: rest) := by
          simp [mem_keys_iff_get?_isSome, same l, get?_cons]
        rcases List.mem_cons.1 inRight with eq | later
        · exact eq
        · rcases List.mem_cons.1 inLeft with eq | later'
          · exact eq.symm
          · exact absurd (String.lt_trans (hf.head_lt k later) (he.head_lt l later'))
              (String.lt_irrefl l)
      subst heads
      have values : v = w := by simpa [get?_cons] using same k
      subst values
      have tails : rest = rest' := by
        refine ih he.tail hf.tail fun key => ?_
        by_cases first : k = key
        · subst first
          rw [get?_eq_none_of_lt he.head_lt, get?_eq_none_of_lt hf.head_lt]
        · simpa [get?_cons, first] using same key
      rw [tails]

end Ordered

end Entries

end TypedConfig
