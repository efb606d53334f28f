import Mathlib.Data.List.Sort
import TypedConfig.Proofs.Outcome
import TypedConfig.Value.Equality

/-!
# Equality of values

A comparison of two values looks at their outermost forms and hands their parts on: the items of
arrays and lists, and the values of maps. So symmetry and transitivity are shown of one such step,
over any relation that has them on the parts, and then of values by induction on their parts. They
hold of all values. Reflexivity fails at `nan`, which is unequal to itself, so it takes values
without fractions.

An object is equal to itself by its identity. A machine gives an identity to one object only, so
objects that are built apart differ in it, and only their contents can make them equal.
-/

namespace TypedConfig

namespace Decimal.Binary

variable {f : Format} {x y z : Binary f}

/-- Finite numbers are equal if both are zero, or of the same sign, significand and exponent. -/
theorem equal_finite {s t : Bool} {m n : Nat} {e k : Int} :
    (finite s m e : Binary f).equal (finite t n k) = true ↔
      m = 0 ∧ n = 0 ∨ s = t ∧ m = n ∧ e = k := by
  simp [equal, and_assoc]

/-- Comparison of floating-point numbers is symmetric. -/
theorem equal_symm (h : x.equal y = true) : y.equal x = true := by
  cases x with
  | nan => cases h
  | infinite s =>
    cases y with
    | infinite t => exact eq_of_beq h ▸ h
    | _ => cases h
  | finite s m e =>
    cases y with
    | finite t n k =>
      rw [equal_finite] at h ⊢
      grind
    | _ => cases h

/-- Comparison of floating-point numbers is transitive. -/
theorem equal_trans (h : x.equal y = true) (h' : y.equal z = true) : x.equal z = true := by
  cases y with
  | nan => cases h'
  | infinite t =>
    cases x with
    | infinite s => exact eq_of_beq h ▸ h'
    | _ => cases h
  | finite t n k =>
    cases x with
    | finite s m e =>
      cases z with
      | finite =>
        rw [equal_finite] at h h' ⊢
        grind
      | _ => cases h'
    | _ => cases h

end Decimal.Binary

mutual

/-- A value is identical to itself only. -/
theorem Value.identical_iff : ∀ v w : Value, v.identical w = true ↔ v = w
  | .int _, w | .long _, w | .float _, w | .double _, w | .bool _, w | .string _, w => by
    cases w <;> simp [Value.identical]
  | .array _ xs, w => by cases w <;> simp [Value.identical, Value.identicalLists_iff xs]
  | .object _ c, w => by cases w <;> simp [Value.identical, Content.identical_iff c]

/-- Lists are identical if they are the same list. -/
theorem Value.identicalLists_iff : ∀ xs ys : List Value,
    Value.identicalLists xs ys = true ↔ xs = ys
  | [], ys => by cases ys <;> simp [Value.identicalLists]
  | v :: vs, ys => by
    cases ys <;> simp [Value.identicalLists, Value.identical_iff v, Value.identicalLists_iff vs]

/-- Entries are identical if they are the same entries. -/
theorem Value.identicalEntries_iff : ∀ es fs : List (String × Value),
    Value.identicalEntries es fs = true ↔ es = fs
  | [], fs => by cases fs <;> simp [Value.identicalEntries]
  | (_, _) :: _, [] => by simp [Value.identicalEntries]
  | (_, v) :: es, (_, _) :: _ => by
    simp [Value.identicalEntries, Value.identical_iff v, Value.identicalEntries_iff es]

/-- Contents are identical if they are the same content. -/
theorem Content.identical_iff : ∀ c d : Content, c.identical d = true ↔ c = d
  | .file _, d | .resource _, d | .url _, d | .timeZone _, d | .socket .., d | .storeMarker, d
  | .shell _, d | .custom _, d => by
    cases d <;> simp [Content.identical]
  | .map es, d => by cases d <;> simp [Content.identical, Value.identicalEntries_iff es]
  | .list xs, d => by cases d <;> simp [Content.identical, Value.identicalLists_iff xs]
  | .parallel _ none _ _ es, d => by
    cases d with
    | parallel _ items =>
      cases items <;> simp [Content.identical, Value.identicalEntries_iff es, and_assoc]
    | _ => simp [Content.identical]
  | .parallel _ (some xs) _ _ es, d => by
    cases d with
    | parallel _ items =>
      cases items <;> simp [Content.identical, Value.identicalLists_iff xs,
        Value.identicalEntries_iff es, and_assoc]
    | _ => simp [Content.identical]

end

section Parts

/-- The values inside an object that a comparison goes into. -/
def Content.parts : Content → List Value
  | .map entries => entries.map Prod.snd
  | .list items => items
  | _ => []

/-- The values inside a value that a comparison goes into. -/
def Value.parts : Value → List Value
  | .array _ items => items
  | .object _ content => content.parts
  | _ => []

/-- The parts of a content are smaller than it. -/
theorem Content.sizeOf_part {c : Content} {p : Value} (h : p ∈ c.parts) : sizeOf p < sizeOf c := by
  cases c with
  | map entries =>
    obtain ⟨⟨key, v⟩, hentry, rfl⟩ := List.mem_map.mp h
    have hsize := List.sizeOf_lt_of_mem hentry
    rw [Prod.mk.sizeOf_spec] at hsize
    rw [Content.map.sizeOf_spec]
    change sizeOf v < _
    omega
  | list items =>
    have hsize := List.sizeOf_lt_of_mem (show p ∈ items from h)
    rw [Content.list.sizeOf_spec]
    omega
  | _ => cases h

/-- The parts of a value are smaller than it. -/
theorem Value.sizeOf_part {v p : Value} (h : p ∈ v.parts) : sizeOf p < sizeOf v := by
  cases v with
  | array element items =>
    have hsize := List.sizeOf_lt_of_mem (show p ∈ items from h)
    rw [Value.array.sizeOf_spec]
    omega
  | object id content =>
    have hsize := Content.sizeOf_part h
    rw [Value.object.sizeOf_spec]
    omega
  | _ => cases h

/-- What holds of a value if it holds of its parts holds of every value. -/
theorem Value.parts_induction {P : Value → Prop} (h : ∀ v : Value, (∀ p ∈ v.parts, P p) → P v)
    (v : Value) : P v :=
  h v fun p _ => Value.parts_induction h p
termination_by sizeOf v
decreasing_by exact Value.sizeOf_part ‹_›

end Parts

section Matching

/-- Two objects are of one type that compares contents, and their contents are equal as far as `R`
relates their parts. Files are compared by the components of their paths, and maps have the same
keys. -/
inductive Content.Matches (R : Value → Value → Prop) : Content → Content → Prop where
  | file {p q : String} (components : File.Path.components p = File.Path.components q) :
    Matches R (.file p) (.file q)
  | resource (name : String) : Matches R (.resource name) (.resource name)
  | url (text : String) : Matches R (.url text) (.url text)
  | timeZone (zone : String) : Matches R (.timeZone zone) (.timeZone zone)
  | socket (host : String) (port : Nat) : Matches R (.socket host port) (.socket host port)
  | map {es fs : Entries Value} (keys : Entries.keys es = Entries.keys fs)
      (values : List.Forall₂ R (es.map Prod.snd) (fs.map Prod.snd)) : Matches R (.map es) (.map fs)
  | list {xs ys : List Value} (items : List.Forall₂ R xs ys) : Matches R (.list xs) (.list ys)
  | storeMarker : Matches R .storeMarker .storeMarker

/-- One step of a comparison: two values have the same outermost form, and `R` relates their parts.
Of objects that are one and the same nothing more is asked. -/
inductive Value.Matches (R : Value → Value → Prop) : Value → Value → Prop where
  | int (n : Int32) : Matches R (.int n) (.int n)
  | long (n : Int64) : Matches R (.long n) (.long n)
  | float {x y : Decimal.Single} (number : x.equal y = true) : Matches R (.float x) (.float y)
  | double {x y : Decimal.Double} (number : x.equal y = true) : Matches R (.double x) (.double y)
  | bool (b : Bool) : Matches R (.bool b) (.bool b)
  | string (s : String) : Matches R (.string s) (.string s)
  | array (element : Kind) {xs ys : List Value} (items : List.Forall₂ R xs ys) :
    Matches R (.array element xs) (.array element ys)
  | same (id : ObjectId) (c : Content) : Matches R (.object id c) (.object id c)
  | contents (i j : ObjectId) {c d : Content} (contents : c.Matches R d) :
    Matches R (.object i c) (.object j d)

/-- The equality of the language, as a relation. -/
def Value.Equals (v w : Value) : Prop := v.equal w = true

/-- Lists are equal if their items are, one by one. -/
theorem Value.equalLists_iff {xs ys : List Value} :
    Value.equalLists xs ys = true ↔ List.Forall₂ Value.Equals xs ys := by
  induction xs generalizing ys with
  | nil => cases ys <;> simp [Value.equalLists]
  | cons v vs ih => cases ys <;> simp [Value.equalLists, Value.Equals, ih]

/-- Entries are equal if they have the same keys and equal values, one by one. -/
theorem Value.equalEntries_iff {es fs : Entries Value} :
    Value.equalEntries es fs = true ↔ Entries.keys es = Entries.keys fs ∧
      List.Forall₂ Value.Equals (es.map Prod.snd) (fs.map Prod.snd) := by
  induction es generalizing fs with
  | nil => cases fs <;> simp [Value.equalEntries, Entries.keys]
  | cons entry es ih =>
    obtain ⟨key, v⟩ := entry
    cases fs with
    | nil => simp [Value.equalEntries, Entries.keys]
    | cons other fs =>
      obtain ⟨key', w⟩ := other
      simp only [Value.equalEntries, Bool.and_eq_true, beq_iff_eq, ih, Entries.keys, List.map_cons,
        List.cons.injEq, List.forall₂_cons, Value.Equals]
      tauto

/-- Contents are equal if they match with equal parts. -/
theorem Content.equal_iff_matches {c d : Content} :
    c.equal d = true ↔ c.Matches Value.Equals d := by
  constructor
  · intro h
    unfold Content.equal at h
    split at h
    · exact .file (eq_of_beq h)
    · exact eq_of_beq h ▸ .resource _
    · exact eq_of_beq h ▸ .url _
    · exact eq_of_beq h ▸ .timeZone _
    · rw [Bool.and_eq_true, beq_iff_eq, beq_iff_eq] at h
      obtain ⟨rfl, rfl⟩ := h
      exact .socket _ _
    · obtain ⟨hkeys, hvalues⟩ := Value.equalEntries_iff.mp h
      exact .map hkeys hvalues
    · exact .list (Value.equalLists_iff.mp h)
    · exact .storeMarker
    · cases h
  · intro h
    cases h with
    | file components => simp [Content.equal, File.Path.same, components]
    | map keys values => simp [Content.equal, Value.equalEntries_iff.mpr ⟨keys, values⟩]
    | list items => simp [Content.equal, Value.equalLists_iff.mpr items]
    | _ => simp [Content.equal]

/-- A comparison is one step that compares the parts in turn. -/
theorem Value.equals_iff_matches {v w : Value} : v.Equals w ↔ v.Matches Value.Equals w := by
  unfold Value.Equals
  constructor
  · intro h
    unfold Value.equal at h
    split at h
    · exact eq_of_beq h ▸ .int _
    · exact eq_of_beq h ▸ .long _
    · exact .float h
    · exact .double h
    · exact eq_of_beq h ▸ .bool _
    · exact eq_of_beq h ▸ .string _
    · rw [Bool.and_eq_true, beq_iff_eq] at h
      obtain ⟨rfl, hitems⟩ := h
      exact .array _ (Value.equalLists_iff.mp hitems)
    · rw [Bool.or_eq_true, Bool.and_eq_true, beq_iff_eq, Content.identical_iff] at h
      rcases h with ⟨rfl, rfl⟩ | hcontents
      · exact .same _ _
      · exact .contents _ _ (Content.equal_iff_matches.mp hcontents)
    · cases h
  · intro h
    cases h with
    | float number | double number => simp [Value.equal, number]
    | array element items => simp [Value.equal, Value.equalLists_iff.mpr items]
    | same id c => simp [Value.equal, (Content.identical_iff c c).mpr rfl]
    | contents i j contents => simp [Value.equal, Content.equal_iff_matches.mpr contents]
    | _ => simp [Value.equal]

end Matching

section Laws

/-- Two lists are related in the other order if that holds of the items of the first one. -/
theorem forall₂_symm_of_mem {α : Type} {R : α → α → Prop} {xs ys : List α}
    (hR : ∀ x ∈ xs, ∀ y, R x y → R y x) (h : List.Forall₂ R xs ys) : List.Forall₂ R ys xs :=
  .flip (((List.forall₂_and_left xs ys).mpr ⟨hR, h⟩).imp fun _ y hxy => hxy.1 y hxy.2)

/-- A relation of lists item by item is transitive if it is so at the items of the first one. -/
theorem forall₂_trans_of_mem {α : Type} {R : α → α → Prop} {xs ys zs : List α}
    (hR : ∀ x ∈ xs, ∀ y z, R x y → R y z → R x z) (h : List.Forall₂ R xs ys)
    (h' : List.Forall₂ R ys zs) : List.Forall₂ R xs zs := by
  induction h generalizing zs with
  | nil => exact h'
  | cons hxy _ ih =>
    cases h' with
    | cons hyz h' =>
      exact .cons (hR _ (.head _) _ _ hxy hyz) (ih (fun x hx => hR x (.tail _ hx)) h')

namespace Content

variable {R : Value → Value → Prop} {c d e : Content}

/-- Whether an object is of a type that compares contents. Objects of the other types are equal only
to themselves. -/
def comparesContents : Content → Bool
  | .shell _ | .parallel .. | .custom _ => false
  | _ => true

/-- What can be run is not compared by content. -/
theorem comparesContents_of_isRunnable (h : c.isRunnable = true) : c.comparesContents = false := by
  cases c with
  | shell | parallel => rfl
  | _ => cases h

namespace Matches

/-- What matches is compared by content. -/
theorem comparesContents (h : c.Matches R d) : c.comparesContents = true := by
  cases h <;> rfl

/-- What matches is of one type. -/
theorem typeId_eq (h : c.Matches R d) : c.typeId = d.typeId := by
  cases h <;> rfl

/-- A content matches itself if its parts are related to themselves. -/
theorem refl (hc : c.comparesContents = true) (hR : ∀ p ∈ c.parts, R p p) : c.Matches R c := by
  cases c with
  | file => exact .file rfl
  | map entries => exact .map rfl (List.forall₂_same.mpr hR)
  | list items => exact .list (List.forall₂_same.mpr hR)
  | shell | parallel | custom => cases hc
  | _ => constructor

/-- Matching is symmetric if the relation of the parts is. -/
theorem symm (hR : ∀ p ∈ c.parts, ∀ q, R p q → R q p) (h : c.Matches R d) : d.Matches R c := by
  cases h with
  | file components => exact .file components.symm
  | map keys values => exact .map keys.symm (forall₂_symm_of_mem hR values)
  | list items => exact .list (forall₂_symm_of_mem hR items)
  | _ => constructor

/-- Matching is transitive if the relation of the parts is. -/
theorem trans (hR : ∀ p ∈ c.parts, ∀ q r, R p q → R q r → R p r) (h : c.Matches R d)
    (h' : d.Matches R e) : c.Matches R e := by
  cases h with
  | file components =>
    cases h' with
    | file components' => exact .file (components.trans components')
  | map keys values =>
    cases h' with
    | map keys' values' =>
      exact .map (keys.trans keys') (forall₂_trans_of_mem hR values values')
  | list items =>
    cases h' with
    | list items' => exact .list (forall₂_trans_of_mem hR items items')
  | _ => exact h'

end Matches

end Content

namespace Value

variable {u v w : Value}

/-- A comparison of the value meets no fraction, neither at once nor in a part, however deep. -/
inductive FloatFree : Value → Prop where
  | intro {v : Value} (noFraction : v.double? = none) (parts : ∀ p ∈ v.parts, FloatFree p) :
    FloatFree v

/-- Whatever the fractions are, equality goes both ways. -/
theorem Equals.symm (h : v.Equals w) : w.Equals v := by
  induction v using parts_induction generalizing w with
  | h v ih =>
    rw [equals_iff_matches] at h ⊢
    cases h with
    | float number => exact .float (Decimal.Binary.equal_symm number)
    | double number => exact .double (Decimal.Binary.equal_symm number)
    | array element items =>
      exact .array element (forall₂_symm_of_mem (fun p hp _ => ih p hp) items)
    | contents i j contents => exact .contents j i (contents.symm fun p hp _ => ih p hp)
    | _ => constructor

/-- Equality of values is transitive. -/
theorem Equals.trans (h : u.Equals v) (h' : v.Equals w) : u.Equals w := by
  induction u using parts_induction generalizing v w with
  | h u ih =>
    rw [equals_iff_matches] at h h' ⊢
    cases h with
    | float number =>
      cases h' with
      | float number' => exact .float (Decimal.Binary.equal_trans number number')
    | double number =>
      cases h' with
      | double number' => exact .double (Decimal.Binary.equal_trans number number')
    | array element items =>
      cases h' with
      | array _ items' =>
        exact .array element (forall₂_trans_of_mem (fun p hp _ _ => ih p hp) items items')
    | contents i j contents =>
      -- What is known of an object is known of whatever is the same as it.
      cases h' with
      | same => exact .contents i j contents
      | contents _ k contents' =>
        exact .contents i k (contents.trans (fun p hp _ _ => ih p hp) contents')
    | _ => exact h'

/-- A value without floating-point numbers equals itself. -/
theorem FloatFree.equals_self (h : v.FloatFree) : v.Equals v := by
  induction h with
  | @intro v noFraction _ ih =>
    rw [equals_iff_matches]
    cases v with
    | float | double => cases noFraction
    | array element items => exact .array element (List.forall₂_same.mpr ih)
    | _ => constructor

/-- Equal values have the same kind. -/
theorem Equals.kind_eq (h : v.Equals w) : v.kind = w.kind := by
  cases equals_iff_matches.mp h with
  | contents i j contents => exact congrArg Kind.object contents.typeId_eq
  | _ => rfl

end Value

end Laws

namespace Entries

variable {α : Type} {R : α → α → Prop} {es fs : Entries α}

/-- What is found under a key in entries with the same keys and related values. -/
theorem get?_rel_of_forall₂ (hkeys : keys es = keys fs)
    (h : List.Forall₂ R (es.map Prod.snd) (fs.map Prod.snd)) (key : String) :
    Option.Rel R (get? key es) (get? key fs) := by
  induction es generalizing fs with
  | nil =>
    cases fs with
    | nil => exact .none
    | cons => cases hkeys
  | cons entry es ih =>
    cases fs with
    | nil => cases hkeys
    | cons other fs =>
      obtain ⟨k, v⟩ := entry
      obtain ⟨l, w⟩ := other
      obtain ⟨hfirst, hrest⟩ : k = l ∧ keys es = keys fs := List.cons.inj hkeys
      obtain ⟨hvalue, hvalues⟩ := List.forall₂_cons.mp h
      rw [get?_cons, get?_cons, hfirst]
      split
      · exact .some hvalue
      · exact ih hrest hvalues

/-- In ordered entries the keys are determined by where something is found. -/
theorem Ordered.keys_eq_of_isSome_eq (hes : Ordered es) (hfs : Ordered fs)
    (h : ∀ key, (get? key es).isSome = (get? key fs).isSome) : keys es = keys fs := by
  refine List.Pairwise.eq_of_mem_iff hes hfs fun key => ?_
  rw [mem_keys_iff_get?_isSome, mem_keys_iff_get?_isSome, h]

/-- Ordered entries with the same keys are related one by one if they are by key. -/
theorem Ordered.forall₂_of_get?_rel (hes : Ordered es) (hkeys : keys es = keys fs)
    (h : ∀ key, Option.Rel R (get? key es) (get? key fs)) :
    List.Forall₂ R (es.map Prod.snd) (fs.map Prod.snd) := by
  induction es generalizing fs with
  | nil =>
    cases fs with
    | nil => exact .nil
    | cons => cases hkeys
  | cons entry es ih =>
    cases fs with
    | nil => cases hkeys
    | cons other fs =>
      obtain ⟨k, v⟩ := entry
      obtain ⟨l, w⟩ := other
      obtain ⟨rfl, hrest⟩ : k = l ∧ keys es = keys fs := List.cons.inj hkeys
      refine .cons ?_ (ih hes.tail hrest fun key => ?_)
      · have hfirst := h k
        rw [get?_cons, get?_cons, if_pos rfl, if_pos rfl] at hfirst
        cases hfirst
        assumption
      · -- The first key is in neither rest, where every key is greater.
        by_cases hkey : k = key
        · subst hkey
          rw [get?_eq_none_of_lt hes.head_lt, get?_eq_none_of_lt (hrest ▸ hes.head_lt)]
          exact .none
        · have hlater := h key
          rwa [get?_cons, get?_cons, if_neg hkey, if_neg hkey] at hlater

end Entries

namespace Machine

variable {m : Machine} {i : ObjectId}

/-- The machine has given the identity to an object. -/
def HasIssued (m : Machine) (i : ObjectId) : Prop :=
  i.serial < (Entries.get? i.owner m.issued).getD 0

/-- The next identity has not been issued. -/
theorem not_hasIssued_issue (m : Machine) : ¬ m.HasIssued m.issue.1 := Nat.lt_irrefl _

/-- To issue an identity adds it to those that have been issued, and no other one. -/
theorem hasIssued_issue_iff : m.issue.2.HasIssued i ↔ i = m.issue.1 ∨ m.HasIssued i := by
  obtain ⟨owner, serial⟩ := i
  by_cases howner : owner = m.owner
  · subst howner
    simp only [HasIssued, issue, Entries.get?_insert_self, Option.getD_some, ObjectId.mk.injEq,
      true_and]
    omega
  · simp only [HasIssued, issue, Entries.get?_insert_of_ne howner, ObjectId.mk.injEq, howner,
      false_and, false_or]

end Machine

namespace Value

section Objects

variable {i j : ObjectId} {c d : Content} {v : Value}

/-- Objects are equal if they are the same object or match. -/
theorem object_equals_iff :
    (object i c).Equals (object j d) ↔ (i = j ∧ c = d) ∨ c.Matches Equals d := by
  rw [equals_iff_matches]
  constructor
  · intro h
    cases h with
    | same => exact .inl ⟨rfl, rfl⟩
    | contents _ _ contents => exact .inr contents
  · rintro (⟨rfl, rfl⟩ | hcontents)
    · exact .same i c
    · exact .contents i j hcontents

/-- Of a type that compares contents, objects are equal by identity only if they are so by their
contents. -/
theorem FloatFree.object_equals_iff_matches (h : (object i c).FloatFree)
    (hc : c.comparesContents = true) : (object i c).Equals (object j d) ↔ c.Matches Equals d := by
  rw [object_equals_iff, or_iff_right_of_imp]
  rintro ⟨-, rfl⟩
  obtain ⟨-, hparts⟩ := h
  exact .refl hc fun p hp => (hparts p hp).equals_self

/-- With `nan` in it, a list is equal to itself by its identity, but not to its copy. -/
example : let v (serial : Nat) := object ⟨"l", serial⟩ (.list [.double .nan])
    (v 0).equal (v 0) = true ∧ (v 0).equal (v 1) = false := by cbv

/-- Without a comparison of contents there is only the object itself. -/
theorem object_equals_iff_eq (hc : c.comparesContents = false) :
    (object i c).Equals v ↔ v = object i c := by
  rw [equals_iff_matches]
  constructor
  · intro h
    cases h with
    | same => rfl
    | contents _ _ contents => exact absurd contents.comparesContents (by simp [hc])
  · rintro rfl
    exact .same i c

/-- Maps match if they have equal values under the same keys. -/
theorem map_matches_iff {es fs : Entries Value} (hes : Entries.Ordered es)
    (hfs : Entries.Ordered fs) :
    Content.Matches Equals (.map es) (.map fs) ↔
      ∀ key, Option.Rel Equals (Entries.get? key es) (Entries.get? key fs) := by
  constructor
  · intro h
    cases h with
    | map keys values => exact Entries.get?_rel_of_forall₂ keys values
  · intro h
    have hfound (key : String) : (Entries.get? key es).isSome = (Entries.get? key fs).isSome := by
      have hkey := h key
      generalize Entries.get? key es = x, Entries.get? key fs = y at hkey
      cases hkey <;> rfl
    have hkeys := hes.keys_eq_of_isSome_eq hfs hfound
    exact .map hkeys (hes.forall₂_of_get?_rel hkeys h)

end Objects

/-- Equality is an equivalence of values without fractions, and equal values have one kind. Objects
that are built apart are equal exactly if they are of one type that compares contents and their
contents match: the components of the paths of files, the items of lists, what is found under each
key of maps, and the whole content of the other types. Without fractions this holds of all objects
of such a type, be they one object or two. A runnable is equal only to itself. What is built apart
differs in identity, since an object is built with one that no object has been given before. -/
theorem equality_laws :
    Equivalence (fun v w : {v : Value // v.FloatFree} => v.1.Equals w.1) ∧
    (∀ v w : Value, v.Equals w → v.kind = w.kind) ∧
    (∀ i j c d, i ≠ j → ((object i c).Equals (object j d) ↔ c.Matches Equals d)) ∧
    (∀ i j c d, (object i c).FloatFree → c.comparesContents = true →
      ((object i c).Equals (object j d) ↔ c.Matches Equals d)) ∧
    (∀ es fs : Entries Value, Entries.Ordered es → Entries.Ordered fs →
      (Content.Matches Equals (.map es) (.map fs) ↔
        ∀ key, Option.Rel Equals (Entries.get? key es) (Entries.get? key fs))) ∧
    (∀ i c, c.isRunnable = true → ∀ v, (object i c).Equals v ↔ v = object i c) ∧
    ∀ (m : Machine) (c : Content),
      outcome (Construct.Build.object c) m = (.ok (object m.issue.1 c), m.issue.2) ∧
        ¬ m.HasIssued m.issue.1 ∧ ∀ i, m.issue.2.HasIssued i ↔ i = m.issue.1 ∨ m.HasIssued i := by
  refine ⟨⟨fun v => v.2.equals_self, .symm, .trans⟩, fun _ _ h => h.kind_eq, ?_,
    fun i j c d h hc => h.object_equals_iff_matches hc, fun es fs => map_matches_iff, ?_,
    fun m c => ⟨rfl, m.not_hasIssued_issue, fun i => m.hasIssued_issue_iff⟩⟩
  · intro i j c d hne
    rw [object_equals_iff]
    exact or_iff_right fun h => hne h.1
  · intro i c hc v
    exact object_equals_iff_eq (Content.comparesContents_of_isRunnable hc)

/-- A map, with a file and with a list in an array, and a copy of it that was built apart and writes
the path of the file in another way. A command is not equal to its copy. -/
theorem equality_of_copies :
    let file := object ⟨"f", 0⟩ (.file "x//y/.")
    let file' := object ⟨"f", 1⟩ (.file "x/y")
    let lists := array .any [object ⟨"l", 0⟩ (.list [.int 1])]
    let lists' := array .any [object ⟨"l", 1⟩ (.list [.int 1])]
    let entries : Entries Value := [("f", file), ("l", lists)]
    let entries' : Entries Value := [("f", file'), ("l", lists')]
    let command := Content.shell ⟨"ls", [], none⟩
    let m := (Machine.start ⟨.directory [], []⟩ []).withOwner "c"
    Entries.Ordered entries ∧ Entries.Ordered entries' ∧ lists.FloatFree ∧ lists.Equals lists' ∧
      (object ⟨"m", 0⟩ (.map entries)).Equals (object ⟨"m", 1⟩ (.map entries')) ∧
      Option.Rel Equals (Entries.get? "f" entries) (Entries.get? "f" entries') ∧
      command.isRunnable = true ∧
      ¬ (object m.issue.1 command).Equals (object m.issue.2.issue.1 command) := by
  intro file file' lists lists' entries entries' command m
  obtain ⟨hequivalence, -, hapart, hfree, hmaps, hrunnable, hbuilt⟩ := equality_laws
  have hordered : Entries.Ordered entries ∧ Entries.Ordered entries' := by
    constructor <;> (unfold Entries.Ordered; decide)
  have hint : (int 1).FloatFree := .intro rfl nofun
  have hlist (i : ObjectId) : (object i (.list [.int 1])).FloatFree :=
    .intro rfl fun p hp => by
      obtain rfl := List.mem_singleton.mp hp
      exact hint
  have hlists : lists.FloatFree := .intro rfl fun p hp => by
    obtain rfl := List.mem_singleton.mp hp
    exact hlist _
  have hfile : file.Equals file' := (hapart _ _ _ _ (by decide)).mpr (.file (by decide +kernel))
  have hcopy : lists.Equals lists' := by
    refine equals_iff_matches.mpr (.array _ (.cons ?_ .nil))
    exact (hfree _ _ _ _ (hlist _) rfl).mpr (.list (.cons (hequivalence.refl ⟨_, hint⟩) .nil))
  have hmap : Content.Matches Equals (.map entries) (.map entries') :=
    .map rfl (.cons hfile (.cons hcopy .nil))
  refine ⟨hordered.1, hordered.2, hlists, hcopy, (hapart _ _ _ _ (by decide)).mpr hmap,
    (hmaps _ _ hordered.1 hordered.2).mp hmap "f", rfl, fun h => ?_⟩
  have hsame := (hrunnable _ _ rfl _).mp h
  have hissued : m.issue.2.HasIssued m.issue.1 := ((hbuilt m command).2.2 _).mpr (.inl rfl)
  exact (hbuilt m.issue.2 command).2.1 ((object.inj hsame).1 ▸ hissued)

end Value

end TypedConfig
