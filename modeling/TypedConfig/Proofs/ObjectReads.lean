import TypedConfig.Proofs.Observation
import TypedConfig.Proofs.Reachable

/-!
# Objects by type and by tag

An object can be asked for by its type, or by the id of that type as a tag. What is found by type is
found by tag as well. The converse fails in two places. A scope reads by tag as it makes any typed
read, and goes on further out where its own value does not fit, but it reads by type like a map and
stops there. And an object of a type that is not built in may answer to the id of a built-in type.
-/

namespace TypedConfig

namespace ObjectType

variable {type : ObjectType} {content : Content}

/-- The built-in objects that answer to the id of a type are those of the type. -/
theorem isA_typeId (h : ∀ o, content ≠ .custom o) :
    content.isA type.typeId = type.holds content := by
  cases content with
  | custom o => exact absurd rfl (h o)
  | _ => cases type <;> rfl

/-- An object that is not built in answers to the id of a built-in type. -/
def Feigned (type : ObjectType) (content : Content) : Prop :=
  (∃ o, content = .custom o) ∧ content.isA type.typeId = true

/-- An object answers to the id of a type if it is of the type, or feigns to be. -/
theorem isA_iff : content.isA type.typeId = true ↔
    type.holds content = true ∨ type.Feigned content := by
  by_cases hcustom : ∃ o, content = .custom o
  · obtain ⟨o, rfl⟩ := hcustom
    have hholds : type.holds (.custom o) = false := by cases type <;> rfl
    simp [Feigned, hholds]
  · rw [isA_typeId (not_exists.mp hcustom), Feigned]
    simp [hcustom]

/-- What is taken out of a value by type is taken out of it by tag. -/
theorem take_tagged {v : Value} {o : ObjectId × Content} (h : type.reading.take v = some o) :
    (Reading.tagged type.typeId).take v = some o := by
  cases v with
  | object id content =>
    change (if type.holds content = true then some (id, content) else none) = some o at h
    change (if content.isA type.typeId = true then some (id, content) else none) = some o
    split at h
    next hholds => rw [if_pos (isA_iff.mpr (.inl hholds)), h]
    next => cases h
  | _ => cases h

end ObjectType

namespace Store

variable {s : Store} {type : ObjectType} {key : String} {o : ObjectId × Content}

/-- The value under a key is an object that feigns a type. -/
def HoldsFeigned (type : ObjectType) (key : String) (s : Store) : Prop :=
  ∃ id content, (s.get? key).result = some (.object id content) ∧ type.Feigned content

/-- A read that succeeds on what is found takes something out of a value. -/
theorem ofFound_eq_ok {α : Type} {r : Reading α} {found : Option Value} {x : α} :
    r.ofFound key found = .ok x ↔ ∃ v, found = some v ∧ r.take v = some x := by
  cases found with
  | none => exact ⟨nofun, nofun⟩
  | some v => cases htake : r.take v <;> simp [Reading.ofFound, htake]

/-- A read by type takes the value that is found, if it is of the type. -/
theorem readObject_eq_ok : (s.readObject type key).result = .ok o ↔
    ∃ v, (s.get? key).result = some v ∧ type.reading.take v = some o :=
  ofFound_eq_ok

/-- A typed read takes the value under the key if it fits. -/
theorem read_of_fit {α : Type} {r : Reading α} {v : Value} {x : α}
    (hv : (s.get? key).result = some v) (hfit : r.take v = some x) :
    (s.read r key).result = .ok x := by
  obtain hread | ⟨w, _, hw, hmisfit, _⟩ := s.read_eq_or_passesMisfit r key
  · exact hread.trans (ofFound_eq_ok.mpr ⟨v, hv, hfit⟩)
  · rw [hv] at hw
    cases hw
    rw [hfit] at hmisfit
    cases hmisfit

/-- What is found by type is found by tag. -/
theorem read_of_readObject (h : (s.readObject type key).result = .ok o) :
    (s.read (.tagged type.typeId) key).result = .ok o := by
  obtain ⟨v, hv, hfit⟩ := readObject_eq_ok.mp h
  exact read_of_fit hv (ObjectType.take_tagged hfit)

/-- What is found by tag is found by type, unless the read passes over a value or ends at an object
that feigns the type. -/
theorem readObject_of_read (hpass : ¬ s.PassesMisfit (.tagged type.typeId) key)
    (hfeigned : ¬ s.HoldsFeigned type key)
    (h : (s.read (.tagged type.typeId) key).result = .ok o) :
    (s.readObject type key).result = .ok o := by
  rw [(s.read_eq_or_passesMisfit _ key).resolve_right hpass, ofFound_eq_ok] at h
  obtain ⟨v, hv, hfit⟩ := h
  refine readObject_eq_ok.mpr ⟨v, hv, ?_⟩
  cases v with
  | object id content =>
    change (if content.isA type.typeId = true then some (id, content) else none) = some o at hfit
    change (if type.holds content = true then some (id, content) else none) = some o
    split at hfit
    next htag =>
      have hholds : type.holds content = true :=
        (ObjectType.isA_iff.mp htag).resolve_right fun hf => hfeigned ⟨id, content, hv, hf⟩
      rw [if_pos hholds, hfit]
    next => cases hfit
  | _ => cases hfit

/-- A read by tag finds what a read by type does not where it passes over a value. -/
theorem PassesMisfit.not_readObject (h : s.PassesMisfit (.tagged type.typeId) key) :
    ∃ o, (s.read (.tagged type.typeId) key).result = .ok o ∧
      (s.readObject type key).result ≠ .ok o := by
  obtain ⟨v, o, hv, hmisfit, hread⟩ := h
  refine ⟨o, hread, fun hobject => ?_⟩
  obtain ⟨w, hw, hfit⟩ := readObject_eq_ok.mp hobject
  rw [hv] at hw
  cases hw
  rw [ObjectType.take_tagged hfit] at hmisfit
  cases hmisfit

/-- So it does where it ends at an object that feigns the type. -/
theorem HoldsFeigned.not_readObject (h : s.HoldsFeigned type key) :
    ∃ o, (s.read (.tagged type.typeId) key).result = .ok o ∧
      (s.readObject type key).result ≠ .ok o := by
  obtain ⟨id, content, hv, ⟨custom, rfl⟩, htag⟩ := h
  have hfit : (Reading.tagged type.typeId).take (.object id (.custom custom)) =
      some (id, .custom custom) := if_pos htag
  refine ⟨_, read_of_fit hv hfit, fun hobject => ?_⟩
  obtain ⟨w, hw, htake⟩ := readObject_eq_ok.mp hobject
  rw [hv] at hw
  cases hw
  cases type <;> cases htake

/-- Reads by type and by tag give the same exactly if they are alike successful. -/
theorem containsObject_eq_iff :
    (s.containsObject type key).result = (s.canRead (.tagged type.typeId) key).result ↔
      ∀ o, (s.readObject type key).result = .ok o ↔
        (s.read (.tagged type.typeId) key).result = .ok o := by
  change (s.readObject type key).result.toOption.isSome =
    (s.read (.tagged type.typeId) key).result.toOption.isSome ↔ _
  cases hobject : (s.readObject type key).result with
  | ok o => simp [read_of_readObject hobject, Except.toOption]
  | error e => cases (s.read (.tagged type.typeId) key).result <;> simp [Except.toOption]

/-- A scope contains an object by type if its own value is one, and asks the store below only where
it has no value at all. -/
theorem containsObject_scope (own : Entries Value) (outer : Store) :
    ((scope own outer).containsObject type key).result =
      match Entries.get? key own with
      | some v => (type.reading.take v).isSome
      | none => (outer.containsObject type key).result := by
  change (type.reading.ofFound key ((scope own outer).get? key).result).toOption.isSome = _
  rw [get?_scope]
  cases Entries.get? key own with
  | none => rfl
  | some v =>
    rw [Option.some_or]
    cases htake : type.reading.take v <;> simp [Reading.ofFound, htake, Except.toOption]

/-- Reading an object by type and by tag succeed alike, with the same object, and are alike in what
they contain, exactly if the read by tag does not pass over a value of another sort and does not end
at an object that feigns the type. Only a scope passes over a value; so it does not contain by type
what one of its two stores contains exactly if its own value hides the object of the other one. -/
theorem object_reads_agree_iff (type : ObjectType) (key : String) (s : Store) :
    let byType := (s.readObject type key).result
    let byTag := (s.read (.tagged type.typeId) key).result
    let alike := ¬ s.PassesMisfit (.tagged type.typeId) key ∧ ¬ s.HoldsFeigned type key
    (∀ o, byType = .ok o → byTag = .ok o) ∧ ((∀ o, byType = .ok o ↔ byTag = .ok o) ↔ alike) ∧
      ((s.containsObject type key).result = (s.canRead (.tagged type.typeId) key).result ↔ alike) ∧
      (s.isScope = false → ¬ s.PassesMisfit (.tagged type.typeId) key) ∧
      ∀ own outer, s = .scope own outer → ((s.containsObject type key).result =
          (((map own).containsObject type key).result ||
            (outer.containsObject type key).result) ↔
        ¬ ∃ v, Entries.get? key own = some v ∧ type.reading.take v = none ∧
          (outer.containsObject type key).result = true) := by
  intro byType byTag alike
  have hagree : (∀ o, byType = .ok o ↔ byTag = .ok o) ↔ alike := by
    constructor
    · intro hsame
      refine ⟨fun hpass => ?_, fun hfeigned => ?_⟩
      · obtain ⟨o, hread, hobject⟩ := hpass.not_readObject
        exact hobject ((hsame o).mpr hread)
      · obtain ⟨o, hread, hobject⟩ := hfeigned.not_readObject
        exact hobject ((hsame o).mpr hread)
    · rintro ⟨hpass, hfeigned⟩ o
      exact ⟨read_of_readObject, readObject_of_read hpass hfeigned⟩
  refine ⟨fun o => read_of_readObject, hagree, containsObject_eq_iff.trans hagree,
    not_passesMisfit_of_isScope _ key, ?_⟩
  rintro own outer rfl
  have hown : ((map own).containsObject type key).result =
      (type.reading.ofFound key (Entries.get? key own)).toOption.isSome := rfl
  rw [containsObject_scope, hown]
  cases Entries.get? key own with
  | none => simp [Reading.ofFound, Except.toOption]
  | some v => cases htake : type.reading.take v <;> simp [Reading.ofFound, htake, Except.toOption]

/-- A text in a scope hides a file below it from reads by type, but not from reads by tag. -/
theorem scope_hides_object :
    let file : ObjectId × Content := (⟨"", 0⟩, .file "a.txt")
    let outer := Request.next (.put "x" (.object file.1 file.2)) empty
    let s := Request.next (.put "x" (.string "seven")) outer.scopeOver
    s.Reachable ∧ (s.read (.tagged TypeId.file) "x").result = .ok file ∧
      (s.readObject .file "x").result = .error (.wrongType "x" ObjectType.file.expected .string) ∧
      (s.canRead (.tagged TypeId.file) "x").result = true ∧
      (outer.containsObject .file "x").result = true ∧
      (s.containsObject .file "x").result = false := by
  intro file outer s
  have houter : outer.Reachable := ReachableBy.empty.step (.request empty trivial)
  exact ⟨houter.scopeOver.step (.request _ trivial), rfl, rfl, rfl, rfl, rfl⟩

end Store

end TypedConfig
