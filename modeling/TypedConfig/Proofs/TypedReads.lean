import TypedConfig.Proofs.Requests
import TypedConfig.Value.Coercion

/-!
# Typed reads of scopes

A typed read of a scope takes the value of the own map if it fits, and reads the store below
otherwise. Along a chain of scopes it therefore finds the innermost value that fits, whatever stands
under the key further in. If there is none, the error names the innermost value under the key.

What fits is what the kind of the getter accepts, and it is given as that kind coerces it.
-/

namespace TypedConfig

namespace Getter

/-- The kind that a getter asks for. -/
def kind : Getter → Kind
  | int => .int
  | long => .long
  | float => .float
  | double => .double
  | bool => .bool
  | string => .string
  | array => .array .any
  | tagged tag => .object tag

/-- What a getter gives, as a value. -/
def toValue : (g : Getter) → g.Result → Value
  | int, n => .int n
  | long, n => .long n
  | float, x => .float x
  | double, x => .double x
  | bool, b => .bool b
  | string, s => .string s
  | array, (element, items) => .array element items
  | tagged _, (id, content) => .object id content

/-- An array of any kind is accepted where arrays of anything are. -/
theorem accepts_array_any (element : Kind) (items : List Value) :
    (Kind.array .any).accepts (.array element items) = true := by
  have hany : Kind.any.acceptsKind element = true := by cases element <;> rfl
  simp [Kind.accepts, hany]

/-- A getter takes out of a value what its kind makes of it. -/
theorem take_toValue (g : Getter) (v : Value) :
    (g.reading.take v).map g.toValue = g.kind.coerce v := by
  cases g with
  | tagged tag =>
    cases v with
    | object id content =>
      change (if content.isA tag = true then some (id, content) else none).map (tagged tag).toValue =
        if content.isA tag = true then some (.object id content) else none
      split <;> rfl
    | _ => rfl
  | array =>
    cases v with
    | array element items =>
      change some (Value.array element items) = (Kind.array .any).coerce (.array element items)
      simp [Kind.coerce, accepts_array_any]
    | _ => rfl
  | _ => cases v <;> rfl

/-- A getter takes something out of exactly the values that its kind accepts. -/
theorem take_isSome (g : Getter) (v : Value) : (g.reading.take v).isSome = g.kind.accepts v := by
  cases g with
  | tagged tag =>
    cases v with
    | object id content =>
      change (if content.isA tag = true then some (id, content) else none).isSome = content.isA tag
      cases content.isA tag <;> rfl
    | _ => rfl
  | array =>
    cases v with
    | array element items => exact (accepts_array_any element items).symm
    | _ => rfl
  | _ => cases v <;> rfl

/-- A getter that fails names the kind that it reads. -/
theorem expected_eq (g : Getter) : g.reading.expected = g.kind.text := by
  cases g <;> rfl

end Getter

/-- What a read ends with that has passed over a value: with what is found further out, or with the
value as a misfit. -/
def Reading.past {α : Type} (r : Reading α) (key : String) (v : Value) :
    Except PropertyError α → Except PropertyError α
  | .ok x => .ok x
  | .error _ => .error (.wrongType key r.expected v.kind)

/-- The result of a read, with a default for a missing key. -/
def Reading.orDefault {α : Type} (default : α) : Except PropertyError α → Except PropertyError α
  | .error (.notFound _) => .ok default
  | result => result

namespace Store

variable {α : Type} {r : Reading α} {key : String} {own : Entries Value} {outer : Store} {v : Value}

/-- A scope without the key reads as the store below. -/
theorem read_scope_of_none (h : Entries.get? key own = none) :
    ((scope own outer).read r key).result = (outer.read r key).result := by
  rw [read, h]
  simp only [Reading.ofFound, Logged.result_bind]
  cases (outer.read r key).result <;> rfl

/-- A scope reads its own value if it fits. -/
theorem read_scope_of_fit {x : α} (h : Entries.get? key own = some v) (hfit : r.take v = some x) :
    ((scope own outer).read r key).result = .ok x := by
  rw [read, h]
  simp only [Reading.ofFound, hfit]
  rfl

/-- Where its own value does not fit, a scope reads the store below, and blames its own value if
nothing is found there either. -/
theorem read_scope_of_misfit (h : Entries.get? key own = some v) (hfit : r.take v = none) :
    ((scope own outer).read r key).result = r.past key v (outer.read r key).result := by
  rw [read, h]
  simp only [Reading.ofFound, hfit, Logged.result_bind]
  cases (outer.read r key).result <;> rfl

/-- Scopes over each other and over a map: their maps, the innermost one first. -/
def chain : Entries Value → List (Entries Value) → Store
  | own, [] => .map own
  | own, next :: further => .scope own (chain next further)

/-- The value that a chain of maps has under a key for a getter: the innermost one that fits. -/
def innermostFit (g : Getter) (key : String) (maps : List (Entries Value)) : Option Value :=
  maps.findSome? fun m => (Entries.get? key m).filter g.kind.accepts

/-- What a typed read of some maps ends with: with the innermost value that fits, as the kind that
is asked for coerces it; else with the innermost value as a misfit; else with the missing key. -/
def ReadsInnermost (g : Getter) (key : String) (maps : List (Entries Value))
    (result : Except PropertyError g.Result) : Prop :=
  match innermostFit g key maps, maps.findSome? (Entries.get? key) with
  | some v, _ => ∃ x, result = .ok x ∧ g.kind.coerce v = some (g.toValue x)
  | none, some v => result = .error (.wrongType key g.kind.text v.kind)
  | none, none => result = .error (.notFound key)

section

variable {g : Getter} {maps : List (Entries Value)}

/-- A map without the key plays no part. -/
theorem readsInnermost_cons_of_none (h : Entries.get? key own = none)
    (result : Except PropertyError g.Result) :
    ReadsInnermost g key (own :: maps) result ↔ ReadsInnermost g key maps result := by
  simp [ReadsInnermost, innermostFit, h]

/-- A value that fits is taken, whatever stands further out. -/
theorem readsInnermost_cons_of_fit {x : g.Result} (h : Entries.get? key own = some v)
    (hfit : g.reading.take v = some x) : ReadsInnermost g key (own :: maps) (.ok x) := by
  have haccepts : g.kind.accepts v = true := by rw [← g.take_isSome, hfit, Option.isSome_some]
  have hcoerce : g.kind.coerce v = some (g.toValue x) := by
    rw [← g.take_toValue, hfit, Option.map_some]
  simp only [ReadsInnermost, innermostFit, List.findSome?_cons, h, Option.filter_some, haccepts,
    if_true]
  exact ⟨x, rfl, hcoerce⟩

/-- A value that does not fit is passed over, and blamed if nothing fits further out. -/
theorem readsInnermost_cons_of_misfit {result : Except PropertyError g.Result}
    (h : Entries.get? key own = some v) (hfit : g.reading.take v = none)
    (hresult : ReadsInnermost g key maps result) :
    ReadsInnermost g key (own :: maps) (g.reading.past key v result) := by
  have haccepts : g.kind.accepts v = false := by rw [← g.take_isSome, hfit, Option.isSome_none]
  simp only [ReadsInnermost, innermostFit, List.findSome?_cons, h, Option.filter_some, haccepts,
    Bool.false_eq_true, if_false] at hresult ⊢
  cases hinner : maps.findSome? fun m => (Entries.get? key m).filter g.kind.accepts with
  | some w =>
    simp only [hinner] at hresult ⊢
    obtain ⟨x, rfl, hcoerce⟩ := hresult
    exact ⟨x, rfl, hcoerce⟩
  | none =>
    simp only [hinner] at hresult ⊢
    cases houter : maps.findSome? (Entries.get? key) with
    | some w =>
      simp only [houter] at hresult
      rw [hresult, Reading.past, g.expected_eq]
    | none =>
      simp only [houter] at hresult
      rw [hresult, Reading.past, g.expected_eq]

/-- A typed read of a chain finds the innermost value that fits. -/
theorem read_chain_innermost (g : Getter) (key : String) (own : Entries Value)
    (further : List (Entries Value)) :
    ReadsInnermost g key (own :: further) ((chain own further).read g.reading key).result := by
  induction further generalizing own with
  | nil =>
    change ReadsInnermost g key [own] (g.reading.ofFound key (Entries.get? key own))
    have hnone : ReadsInnermost g key [] (.error (.notFound key)) := rfl
    cases hown : Entries.get? key own with
    | none => exact (readsInnermost_cons_of_none hown _).mpr hnone
    | some v =>
      cases hfit : g.reading.take v with
      | some x =>
        simp only [Reading.ofFound, hfit]
        exact readsInnermost_cons_of_fit hown hfit
      | none =>
        simp only [Reading.ofFound, hfit]
        exact readsInnermost_cons_of_misfit hown hfit hnone
  | cons next further ih =>
    change ReadsInnermost g key (own :: next :: further)
      ((scope own (chain next further)).read g.reading key).result
    cases hown : Entries.get? key own with
    | none =>
      rw [read_scope_of_none hown, readsInnermost_cons_of_none hown]
      exact ih next
    | some v =>
      cases hfit : g.reading.take v with
      | some x =>
        rw [read_scope_of_fit hown hfit]
        exact readsInnermost_cons_of_fit hown hfit
      | none =>
        rw [read_scope_of_misfit hown hfit]
        exact readsInnermost_cons_of_misfit hown hfit (ih next)

/-- A scope can read what its own map or the store below can read. -/
theorem canRead_scope (r : Reading α) (key : String) (own : Entries Value) (outer : Store) :
    ((scope own outer).canRead r key).result =
      (((map own).canRead r key).result || (outer.canRead r key).result) := by
  change ((scope own outer).read r key).result.toOption.isSome =
    ((r.ofFound key (Entries.get? key own)).toOption.isSome ||
      (outer.read r key).result.toOption.isSome)
  cases hown : Entries.get? key own with
  | none =>
    rw [read_scope_of_none hown]
    rfl
  | some v =>
    cases hfit : r.take v with
    | some x =>
      rw [read_scope_of_fit hown hfit]
      simp only [Reading.ofFound, hfit]
      rfl
    | none =>
      rw [read_scope_of_misfit hown hfit]
      simp only [Reading.ofFound, hfit]
      cases (outer.read r key).result <;> rfl

/-- A chain can read what one of its maps can read. -/
theorem canRead_chain (r : Reading α) (key : String) (own : Entries Value)
    (further : List (Entries Value)) :
    ((chain own further).canRead r key).result =
      (own :: further).any fun m => ((map m).canRead r key).result := by
  induction further generalizing own with
  | nil => exact (Bool.or_false _).symm
  | cons next further ih =>
    change ((scope own (chain next further)).canRead r key).result = _
    rw [canRead_scope, ih next]
    rfl

/-- The key is missing exactly where no map has it. -/
theorem ReadsInnermost.notFound_iff {result : Except PropertyError g.Result}
    (h : ReadsInnermost g key maps result) :
    (∃ k, result = .error (.notFound k)) ↔ ∀ m ∈ maps, Entries.get? key m = none := by
  rw [← List.findSome?_eq_none_iff]
  unfold ReadsInnermost at h
  cases hfit : innermostFit g key maps with
  | some v =>
    simp only [hfit] at h
    obtain ⟨x, rfl, _⟩ := h
    refine ⟨nofun, fun hnone => ?_⟩
    obtain ⟨m, hm, hv⟩ := List.exists_of_findSome?_eq_some hfit
    rw [List.findSome?_eq_none_iff.mp hnone m hm] at hv
    cases hv
  | none =>
    simp only [hfit] at h
    cases hfound : maps.findSome? (Entries.get? key) with
    | some v =>
      simp only [hfound] at h
      rw [h]
      exact ⟨nofun, nofun⟩
    | none =>
      simp only [hfound] at h
      exact ⟨fun _ => rfl, fun _ => ⟨key, h⟩⟩

/-- A read with a default gives it exactly if the key is missing. -/
theorem readOr_result (r : Reading α) (key : String) (default : α) (s : Store) :
    (s.readOr r key default).result = Reading.orDefault default (s.read r key).result := by
  rw [readOr, Logged.result_bind]
  rcases (s.read r key).result with (_ | _) | _ <;> rfl

/-- A typed read of a chain of scopes takes the innermost value that its kind accepts, widened as
the kind coerces it. A failing one blames the innermost value under the key, and says that the key
is missing only if no map has it. So a chain can read what one of its maps can read, and a default
is given exactly where no map has the key. -/
theorem read_chain (g : Getter) (key : String) (own : Entries Value)
    (further : List (Entries Value)) :
    let maps := own :: further
    let s := chain own further
    ReadsInnermost g key maps (s.read g.reading key).result ∧
      (s.canRead g.reading key).result =
        maps.any (fun m => ((map m).canRead g.reading key).result) ∧
      ∀ default, (s.readOr g.reading key default).result =
        if ∀ m ∈ maps, Entries.get? key m = none then .ok default
        else (s.read g.reading key).result := by
  intro maps s
  have hread : ReadsInnermost g key maps (s.read g.reading key).result :=
    read_chain_innermost g key own further
  refine ⟨hread, canRead_chain g.reading key own further, fun default => ?_⟩
  rw [readOr_result]
  unfold Reading.orDefault
  split
  next k hmissing => rw [if_pos (hread.notFound_iff.mp ⟨k, hmissing⟩)]
  next hfound =>
    have hpresent : ¬ ∀ m ∈ maps, Entries.get? key m = none := fun hnone =>
      (hread.notFound_iff.mpr hnone).elim hfound
    rw [if_neg hpresent]

/-- A text further in does not hide a number further out. -/
example : ((chain [("x", .string "7")] [[], [("x", .int 7)]]).read Getter.long.reading "x").result =
    .ok (7 : Int64) := rfl

end

end Store

end TypedConfig
