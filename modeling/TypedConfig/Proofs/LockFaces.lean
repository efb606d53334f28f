import TypedConfig.Proofs.Observation
import TypedConfig.Proofs.Scopes

/-!
# The two faces of a locked store

A locked store has methods of its own, which take the lock and pass a request on as a whole, and it
is a store like any other, whose puts of several values and loads are made of single operations on
it. Both faces do the same to the store inside. They also give the same answers where that store is
no scope, so a map behind a lock, with or without observers between them, is used like the bare map
whichever face is chosen for each request.
-/

namespace TypedConfig

/-- A way to use a locked store: by the methods that take the lock, or as a store. -/
inductive Face where
  | shared
  | exclusive

namespace Face

/-- Makes a request by one of the faces. -/
def run : Face → (q : Request) → Store → Logged (q.Answer × Store)
  | shared, q => Store.onInner q.run
  | exclusive, q => q.run

/-- The store behind several requests, each by a face of its own. -/
def after : List (Face × Request) → Store → Store
  | [], s => s
  | (face, q) :: rest, s => after rest (face.run q s).result.2

/-- The answers to several requests, each by a face of its own. -/
def answers : List (Face × Request) → Store → List ((q : Request) × q.Answer)
  | [], _ => []
  | (face, q) :: rest, s => ⟨q, (face.run q s).result.1⟩ :: answers rest (face.run q s).result.2

end Face

namespace Store

variable {s t : Store} {es : Entries Value}

/-- Two stores with the same store inside, the one locked and the other observed. -/
def LocksObserved (s t : Store) : Prop := ∃ inner, s = .locked inner ∧ t = .observed inner

/-- A store with only one map is no scope. -/
theorem isScope_of_maps (h : s.maps = [es]) : s.isScope = false := by
  cases s with
  | scope own outer =>
    obtain ⟨further, more, hmaps⟩ := outer.exists_maps
    rw [maps, hmaps] at h
    cases h
  | _ => rfl

namespace LocksObserved

/-- Both stores find the same under a key. -/
theorem get? (h : s.LocksObserved t) (key : String) :
    (s.get? key).result = (t.get? key).result := by
  obtain ⟨inner, rfl, rfl⟩ := h
  rfl

/-- Both stores list the same keys. -/
theorem keys (h : s.LocksObserved t) : s.keys.result = t.keys.result := by
  obtain ⟨inner, rfl, rfl⟩ := h
  rfl

/-- Both stores have the same size. -/
theorem size (h : s.LocksObserved t) : s.size.result = t.size.result := by
  rw [s.size_eq, t.size_eq, h.keys]

/-- Both stores list the same values. -/
theorem values (h : s.LocksObserved t) : s.values.result = t.values.result := by
  rw [Store.values, Store.values, Logged.result_bind, Logged.result_bind, h.keys]
  exact valuesOf_congr h.get? _

/-- Both stores list the same entries. -/
theorem entries (h : s.LocksObserved t) : s.entries.result = t.entries.result := by
  rw [Store.entries, Store.entries, Logged.result_bind, Logged.result_bind, h.keys]
  exact entriesOf_congr h.get? _

/-- A put keeps the two sides related. -/
theorem put (h : s.LocksObserved t) (key : String) (v : Value) :
    (s.put key v).result.2.LocksObserved (t.put key v).result.2 := by
  obtain ⟨inner, rfl, rfl⟩ := h
  exact ⟨_, rfl, rfl⟩

/-- Several puts keep the two sides related. -/
theorem putEach (h : s.LocksObserved t) (new : List (String × Value)) :
    (s.putEach new).result.LocksObserved (t.putEach new).result := by
  induction new generalizing s t with
  | nil => exact h
  | cons entry new ih => exact ih (h.put entry.1 entry.2)

/-- A load cannot tell the two sides apart. -/
theorem simulation : Simulation LocksObserved where
  get h := h.get?
  contains h key := by
    obtain ⟨inner, rfl, rfl⟩ := h
    rfl
  entries h := h.entries
  put h := h.put

/-- Neither of the two is a scope, so both read a value by what they find under its key. -/
theorem read {α : Type} (h : s.LocksObserved t) (r : Reading α) (key : String) :
    (s.read r key).result = (t.read r key).result := by
  obtain ⟨inner, rfl, rfl⟩ := h
  rfl

end LocksObserved

end Store

namespace Request

open Store (LocksObserved)

variable {s t : Store} {es : Entries Value}

/-- A locked store answers a request as an observed one, and what the request does is the same. -/
theorem run_locksObserved (q : Request) (h : s.LocksObserved t) :
    q.answer s = q.answer t ∧ (q.next s).LocksObserved (q.next t) := by
  cases q with
  | get key => exact ⟨h.get? key, h⟩
  | put key v => exact ⟨by obtain ⟨inner, rfl, rfl⟩ := h; rfl, h.put key v⟩
  | putAll new =>
    refine ⟨rfl, ?_⟩
    change (s.putAll new).result.LocksObserved (t.putAll new).result
    rw [Store.putAll_result, Store.putAll_result]
    exact h.putEach new
  | values => exact ⟨h.values, h⟩
  | size => exact ⟨h.size, h⟩
  | isEmpty => exact ⟨congrArg (· == 0) h.size, h⟩
  | entries => exact ⟨h.entries, h⟩
  | propertyMap => exact ⟨congrArg Content.map h.entries, h⟩
  | flatMap => exact ⟨congrArg (List.map _) h.entries, h⟩
  | validateEntries validator => exact ⟨congrArg (List.filterMap _) h.entries, h⟩
  | readOr g key default =>
    refine ⟨?_, h⟩
    change (s.readOr g.reading key default).result = (t.readOr g.reading key default).result
    rw [Store.readOr_result, Store.readOr_result, h.read]
  | canRead g key => exact ⟨congrArg (·.toOption.isSome) (h.read g.reading key), h⟩
  | load m entry =>
    obtain ⟨hresult, hmachine, hstore⟩ := s.readFrom_eq m entry
    obtain ⟨hresult', hmachine', hstore'⟩ := t.readFrom_eq m entry
    obtain ⟨hsame, hmachines, hstores⟩ :=
      LocksObserved.simulation.load (.standard m.libraries) m entry h
    refine ⟨Prod.ext (hresult.trans (hsame.trans hresult'.symm))
      (hmachine.trans (hmachines.trans hmachine'.symm)), ?_⟩
    change (s.readFrom m entry).store.LocksObserved (t.readFrom m entry).store
    rw [hstore, hstore']
    exact hstores
  | _ =>
    obtain ⟨inner, rfl, rfl⟩ := h
    exact ⟨rfl, _, rfl, rfl⟩

/-- What a request does to a locked store it does to the store inside. -/
theorem next_locked (q : Request) (s : Store) : q.next (.locked s) = .locked (q.next s) := by
  obtain ⟨_, inner, hlocked, hobserved⟩ := q.run_locksObserved ⟨s, rfl, rfl⟩
  rw [next_observed] at hobserved
  rw [hlocked, Store.observed.inj hobserved]

/-- A locked store answers a request as the store inside, if that is no scope. -/
theorem answer_locked (q : Request) (h : s.isScope = false) :
    q.answer (.locked s) = q.answer s := by
  rw [(q.run_locksObserved ⟨s, rfl, rfl⟩).1, answer_observed_iff]
  exact (passNoMisfit_of_isScope [q] h).1

/-- A request to a map leads to a map. -/
theorem next_map (q : Request) (es : Entries Value) : ∃ es', q.next (.map es) = .map es' := by
  refine next_keeps (P := fun t => ∃ es', t = .map es') ?_ ?_ ?_ q ⟨es, rfl⟩
  · rintro key v _ ⟨es', rfl⟩
    exact ⟨_, rfl⟩
  · rintro key _ ⟨es', rfl⟩
    exact ⟨_, rfl⟩
  · rintro _ ⟨es', rfl⟩
    exact ⟨_, rfl⟩

/-- A map with any observers and locks around it answers a request as the bare map, and the request
does the same to it. -/
theorem run_of_maps (q : Request) (h : s.maps = [es]) :
    q.answer s = q.answer (.map es) ∧ (q.next s).maps = (q.next (.map es)).maps := by
  induction s with
  | map entries =>
    cases h
    exact ⟨rfl, rfl⟩
  | scope own outer =>
    obtain ⟨further, more, hmaps⟩ := outer.exists_maps
    rw [Store.maps, hmaps] at h
    cases h
  | observed inner ih =>
    obtain ⟨hanswer, hmaps⟩ := ih h
    rw [next_observed, ← hanswer, answer_observed_iff]
    exact ⟨(passNoMisfit_of_isScope [q] (Store.isScope_of_maps (s := inner) h)).1, hmaps⟩
  | locked inner ih =>
    obtain ⟨hanswer, hmaps⟩ := ih h
    rw [next_locked, ← hanswer]
    exact ⟨q.answer_locked (Store.isScope_of_maps h), hmaps⟩

/-- Several requests to a map with observers and locks around it are answered as by the bare map,
and leave the same entries in it. -/
theorem answers_of_maps (requests : List Request) (h : s.maps = [es]) :
    answers requests s = answers requests (.map es) ∧
      (after requests s).maps = (after requests (.map es)).maps := by
  induction requests generalizing s es with
  | nil => exact ⟨rfl, h⟩
  | cons q rest ih =>
    obtain ⟨hanswer, hmaps⟩ := q.run_of_maps h
    obtain ⟨es', hnext⟩ := q.next_map es
    obtain ⟨hrest, hafter⟩ := ih (hmaps.trans (congrArg Store.maps hnext))
    rw [answers, answers, hanswer, hrest, after, after, hafter, hnext]
    exact ⟨rfl, rfl⟩

end Request

namespace Face

variable {inner : Store} {es : Entries Value}

/-- Both faces do what is asked to the store inside. -/
theorem run_next (face : Face) (q : Request) (inner : Store) :
    (face.run q (.locked inner)).result.2 = .locked (q.next inner) := by
  cases face with
  | shared => rfl
  | exclusive => exact q.next_locked inner

/-- Both faces answer as the store inside, if that is no scope. -/
theorem run_answer (face : Face) (q : Request) (h : inner.isScope = false) :
    (face.run q (.locked inner)).result.1 = q.answer inner := by
  cases face with
  | shared => rfl
  | exclusive => exact q.answer_locked h

/-- Through either face, requests lead the store inside where they lead it directly. -/
theorem after_eq (steps : List (Face × Request)) (inner : Store) :
    after steps (.locked inner) = .locked (Request.after (steps.map Prod.snd) inner) := by
  induction steps generalizing inner with
  | nil => rfl
  | cons step rest ih =>
    obtain ⟨face, q⟩ := step
    rw [after, run_next, ih]
    rfl

/-- Through either face, requests are answered as by the store inside. -/
theorem answers_eq (steps : List (Face × Request)) (h : inner.isScope = false) :
    answers steps (.locked inner) = Request.answers (steps.map Prod.snd) inner := by
  induction steps generalizing inner with
  | nil => rfl
  | cons step rest ih =>
    obtain ⟨face, q⟩ := step
    rw [answers, run_next, run_answer face q h, ih (q.next_isScope inner h)]
    rfl

end Face

/-- Whichever face of a locked store is chosen for each of several requests, they do to the store
inside what they do without a lock. If that is a map, with or without observers and further locks
around it, then all answers and the entries at the end are those of the same requests to the bare
map. -/
theorem Store.locked_faces_agree {inner : Store} {es : Entries Value} (h : inner.maps = [es])
    (steps : List (Face × Request)) :
    let requests := steps.map Prod.snd
    Face.after steps (.locked inner) = .locked (Request.after requests inner) ∧
      Face.answers steps (.locked inner) = Request.answers requests (.map es) ∧
      (Request.after requests inner).maps = (Request.after requests (.map es)).maps := by
  intro requests
  obtain ⟨hanswers, hmaps⟩ := Request.answers_of_maps requests h
  exact ⟨Face.after_eq steps inner,
    (Face.answers_eq steps (isScope_of_maps h)).trans hanswers, hmaps⟩

/-- Loads and puts through both faces of a locked store over an observed map. The first load fails
behind its first statement, and the second finds what that has left. -/
theorem Store.locked_faces_after_failure :
    let m := Machine.start ⟨.directory [], []⟩ []
    let steps : List (Face × Request) := [(.exclusive, .load m (.text "a = 1; b = c; d = 2;")),
      (.shared, .putAll [("c", .int 3)]), (.shared, .load m (.text "b = c; a ~ 4;")),
      (.exclusive, .remove "c"), (.shared, .entries), (.exclusive, .values)]
    let requests := steps.map Prod.snd
    (Store.observed empty).maps = [fresh] ∧
      Face.answers steps (.locked (.observed empty)) = Request.answers requests empty ∧
      (Face.after steps (.locked (.observed empty))).maps.map
        (fun es => es.map fun entry => (entry.1, entry.2.text)) =
          [[("a", "1"), ("b", "3"), ("self", "self")]] := by
  intro m steps requests
  have hempty : (Store.observed empty).maps = [fresh] := rfl
  obtain ⟨hafter, hanswers, hmaps⟩ := locked_faces_agree hempty steps
  refine ⟨hempty, hanswers, ?_⟩
  rw [hafter, Store.maps, hmaps]
  decide +kernel

end TypedConfig
