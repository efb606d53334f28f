import TypedConfig.Proofs.Scopes

/-!
# Reachable stores

A store is reached from a new map by requests, by opening scopes over it, and by putting observers
and locks around it. The store below a scope may be shared, so requests also go to any store below
or inside. In every map of a reachable store the keys are in order.
-/

namespace TypedConfig.Store

variable {allowed : Request → Prop} {s t : Store}

/-- A request is made to a store, or to one below or inside it. -/
inductive Steps (allowed : Request → Prop) : Store → Store → Prop
  | request {q : Request} (s : Store) : allowed q → Steps allowed s (q.next s)
  | outer {own : Entries Value} {outer outer' : Store} :
    Steps allowed outer outer' → Steps allowed (.scope own outer) (.scope own outer')
  | observed {inner inner' : Store} :
    Steps allowed inner inner' → Steps allowed (.observed inner) (.observed inner')
  | locked {inner inner' : Store} :
    Steps allowed inner inner' → Steps allowed (.locked inner) (.locked inner')

/-- A store that is made of a new map, with allowed requests only. -/
inductive ReachableBy (allowed : Request → Prop) : Store → Prop
  | empty : ReachableBy allowed empty
  | scopeOver {s : Store} : ReachableBy allowed s → ReachableBy allowed s.scopeOver
  | observed {s : Store} : ReachableBy allowed s → ReachableBy allowed (.observed s)
  | locked {s : Store} : ReachableBy allowed s → ReachableBy allowed (.locked s)
  | step {s t : Store} : ReachableBy allowed s → Steps allowed s t → ReachableBy allowed t

/-- A store that can be reached with any requests. -/
def Reachable (s : Store) : Prop := s.ReachableBy fun _ => True

/-- Steps with some requests are steps with more requests. -/
theorem Steps.mono {allowed' : Request → Prop} (h : Steps allowed s t)
    (himp : ∀ q, allowed q → allowed' q) : Steps allowed' s t := by
  induction h with
  | request s hq => exact .request s (himp _ hq)
  | outer _ ih => exact .outer ih
  | observed _ ih => exact .observed ih
  | locked _ ih => exact .locked ih

/-- Steps keep a store ordered. -/
theorem Steps.ordered (h : Steps allowed s t) (hs : s.Ordered) : t.Ordered := by
  induction h with
  | @request q s _ => exact q.next_ordered s hs
  | outer _ ih => exact ⟨hs.1, ih hs.2⟩
  | observed _ ih => exact ih hs
  | locked _ ih => exact ih hs

/-- What is reached from a new store is ordered. -/
theorem ReachableBy.ordered (h : s.ReachableBy allowed) : s.Ordered := by
  induction h with
  | empty => exact ordered_empty
  | scopeOver _ ih => exact ih.scopeOver
  | observed _ ih => exact ih
  | locked _ ih => exact ih
  | step _ hstep ih => exact hstep.ordered ih

/-- What is reached with some requests is reached. -/
theorem ReachableBy.reachable (h : s.ReachableBy allowed) : s.Reachable := by
  induction h with
  | empty => exact .empty
  | scopeOver _ ih => exact .scopeOver ih
  | observed _ ih => exact .observed ih
  | locked _ ih => exact .locked ih
  | step _ hstep ih => exact ih.step (hstep.mono fun _ _ => trivial)

/-- Requests to a reachable store lead to reachable ones. -/
theorem ReachableBy.after (h : s.ReachableBy allowed) {requests : List Request}
    (hrequests : ∀ q ∈ requests, allowed q) : (Request.after requests s).ReachableBy allowed := by
  induction requests generalizing s with
  | nil => exact h
  | cons q rest ih =>
    rw [List.forall_mem_cons] at hrequests
    exact ih (h.step (.request s hrequests.1)) hrequests.2

end TypedConfig.Store
