import TypedConfig.Construct.Standard
import TypedConfig.Proofs.Building
import TypedConfig.Proofs.Failure
import TypedConfig.Proofs.RunRelocated
import TypedConfig.Proofs.Simulation
import TypedConfig.Proofs.Variables

/-!
# Independent assignments

An expression reads the variables that it mentions and nothing else of a store. So it has one value
in stores that agree on these variables, provided that the constructions in it answer by their
arguments alone. Two assignments of which neither mentions the key of the other can then change
places.

A construction also takes identities for the objects that it builds, but those of the key for which
it builds, so an assignment leaves the identities of another one as they are. Of the built-in types
only those that look at files or change them and the samples that are drawn at random do not answer
by their arguments; a sample with a seed does.
-/

namespace TypedConfig

namespace Machine

/-- Machines with one environment and as many processors on which the next object gets the same
identity. -/
structure Alike (m n : Machine) : Prop where
  environment : m.environment = n.environment
  cores : m.cores = n.cores
  next : m.issue.1 = n.issue.1

/-- The second machine has the environment and the processors of the first one and works for its
key, and objects for other keys get the same identities on both. -/
structure Spares (m n : Machine) : Prop where
  environment : n.environment = m.environment
  cores : n.cores = m.cores
  owner : n.owner = m.owner
  others : ∀ key, key ≠ m.owner → (n.withOwner key).issue.1 = (m.withOwner key).issue.1

/-- Machines stay alike when both issue an identity. -/
theorem Alike.issue {m n : Machine} (h : m.Alike n) : m.issue.2.Alike n.issue.2 := by
  have hnext (k : Machine) : k.issue.2.issue.1 = ⟨k.issue.1.owner, k.issue.1.serial + 1⟩ := by
    simp only [Machine.issue, Entries.get?_insert_self, Option.getD_some]
  refine ⟨h.environment, h.cores, ?_⟩
  rw [hnext, hnext, h.next]

/-- Machines that are alike start as many workers. -/
theorem Alike.workers {m n : Machine} (h : m.Alike n) : m.workers = n.workers := by
  unfold Machine.workers
  rw [h.cores]

/-- A machine that stays is spared. -/
theorem Spares.refl (m : Machine) : m.Spares m := ⟨rfl, rfl, rfl, fun _ _ => rfl⟩

/-- What two steps spare both spare together. -/
theorem Spares.trans {m n k : Machine} (h : m.Spares n) (h' : n.Spares k) : m.Spares k where
  environment := h'.environment.trans h.environment
  cores := h'.cores.trans h.cores
  owner := h'.owner.trans h.owner
  others key hkey := (h'.others key (h.owner ▸ hkey)).trans (h.others key hkey)

/-- To issue an identity spares the rest of the machine. -/
theorem spares_issue (m : Machine) : m.Spares m.issue.2 where
  environment := rfl
  cores := rfl
  owner := rfl
  others key hkey := by
    simp only [Machine.issue, Machine.withOwner, Entries.get?_insert_of_ne hkey]

end Machine

namespace Construct

namespace Build

variable {α β : Type}

/-- A construction answers by its arguments alone: its result depends on nothing but the
environment, the number of processors and the identities that it takes, and those are identities for
its key. -/
structure AnswersAlone (b : Build α) : Prop where
  alike : Relates Machine.Alike b b
  spares : ∀ m : Machine, m.Spares (outcome b m).2

namespace AnswersAlone

/-- A construction that only gives a value answers alone. -/
theorem pure (a : α) : AnswersAlone (Pure.pure a : Build α) := ⟨.pure a, .refl⟩

/-- A construction that only fails answers alone. -/
theorem throw (e : ConstructError) : AnswersAlone (MonadExcept.throw e : Build α) :=
  ⟨.throw e, .refl⟩

/-- Steps that answer alone do so one after the other. -/
theorem bind {b : Build α} {f : α → Build β} (first : b.AnswersAlone)
    (rest : ∀ a, (f a).AnswersAlone) : AnswersAlone (b >>= f) where
  alike := first.alike.bind fun a => (rest a).alike
  spares m := by
    have hfirst := first.spares m
    rw [outcome_bind]
    rcases hb : outcome b m with ⟨e | a, m'⟩
    · rw [hb] at hfirst
      exact hfirst
    · rw [hb] at hfirst
      exact hfirst.trans ((rest a).spares m')

/-- An object answers alone: only its identity is new. -/
theorem object (content : Content) : AnswersAlone (Build.object content) where
  alike _ _ h := ⟨congrArg (fun id => Except.ok (Value.object id content)) h.next, h.issue⟩
  spares := Machine.spares_issue

/-- What is the same all along may be asked for. -/
theorem objectOf (content : Machine → Content)
    (hcontent : ∀ m n : Machine, m.Alike n → content m = content n) :
    AnswersAlone (get >>= fun m : Machine => Build.object (content m)) where
  alike m n h := by
    rw [outcome_bind_ok (outcome_get m), outcome_bind_ok (outcome_get n), hcontent m n h]
    exact (object _).alike m n h
  spares m := by
    rw [outcome_bind_ok (outcome_get m)]
    exact (object _).spares m

end AnswersAlone

end Build

/-- A type whose last steps answer alone. -/
def Blueprint.AnswersAlone (b : Blueprint) : Prop := ∀ state, (b.finish state).AnswersAlone

/-- Of a construction only the last steps work on a machine. -/
theorem Engine.build_answersAlone {engine : Engine} {type : String}
    (h : ∀ b, engine.registry.lookup type = .ok b → b.AnswersAlone) (arguments : List Value)
    (named : List (String × Value)) : (engine.build type arguments named).AnswersAlone := by
  unfold Engine.build Engine.construct
  cases hlookup : engine.registry.lookup type with
  | error e => exact .throw e
  | ok b =>
    dsimp only
    cases hcreate : create b arguments with
    | error e => exact .throw e
    | ok i =>
      obtain ⟨_, _, _, state, _, _, _, rfl⟩ := create_ok hcreate
      dsimp only
      cases hinject : (⟨b, state⟩ : Instance).inject named with
      | error e => exact .throw e
      | ok i =>
        have hcarries : b.Carries (fun _ => True) (fun _ => True) (fun _ => True) fun _ => True :=
          ⟨fun _ _ _ _ => trivial, fun _ _ _ => trivial, fun _ _ => trivial,
            fun _ _ _ _ _ => trivial⟩
        obtain ⟨state', rfl, _⟩ :=
          hcarries.inject_ok (fun _ _ => trivial) (fun _ _ => trivial) trivial hinject
        dsimp only [Instance.finalize]
        cases b.init state' with
        | error fault => exact .throw _
        | ok state'' =>
          refine .bind (h b hlookup state'') fun v => ?_
          cases engine.validator v with
          | none => exact .pure v
          | some e => exact .throw _

namespace Builtin

/-- The types that look at files or change them. -/
def fileTypes : List Blueprint :=
  [existingFile, nonExistingFile, forcedDirectory, filesInDirectory, stringArrayFromFile]

/-- The ids of the types that do not answer by their arguments alone: those that look at files or
change them, and samples, which may be drawn at random. -/
def unsettledTypes : List String := "omni.collections.DrawSample" :: fileTypes.map (·.typeId)

/-- The variables of the environment answer alone. -/
theorem environment_answersAlone (libraries : Libraries) :
    (environment libraries).AnswersAlone := by
  intro filter
  have hselect (regex : Option Regex) : (get >>= fun m : Machine =>
      Build.object (.map (selectVariables m.environment regex))).AnswersAlone :=
    .objectOf (fun m => .map (selectVariables m.environment regex))
      fun _ _ h => by rw [h.environment]
  cases filter with
  | none => exact hselect none
  | some text =>
    dsimp only [environment]
    split
    · exact hselect _
    · exact .throw _

/-- The number of workers may go by the processors. -/
theorem parallelRunnable_answersAlone : parallelRunnable.AnswersAlone := fun run =>
  .objectOf (fun m => .parallel run.config run.items run.itemName (run.workers.getD m.workers)
    run.extras) fun _ _ h => by rw [h.workers]

/-- A sample with a seed answers alone, although samples in general do not. -/
theorem drawSample_answersAlone_of_seed (libraries : Libraries) {state : Sample}
    (h : state.seed.isSome) : ((drawSample libraries).finish state).AnswersAlone := by
  obtain ⟨seed, hseed⟩ := Option.isSome_iff_exists.mp h
  dsimp only [drawSample]
  split
  · exact .throw _
  · rw [hseed]
    exact .bind (.pure _) fun _ => .pure _

/-- Every built-in type that leaves files alone and draws nothing at random answers alone. -/
theorem answersAlone_of_mem {libraries : Libraries} {b : Blueprint} (h : b ∈ all libraries)
    (hsettled : b.typeId ∉ unsettledTypes) : b.AnswersAlone := by
  have hfile {b : Blueprint} (h : b ∈ fileTypes) : b.typeId ∈ unsettledTypes :=
    .tail _ (List.mem_map_of_mem h)
  simp only [all, List.mem_cons, List.not_mem_nil, or_false] at h
  rcases h with rfl | rfl | rfl | rfl | rfl | rfl | rfl | rfl | rfl | rfl | rfl | rfl | rfl | rfl |
    rfl | rfl | rfl | rfl | rfl | rfl | rfl | rfl | rfl | rfl | rfl
  · exact fun _ => .object _
  · exact (hsettled (hfile (by simp [fileTypes]))).elim
  · exact (hsettled (hfile (by simp [fileTypes]))).elim
  · exact (hsettled (hfile (by simp [fileTypes]))).elim
  · exact (hsettled (hfile (by simp [fileTypes]))).elim
  · exact fun _ => .object _
  · exact (hsettled (hfile (by simp [fileTypes]))).elim
  · exact fun _ => .object _
  · exact fun _ => .object _
  · exact fun _ => .object _
  · exact fun _ => .object _
  · exact fun _ => .object _
  · exact fun _ => .pure _
  · exact fun _ => .object _
  · intro state
    dsimp only [intersection]
    split
    · exact .throw _
    · exact .pure _
  · intro state
    dsimp only [union]
    split
    · exact .throw _
    · exact .pure _
  · intro state
    dsimp only [selectItem]
    split
    · exact .pure _
    · exact .throw _
  · exact (hsettled (.head _)).elim
  · intro state
    dsimp only [stringSplitter]
    split
    · exact .pure _
    · exact .throw _
  · intro state
    dsimp only [joinStrings]
    split
    · exact .pure _
    · exact .throw _
  · exact fun _ => .pure _
  · exact environment_answersAlone _
  · exact fun _ => .pure _
  · exact fun _ => .object _
  · exact parallelRunnable_answersAlone

end Builtin

/-- The standard types answer alone, apart from those that look at files or change them and from
samples. -/
theorem Engine.standard_answersAlone {libraries : Libraries} {type : String}
    (h : (Engine.standard libraries).registry.canonical type ∉ Builtin.unsettledTypes)
    (arguments : List Value) (named : List (String × Value)) :
    ((Engine.standard libraries).build type arguments named).AnswersAlone := by
  refine Engine.build_answersAlone (fun b hlookup => ?_) arguments named
  obtain ⟨hmem, hid⟩ := Registry.lookup_ofList_typeId hlookup
  refine Builtin.answersAlone_of_mem hmem ?_
  rw [hid]
  exact h

end Construct

section Puts

/-- A put in front of another one may be made behind it. -/
theorem Entries.insert_comm_of_lt {α : Type} {a b : String} (h : a < b) (v w : α)
    (es : Entries α) :
    Entries.insert a v (Entries.insert b w es) = Entries.insert b w (Entries.insert a v es) := by
  have hbefore : ¬ b < a := String.lt_asymm h
  have hne : a ≠ b := String.ne_of_lt h
  induction es with
  | nil => simp only [insert, h, hbefore, hne, if_true, if_false]
  | cons entry rest ih =>
    obtain ⟨k, u⟩ := entry
    by_cases hb : b < k
    · have ha : a < k := String.lt_trans h hb
      simp only [insert, h, hb, ha, hbefore, hne, if_true, if_false]
    · by_cases hbk : k = b
      · subst hbk
        simp only [insert, h, hb, hbefore, hne, if_true, if_false]
      · by_cases ha : a < k
        · simp only [insert, hb, hbk, ha, hbefore, hne, if_true, if_false]
        · by_cases hak : k = a
          · subst hak
            simp only [insert, hb, hbk, ha, if_true, if_false]
          · simp only [insert, hb, hbk, ha, hak, ih, if_false]

/-- Puts under different keys may change places. -/
theorem Store.put_comm {a b : String} (h : a ≠ b) (v w : Value) (s : Store) :
    ((s.put a v).result.2.put b w).result.2 = ((s.put b w).result.2.put a v).result.2 := by
  have hinsert (es : Entries Value) :
      Entries.insert b w (Entries.insert a v es) = Entries.insert a v (Entries.insert b w es) := by
    by_cases hless : a < b
    · exact (Entries.insert_comm_of_lt hless v w es).symm
    · have hgreater : b < a := Std.lt_of_le_of_ne (String.not_lt.mp hless) h.symm
      exact Entries.insert_comm_of_lt hgreater w v es
  induction s with
  | map entries => exact congrArg Store.map (hinsert entries)
  | scope own outer _ => exact congrArg (Store.scope · outer) (hinsert own)
  | observed inner ih => exact congrArg Store.observed ih
  | locked inner ih => exact congrArg Store.locked ih

end Puts

/-- Trails of two evaluations that have begun on two machines: the next object gets the same
identity on both, and identities for other keys are as they were. -/
structure Trail.Beside (m n : Machine) (t u : Trail) : Prop where
  alike : t.machine.Alike u.machine
  left : m.Spares t.machine
  right : n.Spares u.machine

namespace Syntax

variable {engine : Construct.Engine} {s t : Store} {m n : Machine}

/-- The constructions of some types answer by their arguments alone. -/
def AnswerAlone (engine : Construct.Engine) (types : List String) : Prop :=
  ∀ type ∈ types, ∀ arguments named, (engine.build type arguments named).AnswersAlone

/-- Types that answer alone build alike on machines that are beside each other. -/
theorem AnswerAlone.buildsRelate {types : List String} (h : AnswerAlone engine types) :
    BuildsRelate (Trail.Beside m n) engine types := by
  intro type htype arguments named span t u hbeside
  obtain ⟨halike, hspares⟩ := h type htype arguments named
  obtain ⟨hresult, hmachine⟩ := halike t.machine u.machine hbeside.alike
  rw [Evaluation.outcome_ofBuild, Evaluation.outcome_ofBuild, hresult]
  exact ⟨rfl, hmachine, hbeside.left.trans (hspares _), hbeside.right.trans (hspares _)⟩

/-- The variables of stores that agree on them have one value. -/
theorem lookUpsRelate_of_agree {names : List String} (hself : selfKey ∉ names)
    (hagree : ∀ name ∈ names, (s.get? name).result = (t.get? name).result) :
    LookUpsRelate (Trail.Beside m n) s t names := by
  intro name hname span
  have hne : name ≠ selfKey := fun h => hself (h ▸ hname)
  unfold lookUp
  rw [if_neg hne, if_neg hne]
  refine .bind (fun u u' h => ⟨congrArg Except.ok (hagree name hname), h.alike, h.left, h.right⟩)
    fun found => ?_
  cases found with
  | none => exact .throw _
  | some v => exact .pure v

/-- An expression has the same value or the same fault in stores that agree on its variables. -/
theorem Expr.evaluate_beside {e : Expr} (hself : selfKey ∉ e.variables)
    (halone : AnswerAlone engine e.types)
    (hagree : ∀ name ∈ e.variables, (s.get? name).result = (t.get? name).result) :
    Relates (Trail.Beside m n) (e.evaluate engine s) (e.evaluate engine t) :=
  e.evaluate_relates_of engine (lookUpsRelate_of_agree hself hagree) halone.buildsRelate

/-- Expressions that differ only in where they stand. -/
def Expr.Same (e f : Expr) : Prop :=
  e.relocate (Source.Relocation.cut 0) = f.relocate (Source.Relocation.cut 0)

/-- Where it stands shows only in the faults of an expression. -/
theorem Expr.Same.evaluate {e f : Expr} (h : e.Same f) (engine : Construct.Engine) (s : Store)
    (t : Trail) :
    (outcome (e.evaluate engine s) t).1.toOption = (outcome (f.evaluate engine s) t).1.toOption ∧
      (outcome (e.evaluate engine s) t).2 = (outcome (f.evaluate engine s) t).2 := by
  have hforget (e : Expr) :
      outcome ((e.relocate (Source.Relocation.cut 0)).evaluate engine s) t =
        ((outcome (e.evaluate engine s) t).1.mapError (Located.relocate (Source.Relocation.cut 0)),
          (outcome (e.evaluate engine s) t).2) := by
    rw [Expr.evaluate_relocate, outcome_adapt]
  have hsame := (hforget e).symm.trans ((congrArg (fun e : Expr =>
    outcome (e.evaluate engine s) t) h).trans (hforget f))
  obtain ⟨hresult, htrail⟩ := Prod.mk.inj hsame
  refine ⟨?_, htrail⟩
  have hoption (x : Except Located Value) :
      (x.mapError (Located.relocate (Source.Relocation.cut 0))).toOption = x.toOption := by
    cases x <;> rfl
  rw [← hoption, hresult, hoption]

/-- A statement sets a key to an expression, wherever they may stand. -/
def Statement.Sets (statement : Statement) (key : String) (e : Expr) : Prop :=
  ∃ name f span, statement = ⟨.set name f, span⟩ ∧ name.text = key ∧ f.Same e

/-- The value that an expression has for a key. -/
def Expr.valueFor (engine : Construct.Engine) (l : Loading) (key : String) (e : Expr) :
    Option Value :=
  (outcome (e.evaluate engine l.store)
    ⟨l.trail.machine.withOwner key, l.trail.events⟩).1.toOption

/-- Where the next object for the key gets the same identity, agreeing stores give one value. -/
theorem Expr.valueFor_eq {e : Expr} {key : String} {l k : Loading} (hself : selfKey ∉ e.variables)
    (halone : AnswerAlone engine e.types)
    (hagree : ∀ name ∈ e.variables, (l.store.get? name).result = (k.store.get? name).result)
    (halike : (l.trail.machine.withOwner key).Alike (k.trail.machine.withOwner key)) :
    e.valueFor engine l key = e.valueFor engine k key := by
  have hbeside := e.evaluate_beside hself halone hagree
    ⟨l.trail.machine.withOwner key, l.trail.events⟩ ⟨k.trail.machine.withOwner key, k.trail.events⟩
    ⟨halike, .refl _, .refl _⟩
  exact congrArg Except.toOption hbeside.1

/-- A statement that sets a key puts the value of the expression, and fails if there is none. -/
theorem Statement.Sets.run {statement : Statement} {key : String} {e : Expr}
    (h : statement.Sets key e) (engine : Construct.Engine) (load : TextSource → Load Unit)
    (l : Loading) :
    (match e.valueFor engine l key with
      | some v => (outcome (statement.run engine load) l).1 = .ok () ∧
        (outcome (statement.run engine load) l).2.store = (l.store.put key v).result.2
      | none => ∃ located, (outcome (statement.run engine load) l).1 = .error located) ∧
    (outcome (statement.run engine load) l).2.trail.machine =
      (outcome (e.evaluate engine l.store)
        ⟨l.trail.machine.withOwner key, l.trail.events⟩).2.machine := by
  obtain ⟨name, f, span, rfl, rfl, hsame⟩ := h
  obtain ⟨hvalue, htrail⟩ := hsame.evaluate engine l.store
    ⟨l.trail.machine.withOwner name.text, l.trail.events⟩
  change (match e.valueFor engine l name.text with
    | some v => (outcome (assign engine name f) l).1 = .ok () ∧
      (outcome (assign engine name f) l).2.store = (l.store.put name.text v).result.2
    | none => ∃ located, (outcome (assign engine name f) l).1 = .error located) ∧
    (outcome (assign engine name f) l).2.trail.machine = _
  rw [outcome_assign, Expr.valueFor, ← hvalue, ← htrail]
  rcases outcome (f.evaluate engine l.store)
    ⟨l.trail.machine.withOwner name.text, l.trail.events⟩ with ⟨located | v, t⟩
  · exact ⟨⟨located, rfl⟩, rfl⟩
  · exact ⟨⟨rfl, rfl⟩, rfl⟩

/-- Two assignments of which neither mentions the key of the other or the store itself, and whose
constructions answer by their arguments alone. -/
structure Independent (engine : Construct.Engine) (a : String) (e : Expr) (b : String) (f : Expr) :
    Prop where
  keys : a ≠ b
  left : b ∉ e.variables
  right : a ∉ f.variables
  leftSelf : selfKey ∉ e.variables
  rightSelf : selfKey ∉ f.variables
  leftAlone : AnswerAlone engine e.types
  rightAlone : AnswerAlone engine f.types

variable {a b : String} {e f : Expr} {first second : Statement}

/-- Independence does not depend on which assignment is first. -/
theorem Independent.symm (h : Independent engine a e b f) : Independent engine b f a e :=
  ⟨h.keys.symm, h.right, h.left, h.rightSelf, h.leftSelf, h.rightAlone, h.leftAlone⟩

/-- Behind an independent assignment an expression has the value that it would have in front of
it. -/
theorem Independent.valueFor_behind (h : Independent engine a e b f) (hfirst : first.Sets a e)
    (load : TextSource → Load Unit) {l : Loading} {v : Value}
    (hv : e.valueFor engine l a = some v) :
    f.valueFor engine (outcome (first.run engine load) l).2 b = f.valueFor engine l b := by
  obtain ⟨hrun, hmachine⟩ := hfirst.run engine load l
  rw [hv] at hrun
  have hspares : (l.trail.machine.withOwner a).Spares
      (outcome (first.run engine load) l).2.trail.machine := by
    rw [hmachine]
    have hbeside := e.evaluate_beside (s := l.store) (t := l.store) h.leftSelf h.leftAlone
      (fun _ _ => rfl) ⟨l.trail.machine.withOwner a, l.trail.events⟩
      ⟨l.trail.machine.withOwner a, l.trail.events⟩ ⟨⟨rfl, rfl, rfl⟩, .refl _, .refl _⟩
    exact hbeside.2.left
  refine Expr.valueFor_eq h.rightSelf h.rightAlone (fun name hname => ?_) ⟨?_, ?_, ?_⟩
  · have hne : name ≠ a := fun hsame => h.right (hsame ▸ hname)
    rw [hrun.2, Store.get?_put, if_neg hne]
  · exact hspares.environment
  · exact hspares.cores
  · exact hspares.others b h.keys.symm

/-- Two independent assignments succeed if both expressions have a value where they begin, and put
these values. -/
theorem Independent.run_both (h : Independent engine a e b f) (hfirst : first.Sets a e)
    (hsecond : second.Sets b f) (load : TextSource → Load Unit) (l : Loading) :
    let ended := outcome (Statement.runAll engine load [first, second]) l
    (ended.1 = .ok () ↔
      (e.valueFor engine l a).isSome = true ∧ (f.valueFor engine l b).isSome = true) ∧
    ∀ v w, e.valueFor engine l a = some v → f.valueFor engine l b = some w →
      ended.2.store = ((l.store.put a v).result.2.put b w).result.2 := by
  intro ended
  have hended : ended = outcome (first.run engine load >>= fun _ =>
    second.run engine load >>= fun _ => pure ()) l := rfl
  obtain ⟨hrun, -⟩ := hfirst.run engine load l
  cases hv : e.valueFor engine l a with
  | none =>
    rw [hv] at hrun
    obtain ⟨located, hfails⟩ := hrun
    rw [hended, outcome_bind_error (Prod.ext hfails rfl)]
    exact ⟨⟨nofun, nofun⟩, nofun⟩
  | some v =>
    rw [hv] at hrun
    obtain ⟨hok, hstore⟩ := hrun
    have hbehind := h.valueFor_behind hfirst load hv
    obtain ⟨hrun', -⟩ := hsecond.run engine load (outcome (first.run engine load) l).2
    rw [hended, outcome_bind_ok (Prod.ext hok rfl), bind_pure_unit]
    rw [hbehind, hstore] at hrun'
    cases hw : f.valueFor engine l b with
    | none =>
      rw [hw] at hrun'
      obtain ⟨located, hfails⟩ := hrun'
      rw [hfails]
      exact ⟨⟨nofun, nofun⟩, nofun⟩
    | some w =>
      rw [hw] at hrun'
      refine ⟨⟨fun _ => ⟨rfl, rfl⟩, fun _ => hrun'.1⟩, ?_⟩
      rintro _ _ ⟨⟩ ⟨⟩
      exact hrun'.2

/-- Independent assignments may change places. -/
theorem Independent.swap {first' second' : Statement} (h : Independent engine a e b f)
    (hfirst : first.Sets a e) (hsecond : second.Sets b f) (hfirst' : first'.Sets a e)
    (hsecond' : second'.Sets b f) (load : TextSource → Load Unit) (l : Loading) :
    let forth := outcome (Statement.runAll engine load [first, second]) l
    let back := outcome (Statement.runAll engine load [second', first']) l
    (forth.1 = .ok () ↔ back.1 = .ok ()) ∧ (forth.1 = .ok () → forth.2.store = back.2.store) := by
  intro forth back
  obtain ⟨hforth, hforthStore⟩ := h.run_both hfirst hsecond load l
  obtain ⟨hback, hbackStore⟩ := h.symm.run_both hsecond' hfirst' load l
  refine ⟨hforth.trans (and_comm.trans hback.symm), fun hok => ?_⟩
  obtain ⟨hv, hw⟩ := hforth.mp hok
  obtain ⟨v, hv⟩ := Option.isSome_iff_exists.mp hv
  obtain ⟨w, hw⟩ := Option.isSome_iff_exists.mp hw
  exact (hforthStore v w hv hw).trans
    ((Store.put_comm h.keys v w l.store).trans (hbackStore w v hw hv).symm)

end Syntax

namespace Store

open Syntax (Program Statement Expr Independent)

/-- The load of a text runs its program. -/
theorem load_text (engine : Construct.Engine) {text : String} {program : Program}
    (hparse : Syntax.parse text = .ok program) (m : Machine) (s : Store) :
    let ended := outcome (Statement.runAll engine (Load.source engine maxIncludeDepth) program)
      ⟨s, m, []⟩
    (s.load engine m (.text text)).result = ended.1.mapError (Located.inText "string" text) ∧
      (s.load engine m (.text text)).store = ended.2.store := by
  intro ended
  have hrun : outcome (Statement.runAt engine 0 program) ⟨s, m, []⟩ = (ended.1, ended.2) := rfl
  have hfetched : (Entry.text text).fetched m = .ok text := rfl
  obtain ⟨hresult, hstore⟩ := load_parsed hfetched hparse hrun
  refine ⟨hresult, hstore.trans ?_⟩
  cases ended.1 <;> rfl

/-- Independent assignments commute. An expression that does not mention the store itself, and whose
constructions answer by their arguments alone, has one value or one fault in all stores that agree
on its variables. So of two assignments that do not mention each other's key it makes no difference
which one is run first: both orders succeed, with one store, or neither does. Of the standard types,
whatever the libraries behind them, all answer alone but those that look at files or change them and
the samples that may be drawn at random. -/
theorem assignments_commute (engine : Construct.Engine) :
    (∀ (e : Expr) (s t : Store) (u u' : Trail), selfKey ∉ e.variables →
      Syntax.AnswerAlone engine e.types →
      (∀ name ∈ e.variables, (s.get? name).result = (t.get? name).result) →
      u.machine.Alike u'.machine →
      (outcome (e.evaluate engine s) u).1 = (outcome (e.evaluate engine t) u').1) ∧
    (∀ a e b f, Independent engine a e b f → ∀ first second first' second' : Statement,
      first.Sets a e → second.Sets b f → first'.Sets a e → second'.Sets b f →
      (∀ load l,
        let forth := outcome (Statement.runAll engine load [first, second]) l
        let back := outcome (Statement.runAll engine load [second', first']) l
        (forth.1 = .ok () ↔ back.1 = .ok ()) ∧
          (forth.1 = .ok () → forth.2.store = back.2.store)) ∧
      ∀ forth back, Syntax.parse forth = .ok [first, second] →
        Syntax.parse back = .ok [second', first'] → ∀ (m : Machine) (s : Store),
        let forth := s.load engine m (.text forth)
        let back := s.load engine m (.text back)
        (forth.result = .ok () ↔ back.result = .ok ()) ∧
          (forth.result = .ok () → forth.store = back.store)) ∧
    ∀ (libraries : Libraries) (types : List String),
      (∀ type ∈ types, (Construct.Engine.standard libraries).registry.canonical type ∉
        Construct.Builtin.unsettledTypes) →
      Syntax.AnswerAlone (.standard libraries) types := by
  refine ⟨fun e s t u u' hself halone hagree halike => ?_, ?_, fun libraries types h type htype =>
    Construct.Engine.standard_answersAlone (h type htype)⟩
  · exact (e.evaluate_beside hself halone hagree u u' ⟨halike, .refl _, .refl _⟩).1
  · intro a e b f h first second first' second' hfirst hsecond hfirst' hsecond'
    have hswap := h.swap hfirst hsecond hfirst' hsecond'
    refine ⟨hswap, fun forth back hforth hback m s => ?_⟩
    obtain ⟨hresult, hstore⟩ := load_text engine hforth m s
    obtain ⟨hresult', hstore'⟩ := load_text engine hback m s
    obtain ⟨hok, hsame⟩ := hswap (Load.source engine maxIncludeDepth) ⟨s, m, []⟩
    have hadapt (text : String) (x : Except Located Unit) :
        x.mapError (Located.inText "string" text) = .ok () ↔ x = .ok () := by
      cases x with
      | error located => exact ⟨nofun, nofun⟩
      | ok _ => exact ⟨fun _ => rfl, fun _ => rfl⟩
    dsimp only
    rw [hresult, hresult', hstore, hstore', hadapt, hadapt]
    exact ⟨hok, hsame⟩

/-- A text joined with a variable of the store, and an object, assigned in both orders. -/
theorem assignments_commute_sample :
    let e (o : Nat) : Expr := .concat (.literal (.string "x") ⟨o, o + 3⟩)
      (.variable "c" ⟨o + 6, o + 7⟩) ⟨o, o + 7⟩
    let f (o : Nat) : Expr := .construct ⟨"File", ⟨o, o + 4⟩⟩
      [.literal (.string "p") ⟨o + 5, o + 8⟩] [] ⟨o, o + 9⟩
    let m := Machine.start ⟨.directory [], []⟩ []
    let s := (empty.put "c" (.int 1)).result.2
    let forth := s.load .standard m (.text "a = 'x' ^ c; b = File('p');")
    let back := s.load .standard m (.text "b = File('p'); a = 'x' ^ c;")
    Independent .standard "a" (e 4) "b" (f 17) ∧ forth.result.isOk = true ∧
      back.result = .ok () ∧ forth.store = back.store := by
  intro e f m s forth back
  obtain ⟨-, hcommute, halone⟩ := assignments_commute .standard
  have hindependent : Independent .standard "a" (e 4) "b" (f 17) := by
    refine ⟨by decide, by decide, by decide, by decide, by decide, halone .own _ nofun,
      halone .own _ ?_⟩
    exact List.forall_mem_singleton.mpr (by decide +kernel)
  have hforth : Syntax.parse "a = 'x' ^ c; b = File('p');" =
      .ok [⟨.set ⟨"a", ⟨0, 1⟩⟩ (e 4), ⟨0, 12⟩⟩, ⟨.set ⟨"b", ⟨13, 14⟩⟩ (f 17), ⟨13, 27⟩⟩] := by
    have hlex : lex "a = 'x' ^ c; b = File('p');" = [⟨.key "a", ⟨0, 1⟩⟩, ⟨.equals, ⟨2, 3⟩⟩,
        ⟨.string "x", ⟨4, 7⟩⟩, ⟨.caret, ⟨8, 9⟩⟩, ⟨.key "c", ⟨10, 11⟩⟩, ⟨.semicolon, ⟨11, 12⟩⟩,
        ⟨.key "b", ⟨13, 14⟩⟩, ⟨.equals, ⟨15, 16⟩⟩, ⟨.key "File", ⟨17, 21⟩⟩, ⟨.openParen, ⟨21, 22⟩⟩,
        ⟨.string "p", ⟨22, 25⟩⟩, ⟨.closeParen, ⟨25, 26⟩⟩, ⟨.semicolon, ⟨26, 27⟩⟩,
        ⟨.endOfInput, ⟨27, 27⟩⟩] := by
      decide +kernel
    rw [Syntax.parse, hlex]
    rfl
  have hback : Syntax.parse "b = File('p'); a = 'x' ^ c;" =
      .ok [⟨.set ⟨"b", ⟨0, 1⟩⟩ (f 4), ⟨0, 14⟩⟩, ⟨.set ⟨"a", ⟨15, 16⟩⟩ (e 19), ⟨15, 27⟩⟩] := by
    have hlex : lex "b = File('p'); a = 'x' ^ c;" = [⟨.key "b", ⟨0, 1⟩⟩, ⟨.equals, ⟨2, 3⟩⟩,
        ⟨.key "File", ⟨4, 8⟩⟩, ⟨.openParen, ⟨8, 9⟩⟩, ⟨.string "p", ⟨9, 12⟩⟩,
        ⟨.closeParen, ⟨12, 13⟩⟩, ⟨.semicolon, ⟨13, 14⟩⟩, ⟨.key "a", ⟨15, 16⟩⟩, ⟨.equals, ⟨17, 18⟩⟩,
        ⟨.string "x", ⟨19, 22⟩⟩, ⟨.caret, ⟨23, 24⟩⟩, ⟨.key "c", ⟨25, 26⟩⟩, ⟨.semicolon, ⟨26, 27⟩⟩,
        ⟨.endOfInput, ⟨27, 27⟩⟩] := by
      decide +kernel
    rw [Syntax.parse, hlex]
    rfl
  have hsame := (hcommute "a" (e 4) "b" (f 17) hindependent _ _ _ _ ⟨_, e 4, _, rfl, rfl, rfl⟩
    ⟨_, f 17, _, rfl, rfl, rfl⟩ ⟨_, e 19, _, rfl, rfl, rfl⟩ ⟨_, f 4, _, rfl, rfl, rfl⟩).2 _ _
    hforth hback m s
  have hisOk : forth.result.isOk = true := by decide +kernel
  have hok : forth.result = .ok () := by
    cases hresult : forth.result with
    | error error =>
      rw [hresult] at hisOk
      cases hisOk
    | ok _ => rfl
  exact ⟨hindependent, hisOk, hsame.1.mp hok, hsame.2 hok⟩

end Store

end TypedConfig
