import TypedConfig.Proofs.Outcome
import TypedConfig.Proofs.Relocation

/-!
# Running relocated statements

Spans show in a load only as the places of its faults. A relocated statement therefore does what
the statement does, and where it fails, it fails for the same reason at the relocated place.
-/

namespace TypedConfig

open Source (Relocation)

/-- A fault in its new place. -/
def Located.relocate (r : Relocation) (located : Located) : Located :=
  ⟨r located.span, located.fault⟩

namespace Evaluation

variable (r : Relocation)

/-- A question to a store has no place. -/
theorem adapt_ofLogged {α : Type} (x : Logged α) :
    ExceptT.adapt (Located.relocate r) (ofLogged x) = ofLogged x := rfl

/-- A construction fails at its span in the new place. -/
theorem ofBuild_relocate {α : Type} (span : Source.Span) (b : Construct.Build α) :
    ofBuild (r span) b = ExceptT.adapt (Located.relocate r) (ofBuild span b) := by
  apply outcome_ext
  intro t
  rw [outcome_adapt, outcome_ofBuild, outcome_ofBuild]
  rcases outcome b t.machine with ⟨_ | _, _⟩ <;> rfl

/-- A failure that is known moves to the new place. -/
theorem adapt_liftM {α : Type} (x : Except Located α) :
    ExceptT.adapt (Located.relocate r) (liftM x : Evaluation α) =
      liftM (x.mapError (Located.relocate r)) := by
  cases x <;> rfl

end Evaluation

namespace Syntax

variable (r : Relocation)

/-- A variable is looked up alike in the new place. -/
theorem lookUp_relocate (store : Store) (name : String) (span : Source.Span) :
    lookUp store name (r span) =
      ExceptT.adapt (Located.relocate r) (lookUp store name span) := by
  unfold lookUp
  split
  · rw [adapt_bind, Evaluation.adapt_ofLogged]
    simp only [Evaluation.ofBuild_relocate]
  · rw [adapt_bind, Evaluation.adapt_ofLogged]
    congr 1
    funext found
    cases found <;> rfl

/-- The kind of an array is declared alike in the new place. -/
theorem declaredKind_relocate (registry : Construct.Registry) (tag : Option Name) :
    declaredKind registry (tag.map (Name.relocate r)) =
      (declaredKind registry tag).mapError (Located.relocate r) := by
  cases tag with
  | none => rfl
  | some tag =>
    simp only [Option.map_some, declaredKind, tagKind, Name.relocate]
    cases Kind.ofPrimitiveTag tag.text with
    | some kind => rfl
    | none => cases registry.lookup tag.text <;> rfl

/-- Items fit alike in their new places. -/
theorem fitItems_relocate (element : Kind) (misfit misfit' : Source.Span → Kind → Located)
    (hmisfit : ∀ span given, misfit' (r span) given = (misfit span given).relocate r)
    (values : List Value) (places : List Source.Span) :
    fitItems element misfit' values (places.map r) =
      (fitItems element misfit values places).mapError (Located.relocate r) := by
  induction values generalizing places with
  | nil => rfl
  | cons v vs ih =>
    cases places with
    | nil => rfl
    | cons span spans =>
      rw [List.map_cons, fitItems, fitItems]
      cases element.coerce v with
      | none => exact congrArg Except.error (hmisfit span v.kind)
      | some w =>
        simp only [ih spans]
        cases fitItems element misfit vs spans <;> rfl

/-- An array is made alike in the new place. -/
theorem arrayOf_relocate (declared : Option Kind) (items : List Value)
    (places : List Source.Span) (span : Source.Span) :
    arrayOf declared items (places.map r) (r span) =
      (arrayOf declared items places span).mapError (Located.relocate r) := by
  cases declared with
  | some element =>
    simp only [arrayOf]
    rw [fitItems_relocate r element (fun place given => ⟨place, .misfit given element⟩) _
      fun _ _ => rfl]
    cases fitItems element (fun place given => ⟨place, .misfit given element⟩) items places <;> rfl
  | none =>
    simp only [arrayOf]
    rw [fitItems_relocate r _ (fun _ given => ⟨span, .mixed given _⟩) _ fun _ _ => rfl]
    cases fitItems ((items.head?.map Value.kind).getD .any)
      (fun _ given => ⟨span, .mixed given _⟩) items places <;> rfl

mutual

/-- A relocated expression has the same value; a fault in it is at the relocated place. -/
theorem Expr.evaluate_relocate (engine : Construct.Engine) (store : Store) : (e : Expr) →
    (e.relocate r).evaluate engine store =
      ExceptT.adapt (Located.relocate r) (e.evaluate engine store)
  | .literal value _ => rfl
  | .variable name span => lookUp_relocate r store name span
  | .concat left right span => by
    rw [Expr.relocate, Expr.evaluate, Expr.evaluate, left.evaluate_relocate engine store,
      right.evaluate_relocate engine store, adapt_bind]
    congr 1
    funext v
    rw [adapt_bind]
    congr 1
    funext w
    cases joinValues v w <;> rfl
  | .array tag items span => by
    rw [Expr.relocate, Expr.evaluate, Expr.evaluate, declaredKind_relocate, adapt_bind,
      Evaluation.adapt_liftM, Expr.evaluateAll_relocate engine store items]
    congr 1
    funext declared
    rw [adapt_bind]
    congr 1
    funext values
    have hplaces : (Expr.relocateAll r items).map Expr.span = (items.map Expr.span).map r := by
      simp [Function.comp_def]
    rw [hplaces, arrayOf_relocate, Evaluation.adapt_liftM]
  | .construct type arguments named span => by
    rw [Expr.relocate, Expr.evaluate, Expr.evaluate, adapt_bind,
      Expr.evaluateAll_relocate engine store arguments]
    congr 1
    funext values
    rw [adapt_bind, Expr.evaluateNamed_relocate engine store named]
    congr 1
    funext namedValues
    exact Evaluation.ofBuild_relocate r span _

/-- Several expressions evaluate alike in their new places. -/
theorem Expr.evaluateAll_relocate (engine : Construct.Engine) (store : Store) :
    (es : List Expr) → Expr.evaluateAll engine store (Expr.relocateAll r es) =
      ExceptT.adapt (Located.relocate r) (Expr.evaluateAll engine store es)
  | [] => rfl
  | e :: es => by
    rw [Expr.relocateAll, Expr.evaluateAll, Expr.evaluateAll, adapt_bind,
      e.evaluate_relocate engine store, Expr.evaluateAll_relocate engine store es]
    congr 1
    funext v
    rw [adapt_bind]
    rfl

/-- Named arguments evaluate alike in their new places. -/
theorem Expr.evaluateNamed_relocate (engine : Construct.Engine) (store : Store) :
    (es : List (Name × Expr)) → Expr.evaluateNamed engine store (Expr.relocateNamed r es) =
      ExceptT.adapt (Located.relocate r) (Expr.evaluateNamed engine store es)
  | [] => rfl
  | (name, e) :: rest => by
    rw [Expr.relocateNamed, Expr.evaluateNamed, Expr.evaluateNamed, adapt_bind,
      e.evaluate_relocate engine store, Expr.evaluateNamed_relocate engine store rest]
    congr 1
    funext v
    rw [adapt_bind]
    rfl

end

end Syntax

namespace LoadStep

variable {α : Type} (r : Relocation)

/-- An evaluation in a load fails in the new place. -/
theorem adapt_evaluate (e : Store → Evaluation α) :
    ExceptT.adapt (Located.relocate r) (evaluate e) =
      evaluate fun store => ExceptT.adapt (Located.relocate r) (e store) := by
  apply outcome_ext
  intro l
  rw [outcome_adapt, outcome_evaluate, outcome_evaluate, outcome_adapt]

/-- An evaluation whose log is dropped fails in the new place. -/
theorem adapt_evaluateInPassing (e : Store → Evaluation α) :
    ExceptT.adapt (Located.relocate r) (evaluateInPassing e) =
      evaluateInPassing fun store => ExceptT.adapt (Located.relocate r) (e store) := by
  apply outcome_ext
  intro l
  rw [outcome_adapt, outcome_evaluateInPassing, outcome_evaluateInPassing]
  simp only [outcome_adapt]

end LoadStep

namespace Syntax

variable (r : Relocation)

/-- An assignment runs alike in the new place. -/
theorem assign_relocate (engine : Construct.Engine) (key : Name) (e : Expr) :
    assign engine (key.relocate r) (e.relocate r) =
      ExceptT.adapt (Located.relocate r) (assign engine key e) := by
  unfold assign
  simp only [Expr.evaluate_relocate, ← LoadStep.adapt_evaluate, adapt_bind]
  rfl

/-- A relocated statement does what the statement does. -/
theorem Statement.run_relocate (engine : Construct.Engine) (load : TextSource → Load Unit)
    (s : Statement) :
    (s.relocate r).run engine load =
      ExceptT.adapt (Located.relocate r) (s.run engine load) := by
  obtain ⟨⟨key, e⟩ | ⟨key, e⟩ | e, span⟩ := s
  · exact assign_relocate r engine key e
  · change (LoadStep.ask (Store.contains key.text) >>= fun present =>
        if present then pure () else assign engine (key.relocate r) (e.relocate r)) =
      ExceptT.adapt (Located.relocate r) (LoadStep.ask (Store.contains key.text) >>= fun present =>
        if present then pure () else assign engine key e)
    rw [adapt_bind, assign_relocate]
    congr 1
    funext present
    cases present <;> rfl
  · simp only [Statement.run, Statement.relocate, Action.relocate, Expr.evaluate_relocate,
      ← LoadStep.adapt_evaluateInPassing, adapt_bind, Expr.span_relocate]
    congr 1
    funext v
    cases sourceOf v with
    | error fault => rfl
    | ok source =>
      change _ = ExceptT.adapt (Located.relocate r) (ExceptT.adapt _ (load source))
      rw [adapt_adapt]
      rfl

/-- Statements run alike in their new places. -/
theorem Statement.runAll_relocate (engine : Construct.Engine) (load : TextSource → Load Unit)
    (program : List Statement) :
    Statement.runAll engine load (program.map (Statement.relocate r)) =
      ExceptT.adapt (Located.relocate r) (Statement.runAll engine load program) := by
  induction program with
  | nil => rfl
  | cons s rest ih =>
    rw [List.map_cons, Statement.runAll, Statement.runAll, adapt_bind, s.run_relocate, ih]

end Syntax

end TypedConfig
