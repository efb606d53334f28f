import TypedConfig.Syntax.Tree

/-!
# What expressions mention

The variables in an expression and the types that it constructs, in the order in which they stand.
-/

namespace TypedConfig.Syntax

mutual

/-- The variables that occur in an expression. -/
def Expr.variables : Expr → List String
  | .literal _ _ => []
  | .variable name _ => [name]
  | .concat left right _ => left.variables ++ right.variables
  | .array _ items _ => Expr.variablesAll items
  | .construct _ arguments named _ => Expr.variablesAll arguments ++ Expr.variablesNamed named

/-- The variables of several expressions. -/
def Expr.variablesAll : List Expr → List String
  | [] => []
  | e :: es => e.variables ++ Expr.variablesAll es

/-- The variables of named arguments. -/
def Expr.variablesNamed : List (Name × Expr) → List String
  | [] => []
  | (_, e) :: rest => e.variables ++ Expr.variablesNamed rest

end

mutual

/-- The names of the types that are constructed in an expression. -/
def Expr.types : Expr → List String
  | .literal _ _ => []
  | .variable _ _ => []
  | .concat left right _ => left.types ++ right.types
  | .array _ items _ => Expr.typesAll items
  | .construct type arguments named _ =>
    type.text :: (Expr.typesAll arguments ++ Expr.typesNamed named)

/-- The types that several expressions construct. -/
def Expr.typesAll : List Expr → List String
  | [] => []
  | e :: es => e.types ++ Expr.typesAll es

/-- The types that named arguments construct. -/
def Expr.typesNamed : List (Name × Expr) → List String
  | [] => []
  | (_, e) :: rest => e.types ++ Expr.typesNamed rest

end

/-- The expressions that an expression is put together from, in the order in which they stand. -/
def Expr.parts : Expr → List Expr
  | .literal _ _ | .variable _ _ => []
  | .concat left right _ => [left, right]
  | .array _ items _ => items
  | .construct _ arguments named _ => arguments ++ named.map Prod.snd

variable {e f : Expr} {es : List Expr}

/-- The variables of expressions come one after the other. -/
theorem Expr.variablesAll_append (es fs : List Expr) :
    Expr.variablesAll (es ++ fs) = Expr.variablesAll es ++ Expr.variablesAll fs := by
  induction es with
  | nil => rfl
  | cons e es ih =>
    rw [List.cons_append, Expr.variablesAll, Expr.variablesAll, ih, List.append_assoc]

/-- The variables of named arguments are those of their values. -/
theorem Expr.variablesNamed_eq (named : List (Name × Expr)) :
    Expr.variablesNamed named = Expr.variablesAll (named.map Prod.snd) := by
  induction named with
  | nil => rfl
  | cons entry named ih => rw [Expr.variablesNamed, List.map_cons, Expr.variablesAll, ih]

/-- The variables of an expression are among those of all. -/
theorem Expr.variables_subset_all (he : e ∈ es) : e.variables ⊆ Expr.variablesAll es := by
  induction es with
  | nil => cases he
  | cons first es ih =>
    rcases List.mem_cons.mp he with rfl | hlater
    · exact List.subset_append_left _ _
    · exact List.Subset.trans (ih hlater) (List.subset_append_right _ _)

/-- An expression mentions what its parts mention. -/
theorem Expr.variables_subset_of_part (hf : f ∈ e.parts) : f.variables ⊆ e.variables := by
  have hall := Expr.variables_subset_all hf
  cases e with
  | literal | «variable» => cases hf
  | concat left right span =>
    rwa [Expr.parts, Expr.variablesAll, Expr.variablesAll, Expr.variablesAll,
      List.append_nil] at hall
  | array tag items span => exact hall
  | construct type arguments named span =>
    rwa [Expr.parts, Expr.variablesAll_append, ← Expr.variablesNamed_eq] at hall

/-- The parts of an expression are smaller than it. -/
theorem Expr.sizeOf_part (hf : f ∈ e.parts) : sizeOf f < sizeOf e := by
  have hsize := List.sizeOf_lt_of_mem hf
  cases e with
  | literal | «variable» => cases hf
  | concat left right span =>
    rw [Expr.parts, List.mem_cons, List.mem_singleton] at hf
    rcases hf with rfl | rfl
    all_goals
      rw [Expr.concat.sizeOf_spec]
      omega
  | array tag items span =>
    rw [Expr.array.sizeOf_spec]
    change sizeOf f < sizeOf items at hsize
    omega
  | construct type arguments named span =>
    rw [Expr.construct.sizeOf_spec]
    rcases List.mem_append.mp hf with hargument | hnamed
    · have hargument := List.sizeOf_lt_of_mem hargument
      omega
    · obtain ⟨⟨key, value⟩, hentry, rfl⟩ := List.mem_map.mp hnamed
      have hentry := List.sizeOf_lt_of_mem hentry
      rw [Prod.mk.sizeOf_spec] at hentry
      change sizeOf value < _
      omega

/-- What holds of an expression if it holds of its parts holds of every expression. -/
theorem Expr.parts_induction {P : Expr → Prop} (h : ∀ e : Expr, (∀ f ∈ e.parts, P f) → P e)
    (e : Expr) : P e :=
  h e fun f _ => Expr.parts_induction h f
termination_by sizeOf e
decreasing_by exact Expr.sizeOf_part ‹_›

end TypedConfig.Syntax
