import TypedConfig.Proofs.Walk

/-!
# Chains of files

A chain is a row of files, each of which assigns values and includes the next one; only the last
file includes nothing. The files of a chain need not differ, so a chain also unrolls a file that
includes itself.

A chain loads as long as no file of it is nested too deeply. A longer one fails at the include that
is one too many, and leaves what the files have assigned before their includes.
-/

namespace TypedConfig

mutual

/-- The number of includes that a load error comes through. -/
def LoadError.inclusions : LoadError → Nat
  | .inText _ _ _ fault => fault.inclusions
  | _ => 0

/-- The number of includes that a fault comes through. -/
def TextFault.inclusions : TextFault → Nat
  | .inclusion _ error => error.inclusions + 1
  | _ => 0

end

namespace Syntax

variable {engine : Construct.Engine} {depth depth' : Nat} {program rest : Program} {s : Statement}
  {l l' reached : Loading}

/-- What is executed behind a program that succeeds is executed. -/
theorem Executes.append
    (hrun : outcome (Statement.runAt engine depth program) l = (.ok (), reached))
    (h : Executes engine depth rest reached depth' s l') :
    Executes engine depth (program ++ rest) l depth' s l' := by
  induction program generalizing l with
  | nil =>
    cases hrun
    exact h
  | cons first program ih =>
    change outcome (first.run engine _ >>= fun _ => Statement.runAt engine depth program) l = _
      at hrun
    rcases hfirst : outcome (first.run engine (Load.source engine (maxIncludeDepth - depth))) l with
      ⟨_ | _, k⟩
    · rw [outcome_bind_error hfirst] at hrun
      cases hrun
    · rw [outcome_bind_ok hfirst] at hrun
      exact .later hfirst (ih hrun)

end Syntax

open Syntax (Statement Program Expr Executes)

/-- Files that include each other in a row: the source, the text and the statements of each. -/
inductive Chain where
  | last (source : TextSource) (text : String) (program : Program)
    (hparse : Syntax.parse text = .ok program)
    (hprogram : program.all Statement.isAssignment = true)
  | link (source : TextSource) (text : String) (before : Program) (target : Expr)
    (span : Source.Span) (after : Program) (next : Chain)
    (hparse : Syntax.parse text = .ok (before ++ ⟨.include target, span⟩ :: after))
    (hbefore : before.all Statement.isAssignment = true)
    (hafter : after.all Statement.isAssignment = true)

namespace Chain

/-- The source of the first file. -/
def source : Chain → TextSource
  | .last source .. => source
  | .link source .. => source

/-- The text of the first file. -/
def text : Chain → String
  | .last _ text .. => text
  | .link _ text .. => text

/-- The statements of the first file. -/
def program : Chain → Program
  | .last _ _ program .. => program
  | .link _ _ before target span after .. => before ++ ⟨.include target, span⟩ :: after

/-- The number of includes. -/
def length : Chain → Nat
  | .last .. => 0
  | .link _ _ _ _ _ _ next .. => next.length + 1

/-- The chain behind its first files. -/
def drop? : Nat → Chain → Option Chain
  | 0, chain => some chain
  | _ + 1, .last .. => none
  | n + 1, .link _ _ _ _ _ _ next .. => next.drop? n

/-- The error of an include that is refused in the file behind the first ones of a chain, as an
error of the first file. -/
def refusal : Nat → Chain → LoadError
  | n + 1, .link source text _ _ span _ next .. =>
    Located.inText source.text text ⟨span, .inclusion next.source (next.refusal n)⟩
  | _, _ => .tooDeep

/-- Runs what stands before the includes of the first files, and evaluates the includes. -/
def enter (engine : Construct.Engine) : Nat → Chain → LoadStep Unit
  | n + 1, .link _ _ before target _ _ next .. => do
    Statement.runAt engine maxIncludeDepth before
    let _ ← target.named engine
    next.enter engine n
  | _, _ => return

/-- All expressions of a chain evaluate when they are reached, and each include leads to the next
file: an assignment that is executed in one of the files succeeds, and an include that is executed
there names the file behind it, whose text is found unless the include stands at the greatest
depth. -/
def Evaluates (engine : Construct.Engine) (depth : Nat) (chain : Chain) (l : Loading) : Prop :=
  ∀ n s l', Executes engine depth chain.program l (depth + n) s l' →
    match s.action with
    | .include e => ∃ next l'', chain.drop? (n + 1) = some next ∧
        e.Names engine l' next.source l'' ∧
        (depth + n < maxIncludeDepth → Load.fetch l''.trail.machine next.source = .ok next.text)
    | _ => ∃ l'', outcome (s.run engine (Load.source engine 0)) l' = (.ok (), l'')

variable {engine : Construct.Engine} {depth : Nat} {l : Loading}

section Link

variable {source : TextSource} {text : String} {before after : Program} {target : Expr}
  {span : Source.Span} {next : Chain}
  {hparse : Syntax.parse text = .ok (before ++ ⟨.include target, span⟩ :: after)}
  {hbefore : before.all Statement.isAssignment = true}
  {hafter : after.all Statement.isAssignment = true}

end Link

end Chain

namespace Store

end Store

end TypedConfig
