import TypedConfig.Construct.Blueprint
import TypedConfig.Text.Blank

/-!
# Types that can be run

Command lines, and configurations that are run once for each of several items.
-/

namespace TypedConfig.Construct.Builtin

/-- The command of a line: its words, the first of which is the program. -/
def commandOfLine (line : String) : ShellCommand :=
  match (Text.words line.toList).map String.ofList with
  | [] => ⟨"", [], none⟩
  | program :: arguments => ⟨program, arguments, none⟩

/-- A command, given as a line or as a program with its arguments. -/
def shellExecutor : Blueprint where
  typeId := TypeId.shell
  State := ShellCommand
  factories := [
    ⟨[.string], do return commandOfLine (← Arguments.string)⟩,
    ⟨[.string, .array .string], do
      let program ← Arguments.string
      return ⟨program, ← Arguments.strings, none⟩⟩]
  setters := [⟨"dir", .any⟩]
  inject target v command :=
    match target, v with
    | _, .object _ (.file path) => .ok { command with directory := some path }
    | _, .string path => .ok { command with directory := some path }
    | _, v => .error (.unusable v.kind)
  finish command := Build.object (.shell command)

/-- A run for each of several items: the configuration to load, the items, the key for the item,
the number of workers, if it is given, and the entries that every run gets. -/
structure ParallelRun where
  config : Option String := none
  items : Option (List Value) := none
  itemName : Option String := none
  workers : Option Int32 := none
  extras : List (String × Value) := []

/-- Takes one named argument of a parallel run. What is no setting is handed to every run. -/
def ParallelRun.inject (target : Target) (v : Value) (run : ParallelRun) :
    Except InjectionFault ParallelRun :=
  match target with
  | .setter "runOprops" =>
    match v with
    | .object _ (.file path) => .ok { run with config := some path }
    | v => .error (.unusable v.kind)
  | .setter "items" =>
    match v with
    | .array _ items => .ok { run with items := some items }
    | v => .error (.unusable v.kind)
  | .setter "itemName" =>
    match v with
    | .string name => .ok { run with itemName := some name }
    | v => .error (.unusable v.kind)
  | .setter "parallelity" =>
    match v with
    | .int n => .ok { run with workers := some n }
    | v => .error (.unusable v.kind)
  | target => .ok { run with extras := run.extras ++ [(target.key, v)] }

/-- A configuration that is run once for each item. If the number of workers is not given, it goes
by the processors. -/
def parallelRunnable : Blueprint where
  typeId := TypeId.parallel
  State := ParallelRun
  factories := [⟨[], return {}⟩]
  setters := [⟨"runOprops", .object TypeId.file⟩, ⟨"items", .array .any⟩, ⟨"itemName", .string⟩,
    ⟨"parallelity", .int⟩]
  put := some .any
  inject := ParallelRun.inject
  finish run := do
    let workers := run.workers.getD (← get).workers
    Build.object (.parallel run.config run.items run.itemName workers run.extras)

end TypedConfig.Construct.Builtin
