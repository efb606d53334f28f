import TypedConfig.Command.Report
import TypedConfig.Run.Launch

/-!
# Commands

The four commands: running a file, running a main configuration, checking a file, and printing
its entries. A check reads the file, loads it, and then validates every entry; its report is
written even when it ends with an error.
-/

namespace TypedConfig.Command

/-- Why a command fails. -/
inductive CommandError where
  | unreadable (path : String) (cause : File.FileError)
  | load (error : LoadError)
  | launch (error : Run.LaunchError)
  | problems (path : String) (count : Nat)

namespace CommandError

/-- The message of an error. -/
def message : CommandError → String
  | .unreadable path _ => "cannot read '" ++ path ++ "'"
  | .load error => error.message
  | .launch error => error.message
  | .problems path count => toString count ++ " problem(s) found in '" ++ path ++ "'"

/-- The messages of the failures behind an error, outermost first. -/
def causes : CommandError → List String
  | .unreadable _ cause => [cause.message]
  | .load error => error.causes
  | .launch error => error.causes
  | .problems .. => []

end CommandError

/-- What a command has done: its result, the machine that it leaves, and its report. -/
structure Finished where
  result : Except CommandError Unit
  machine : Machine
  reports : List Report

/-- Loads a file and runs the object under a key. -/
def run (file key : String) (m : Machine) : Finished :=
  let (result, m) := ((Run.launchFile file key).run.run m : Except Run.LaunchError Unit × Machine)
  ⟨result.mapError .launch, m, []⟩

/-- Loads a main configuration with its arguments and runs it. -/
def runMain (config : String) (arguments : List String) (m : Machine) : Finished :=
  let (result, m) :=
    ((Run.launchMain config arguments).run.run m : Except Run.LaunchError Unit × Machine)
  ⟨result.mapError .launch, m, []⟩

/-- The entries of a flat map, one a line. -/
def entryLines (entries : Entries String) : String :=
  String.join (entries.map fun (key, text) => key ++ "=" ++ text ++ "\n")

/-- Loads a file and prints its entries. -/
def dump (file : String) (m : Machine) : Finished :=
  let loaded := Store.empty.readFrom m (.path file)
  match loaded.result with
  | .error e => ⟨.error (.load e), loaded.machine, []⟩
  | .ok _ =>
    let lines := entryLines loaded.store.flatMap.result
    ⟨.ok (), { loaded.machine with printed := loaded.machine.printed ++ lines }, []⟩

/-- The report of the entries that break constraints. -/
def validationReports (name : String) (errors : List Construct.ValidationError) : List Report :=
  errors.map fun e => .lines (name ++ ": " ++ e.message ++ "\n")

/-- The result of a check with some problems. -/
def checked (file : String) (m : Machine) (reports : List Report) : Finished :=
  if reports.isEmpty then ⟨.ok (), m, []⟩
  else ⟨.error (.problems file reports.length), m, reports⟩

/-- Loads a file and validates its entries. -/
def check (file : String) (m : Machine) : Finished :=
  match m.tree.text file with
  | .error e => ⟨.error (.unreadable file e), m, []⟩
  | .ok _ =>
    let loaded := Store.empty.readFrom m (.path file)
    match loaded.result with
    | .error e => checked file loaded.machine [Report.ofLoadError file e]
    | .ok _ =>
      let errors := (loaded.store.validateEntries Construct.Validator.constraints).result
      checked file loaded.machine (validationReports file errors)

end TypedConfig.Command
