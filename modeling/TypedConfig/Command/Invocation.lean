import TypedConfig.Command.Basic

/-!
# Invocations

The arguments of the program name a command with its file and its options. An option has its value
behind an equals sign or as the next argument; the option for entries takes any number of values.
What does not fit is a usage error.
-/

namespace TypedConfig.Command

/-- What the program is asked to do. -/
inductive Invocation where
  | run (file key : String)
  | main (config : String) (arguments : List String)
  | check (file : String)
  | dump (file : String)
  | version
  | help
  deriving DecidableEq, Repr

/-- The options of a command: those with one value, and those with any number. -/
structure Options where
  single : List String
  several : List String

/-- The arguments of a command, sorted out. -/
structure Sorted where
  places : List String := []
  options : List (String × String) := []
  needsHelp : Bool := false

/-- The option that waits for a value. -/
inductive Pending where
  | nothing
  | value (name : String)
  | values (name : String)

/-- Whether an argument is an option and no value. -/
def isFlag (argument : String) : Bool :=
  match argument.toList with
  | '-' :: _ :: _ => true
  | _ => false

namespace Sorted

def addPlace (s : Sorted) (place : String) : Sorted := { s with places := s.places ++ [place] }

def addOption (s : Sorted) (name value : String) : Sorted :=
  { s with options := s.options ++ [(name, value)] }

/-- The values of an option. -/
def valuesOf (s : Sorted) (name : String) : List String :=
  (s.options.filter (·.1 == name)).map (·.2)

/-- An argument as the name of an option with the value behind its equals sign. -/
def cutFlag (argument : String) : String × Option String :=
  let name := argument.toList.takeWhile (· != '=')
  match argument.toList.drop name.length with
  | [] => (argument, none)
  | _ :: value => (String.ofList name, some (String.ofList value))

/-- Takes an option with what stands behind its equals sign. -/
def takeFlag (o : Options) (s : Sorted) (argument : String) : Option (Sorted × Pending) :=
  let (name, value) := cutFlag argument
  if o.single.contains name then
    if (s.valuesOf name).isEmpty then
      match value with
      | some v => some (s.addOption name v, .nothing)
      | none => some (s, .value name)
    else none
  else if o.several.contains name then
    match value with
    | some v => some (s.addOption name v, .nothing)
    | none => some (s, .values name)
  else none

/-- Sorts arguments out; `none` for a usage error. -/
def ofArguments (o : Options) (s : Sorted) : Pending → List String → Option Sorted
  | .value _, [] => none
  | _, [] => some s
  | .value name, a :: rest =>
    if isFlag a then none else ofArguments o (s.addOption name a) .nothing rest
  | pending, a :: rest =>
    if a = "--" then some { s with places := s.places ++ rest }
    else if a = "--help" ∨ a = "-h" then some { s with needsHelp := true }
    else if isFlag a then
      match takeFlag o s a with
      | none => none
      | some (s, pending) => ofArguments o s pending rest
    else
      match pending with
      | .values name => ofArguments o (s.addOption name a) pending rest
      | _ => ofArguments o (s.addPlace a) .nothing rest

/-- The one file that a command asks for. -/
def file? (s : Sorted) : Option String :=
  match s.places with
  | [file] => if file = "" then none else some file
  | _ => none

end Sorted

namespace Invocation

/-- The invocation of a command with its arguments; `none` for a usage error. -/
def ofCommand (o : Options) (arguments : List String) (make : Sorted → Option Invocation) :
    Option Invocation :=
  match Sorted.ofArguments o {} .nothing arguments with
  | none => none
  | some s => if s.needsHelp then some .help else make s

/-- Reads the arguments of the program; `none` for a usage error. -/
def read : List String → Option Invocation
  | "run" :: rest => ofCommand ⟨["--key"], []⟩ rest fun s =>
    s.file?.map fun file => .run file ((s.valuesOf "--key").headD Run.runKey)
  | "main" :: rest => ofCommand ⟨["--config"], ["--args"]⟩ rest fun s =>
    match s.places, s.valuesOf "--config" with
    | [], [config] => if config = "" then none else some (.main config (s.valuesOf "--args"))
    | _, _ => none
  | "check" :: rest => ofCommand ⟨[], []⟩ rest fun s => s.file?.map .check
  | "dump" :: rest => ofCommand ⟨[], []⟩ rest fun s => s.file?.map .dump
  | "help" :: _ => some .help
  | a :: _ =>
    if a = "--version" ∨ a = "-V" then some .version
    else if a = "--help" ∨ a = "-h" then some .help
    else none
  | [] => none

end Invocation

/-- What a run of the program leaves: its exit code, the machine with what has been printed, and
what goes to the error output. -/
structure Ended where
  code : Nat
  machine : Machine
  reports : List Report

/-- The text of the version. -/
def versionText : String := "omni 0.1.0"

/-- How the program is used. -/
def usageText : String :=
  "Load, check, and run OmniProps configuration files\n\n" ++
  "Usage: omni run <FILE> [--key <KEY>]\n" ++
  "       omni main --config <CONFIG> [--args [<KEY=VALUE>...]]\n" ++
  "       omni check <FILE>\n" ++
  "       omni dump <FILE>"

/-- Ends the program after a command. An error is reported with its causes, unless the command has
reported the problems itself. -/
def Finished.ended (f : Finished) : Ended :=
  match f.result with
  | .ok _ => ⟨0, f.machine, f.reports⟩
  | .error (.problems ..) => ⟨1, f.machine, f.reports⟩
  | .error e => ⟨1, f.machine, f.reports ++ [.lines (chainText e.message e.causes ++ "\n")]⟩

/-- Does what an invocation asks for. -/
def Invocation.perform (m : Machine) : Invocation → Ended
  | .run file key => (Command.run file key m).ended
  | .main config arguments => (runMain config arguments m).ended
  | .check file => (Command.check file m).ended
  | .dump file => (Command.dump file m).ended
  | .version => ⟨0, m.printLine versionText, []⟩
  | .help => ⟨0, m.printLine usageText, []⟩

/-- Runs the program with some arguments. -/
def perform (arguments : List String) (m : Machine) : Ended :=
  match Invocation.read arguments with
  | some invocation => invocation.perform m
  | none => ⟨2, m, [.lines (usageText ++ "\n")]⟩

end TypedConfig.Command
