import TypedConfig.Run.Object
import TypedConfig.Text.Blank

/-!
# Launching

Loads a configuration into a new store and runs the object under a key. A main configuration finds
its own directory and the arguments in the store before it is loaded.
-/

namespace TypedConfig.Run

/-- A launch on a machine. -/
abbrev Launching (α : Type) := ExceptT LaunchError (StateM Machine) α

/-- The key for the directory of a main configuration. -/
def baseDirectoryKey : String := "BASE_DIR"

/-- Loads a file into a store. -/
def loadFile (path : String) (s : Store) : Launching Store := do
  let loaded := s.readFrom (← get) (.path path)
  set loaded.machine
  match loaded.result with
  | .ok _ => return loaded.store
  | .error e => throw (.load e)

/-- Runs the object under a key of a store. -/
def runEntry (key : String) (s : Store) : Launching Unit := do
  match (runnable key s).result with
  | .error e => throw (.lookup e)
  | .ok (_, content) => ExceptT.adapt LaunchError.run (runContent .inOrder maxRunDepth content)

/-- Loads a file into a new store and runs the object under a key. -/
def launchFile (path key : String) : Launching Unit := do
  runEntry key (← loadFile path Store.empty)

/-- The key and the value of an argument: there is one equals sign, and a value after it. -/
def splitArgument (argument : String) : Except LaunchError (String × String) :=
  match Text.splitOn (· == '=') argument.toList with
  | [key, value] =>
    if value.isEmpty then .error (.invalidArgument argument)
    else .ok (String.ofList key, String.ofList value)
  | _ => .error (.invalidArgument argument)

/-- Puts arguments into a store one after the other. -/
def putArguments : List String → Store → Except LaunchError Store
  | [], s => .ok s
  | argument :: rest, s =>
    match splitArgument argument with
    | .error e => .error e
    | .ok (key, value) => putArguments rest (s.put key (.string value)).result.2

/-- The directory that holds a file. -/
def directoryOf (tree : File.Tree) (path : String) : Except LaunchError String :=
  match tree.absolute path with
  | .error e => .error (.load (.unreadable (TextSource.file path).text e))
  | .ok absolute => .ok ((File.Path.parent absolute).getD "")

/-- Loads a main configuration, with its directory and its arguments, and runs it. -/
def launchMain (path : String) (arguments : List String) : Launching Unit := do
  let m ← get
  let directory ← directoryOf m.tree path
  let (id, m) := (m.withOwner baseDirectoryKey).issue
  set m
  let s := (Store.empty.put baseDirectoryKey (.object id (.file directory))).result.2
  let s ← putArguments arguments s
  runEntry runKey (← loadFile path s)

end TypedConfig.Run
