import TypedConfig.Command.Invocation

/-!
# The program

Reads the files below the working directory, runs a command on them, prints what it has printed,
and makes the files and directories that it has made.
-/

namespace TypedConfig.Main

/-- The node for an entry of a directory, with everything below it. -/
partial def nodeOf (entry : IO.FS.DirEntry) : IO (String × File.Node) := do
  if ← entry.path.isDir then
    let below ← (← entry.path.readDir).toList.mapM nodeOf
    return (entry.fileName, .directory below)
  else return (entry.fileName, .file (← IO.FS.readBinFile entry.path))

/-- The file tree with the working directory. -/
def readTree : IO File.Tree := do
  let working ← IO.currentDir
  let entries ← (← working.readDir).toList.mapM nodeOf
  let names := (File.Path.segments working.toString).filter (· != "")
  let root := names.foldr (fun name node => .directory [(name, node)]) (.directory entries)
  return ⟨root, names⟩

/-- Makes what a new node has and an old one lacks. -/
partial def writeNode (path : String) : Option File.Node → File.Node → IO Unit
  | none, .file content => IO.FS.writeBinFile path content
  | some _, .file _ => return
  | old, .directory entries => do
    if old.isNone then IO.FS.createDir path
    let before := match old with
      | some (.directory before) => before
      | _ => []
    for (name, node) in entries do
      writeNode (path ++ "/" ++ name) (File.Node.entry? name before) node

/-- The directories in which resources are looked for. -/
def readRoots : IO File.ResourceRoots := do
  match ← IO.getEnv "OMNI_RESOURCE_PATH" with
  | none => return File.ResourceRoots.standard
  | some paths => return (Text.splitOn (· == ':') paths.toList).map String.ofList

end TypedConfig.Main

/-- Runs the program. -/
def main (arguments : List String) : IO UInt32 := do
  let tree ← TypedConfig.Main.readTree
  let roots ← TypedConfig.Main.readRoots
  let machine := { TypedConfig.Machine.start tree [] with roots := roots }
  let ended := TypedConfig.Command.perform arguments machine
  match tree.root.at? tree.working, ended.machine.tree.root.at? tree.working with
  | some old, some new => TypedConfig.Main.writeNode "." (some old) new
  | _, _ => pure ()
  IO.print ended.machine.printed
  IO.eprint (String.join (ended.reports.map TypedConfig.Command.Report.text))
  return ended.code.toUInt32
