import TypedConfig.Construct.Blueprint
import TypedConfig.Text.Blank

/-!
# File types

Paths as values, builders that check the file tree or make directories in it, builders that read
names or lines from it, and named resources.
-/

namespace TypedConfig.Construct.Builtin

/-- The kind of file objects. -/
def fileKind : Kind := .object TypeId.file

/-- A path, a file object with a path below it, or two paths that are joined. -/
def pathFactories : List (Factory String) := [
  ⟨[.string], Arguments.string⟩,
  ⟨[fileKind, .string], do
    let parent ← Arguments.file
    return File.Path.join parent (← Arguments.string)⟩,
  ⟨[.string, .string], do
    let parent ← Arguments.string
    return File.Path.join parent (← Arguments.string)⟩]

/-- The same, or the path of a file object alone. -/
def pathOrFileFactories : List (Factory String) :=
  pathFactories ++ [⟨[fileKind], Arguments.file⟩]

/-- A path. -/
def file : Blueprint where
  typeId := TypeId.file
  State := String
  factories := pathFactories
  finish path := Build.object (.file path)

/-- The file object with the canonical form of a path. -/
def canonicalFile (type path : String) : Build Value := do
  match (← get).tree.canonical path with
  | .ok canonical => Build.object (.file canonical)
  | .error e => Build.fail type (.unresolved path e)

/-- The canonical path of a file that has to be there. -/
def existingFile : Blueprint where
  typeId := "omni.io.ExistingFile"
  State := String
  factories := pathOrFileFactories
  finish path := do
    if (← get).tree.holds path then canonicalFile "omni.io.ExistingFile" path
    else Build.fail "omni.io.ExistingFile" (.fileMissing path)

/-- The absolute path of a file that may not be there. -/
def nonExistingFile : Blueprint where
  typeId := "omni.io.NonExistingFile"
  State := String
  factories := pathOrFileFactories
  finish path := do
    let tree := (← get).tree
    if tree.holds path then Build.fail "omni.io.NonExistingFile" (.fileExists path)
    else
      match tree.absolute path with
      | .ok absolute => Build.object (.file absolute)
      | .error e => Build.fail "omni.io.NonExistingFile" (.notAbsolute e)

/-- Makes a directory and the ones above it unless the path leads to something. -/
def forceDirectory (path : String) : Build Unit := do
  let m ← get
  if m.tree.holds path then return
  let (tree, failure) := m.tree.forceDirectory path
  set { m with tree := tree }
  match failure with
  | none => return
  | some e => Build.fail "omni.io.ForcedDirectory" (.notCreated path e)

/-- The canonical path of a directory, which is made if it is missing. -/
def forcedDirectory : Blueprint where
  typeId := "omni.io.ForcedDirectory"
  State := String
  factories := pathFactories
  finish path := do
    forceDirectory path
    if (← get).tree.isDirectory path then canonicalFile "omni.io.ForcedDirectory" path
    else Build.fail "omni.io.ForcedDirectory" (.notDirectory path)

/-- A directory, and the end that the names of its files have to have. -/
structure NameFilter where
  directory : String
  suffix : String

/-- File objects for several paths, one after the other. -/
def fileObjects : List String → Build (List Value)
  | [] => return []
  | path :: paths => do
    let v ← Build.object (.file path)
    return v :: (← fileObjects paths)

/-- The files of a directory whose names have a given end, in the order of their names. -/
def filesInDirectory : Blueprint where
  typeId := "omni.io.FilesInDir"
  State := NameFilter
  factories := pathOrFileFactories.map fun f =>
    ⟨f.parameters, do return ⟨← f.create, ""⟩⟩
  setters := [⟨"suffix", .string⟩]
  inject target v state :=
    match target, v with
    | _, .string suffix => .ok { state with suffix := suffix }
    | _, v => .error (.unusable v.kind)
  finish state := do
    let tree := (← get).tree
    if !tree.holds state.directory then
      Build.fail "omni.io.FilesInDir" (.directoryMissing state.directory)
    else if !tree.isDirectory state.directory then
      Build.fail "omni.io.FilesInDir" (.notDirectory state.directory)
    else
      match tree.names state.directory with
      | .error e => Build.fail "omni.io.FilesInDir" (.notListed state.directory e)
      | .ok names =>
        let kept := names.filter fun name => state.suffix.toList.isSuffixOf name.toList
        let files ← fileObjects (kept.map (File.Path.join state.directory ·))
        return .array fileKind files

/-- A path from one text or from several parts. -/
def path : Blueprint where
  typeId := "omni.io.Path"
  State := String
  factories := [
    ⟨[.string], Arguments.string⟩,
    ⟨[.array .string], do return File.Path.joinAll (← Arguments.strings)⟩]
  finish path := Build.object (.file path)

/-- The path of a file object. -/
def filePath? : Value → Option String
  | .object _ (.file path) => some path
  | _ => none

/-- The lines of several files. -/
def linesOfFiles (tree : File.Tree) : List String → Except Fault (List String)
  | [] => .ok []
  | path :: paths =>
    match tree.text path with
    | .error e => .error (.unreadable path e)
    | .ok text => do
      let rest ← linesOfFiles tree paths
      return (Text.lines text.toList).map String.ofList ++ rest

/-- The lines of one or more files. -/
def stringArrayFromFile : Blueprint where
  typeId := "omni.io.StringArrayFromFile"
  State := List String
  factories := [
    ⟨[fileKind], do return [← Arguments.file]⟩,
    ⟨[.string], do return [← Arguments.string]⟩,
    ⟨[.array fileKind], do return (← Arguments.array).2.filterMap filePath?⟩]
  finish paths := do
    match linesOfFiles (← get).tree paths with
    | .ok lines => return Value.strings lines
    | .error fault => Build.fail "omni.io.StringArrayFromFile" fault

/-- A named resource. -/
def resource : Blueprint where
  typeId := TypeId.resource
  State := String
  factories := [⟨[.string], Arguments.string⟩]
  finish name := Build.object (.resource name)

end TypedConfig.Construct.Builtin
