import TypedConfig.File.Path

/-!
# File trees

A file tree holds the files and directories that a configuration can reach. Paths are followed
segment by segment from the root or from a working directory: two dots lead to the directory
above, and every segment but the last has to name a directory.
-/

namespace TypedConfig.File

/-- A file with its bytes, or a directory with named entries. -/
inductive Node where
  | file (content : ByteArray)
  | directory (entries : List (String × Node))

instance : Inhabited Node := ⟨.directory []⟩

/-- Why a path cannot be used. -/
inductive FileError where
  | notFound
  | notDirectory
  | isDirectory
  | exists
  | notText
  | emptyPath
  | nulByte
  deriving DecidableEq, Repr

/-- The message of a failed file operation. -/
def FileError.message : FileError → String
  | .notFound => "No such file or directory (os error 2)"
  | .notDirectory => "Not a directory (os error 20)"
  | .isDirectory => "Is a directory (os error 21)"
  | .exists => "File exists (os error 17)"
  | .notText => "stream did not contain valid UTF-8"
  | .emptyPath => "cannot make an empty path absolute"
  | .nulByte => "file name contained an unexpected NUL byte"

namespace Node

/-- The entry of a directory with a given name. -/
def entry? (name : String) : List (String × Node) → Option Node
  | [] => none
  | (n, node) :: rest => if n = name then some node else entry? name rest

/-- Replaces the entry with a given name, or adds it at the end. -/
def setEntry (name : String) (node : Node) : List (String × Node) → List (String × Node)
  | [] => [(name, node)]
  | (n, old) :: rest =>
    if n = name then (name, node) :: rest else (n, old) :: setEntry name node rest

/-- The node that a list of names leads to. -/
def at? : Node → List String → Option Node
  | node, [] => some node
  | .file _, _ :: _ => none
  | .directory entries, name :: names =>
    match entry? name entries with
    | some node => node.at? names
    | none => none

/-- Puts a node at the end of a list of names; a list that leads through a file or through a
missing directory changes nothing. -/
def put (new : Node) : Node → List String → Node
  | _, [] => new
  | .file content, _ :: _ => .file content
  | .directory entries, [name] => .directory (setEntry name new entries)
  | .directory entries, name :: names =>
    match entry? name entries with
    | some node => .directory (setEntry name (put new node names) entries)
    | none => .directory entries

def isDirectory : Node → Bool
  | .directory _ => true
  | .file _ => false

end Node

/-- A file tree and the names that lead to its working directory. -/
structure Tree where
  root : Node
  working : List String

namespace Tree

/-- Follows the segments of a path from a list of names. -/
def follow (root : Node) : List String → List String → Except FileError (List String)
  | names, [] => .ok names
  | names, segment :: rest =>
    match root.at? names with
    | none => .error .notFound
    | some (.file _) => .error .notDirectory
    | some (.directory entries) =>
      if segment = "" ∨ segment = "." then follow root names rest
      else if segment = ".." then follow root names.dropLast rest
      else if (Node.entry? segment entries).isSome then follow root (names ++ [segment]) rest
      else .error .notFound

/-- The names that a path leads to. -/
def resolve (t : Tree) (path : String) : Except FileError (List String) :=
  if path.toList.contains (Char.ofNat 0) then .error .nulByte
  else if path = "" then .error .notFound
  else follow t.root (if Path.isAbsolute path then [] else t.working) (Path.segments path)

/-- The node that a path leads to. -/
def node (t : Tree) (path : String) : Except FileError Node := do
  let names ← t.resolve path
  match t.root.at? names with
  | some node => .ok node
  | none => .error .notFound

/-- Whether a path leads to something. -/
def holds (t : Tree) (path : String) : Bool :=
  (t.node path).toOption.isSome

def isFile (t : Tree) (path : String) : Bool :=
  match t.node path with
  | .ok (.file _) => true
  | _ => false

def isDirectory (t : Tree) (path : String) : Bool :=
  match t.node path with
  | .ok (.directory _) => true
  | _ => false

/-- The absolute path, without dots and double dots, of what a path leads to. -/
def canonical (t : Tree) (path : String) : Except FileError String :=
  (t.resolve path).map Path.ofNames

/-- The bytes of a file. -/
def bytes (t : Tree) (path : String) : Except FileError ByteArray := do
  match ← t.node path with
  | .file content => .ok content
  | .directory _ => .error .isDirectory

/-- The text that bytes encode. -/
def decode (content : ByteArray) : Except FileError String :=
  match String.fromUTF8? content with
  | some text => .ok text
  | none => .error .notText

/-- The text of a file. -/
def text (t : Tree) (path : String) : Except FileError String := do
  decode (← t.bytes path)

/-- The names in a directory, in the order of their characters. -/
def names (t : Tree) (path : String) : Except FileError (List String) := do
  match ← t.node path with
  | .file _ => .error .notDirectory
  | .directory entries => .ok ((entries.map (·.1)).mergeSort fun a b => decide (a ≤ b))

/-- The path as an absolute one. -/
def absolute (t : Tree) (path : String) : Except FileError String :=
  if path = "" then .error .emptyPath
  else .ok (Path.absolute (Path.ofNames t.working) path)

/-- The names of the directory that is to hold the last segment of a path, and that segment. -/
def place (t : Tree) (path : String) : Except FileError (List String × String) :=
  let segments := (Path.segments path).reverse.dropWhile (· == "")
  match segments with
  | [] => if path = "" then .error .notFound else .error .exists
  | last :: before => do
    let start := if Path.isAbsolute path then [] else t.working
    let names ← follow t.root start (before.reverse ++ [""])
    if last = "." ∨ last = ".." then .error .exists else .ok (names, last)

/-- Creates one directory. -/
def makeDirectory (t : Tree) (path : String) : Except FileError Tree := do
  if path.toList.contains (Char.ofNat 0) then .error .nulByte
  let (names, last) ← t.place path
  if (t.root.at? (names ++ [last])).isSome then .error .exists
  else .ok { t with root := Node.put (.directory []) t.root (names ++ [last]) }

/-- Creates one directory, or leaves it as it is if it is there already. -/
def ensureDirectory (t : Tree) (path : String) : Except FileError Tree :=
  match t.makeDirectory path with
  | .ok made => .ok made
  | .error e => if t.isDirectory path then .ok t else .error e

/-- Creates the directory that a path names and the missing ones above it. The number bounds the
directories above; what has been created stays when a later step fails. -/
def makeDirectories : Nat → Tree → String → Tree × Option FileError
  | 0, t, _ => (t, none)
  | levels + 1, t, path =>
    if path = "" then (t, none)
    else
      match t.ensureDirectory path with
      | .ok made => (made, none)
      | .error .notFound =>
        match Path.parent path with
        | none => (t, some .notFound)
        | some parent =>
          match makeDirectories levels t parent with
          | (made, some e) => (made, some e)
          | (made, none) =>
            match made.ensureDirectory path with
            | .ok made' => (made', none)
            | .error e => (made, some e)
      | .error e => (t, some e)

/-- Creates a directory and the missing ones above it. -/
def forceDirectory (t : Tree) (path : String) : Tree × Option FileError :=
  makeDirectories (path.length + 1) t path

/-- Writes a file into a directory that is there. -/
def write (t : Tree) (path : String) (content : ByteArray) : Except FileError Tree := do
  let (names, last) ← t.place path
  match t.root.at? (names ++ [last]) with
  | some (.directory _) => .error .isDirectory
  | _ => .ok { t with root := Node.put (.file content) t.root (names ++ [last]) }

end Tree

end TypedConfig.File
