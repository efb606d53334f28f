import TypedConfig.Machine
import TypedConfig.Run.Shell
import TypedConfig.Text.Blank

/-!
# Processes

A command line is announced, started in its directory, and its output is printed line by line. A
program is found by its name or by a path to one of the directories of programs. Its exit status
does not matter.
-/

namespace TypedConfig.Run

/-- Why a command cannot be started. -/
inductive StartError where
  | file (cause : File.FileError)
  | denied
  | nulByte
  deriving DecidableEq, Repr

/-- The message of a process that cannot be started. -/
def StartError.message : StartError → String
  | .file cause => cause.message
  | .denied => "Permission denied (os error 13)"
  | .nulByte => "nul byte found in provided data"

/-- Whether a text holds the character that ends texts for the system. -/
def hasNul (s : String) : Bool := s.toList.contains (Char.ofNat 0)

/-- The tree with another working directory. -/
def enter (tree : File.Tree) (path : String) : Except StartError File.Tree :=
  match tree.resolve path with
  | .error e => .error (.file e)
  | .ok names =>
    if tree.isDirectory path then .ok { tree with working := names }
    else .error (.file .notDirectory)

/-- The directories that hold programs. -/
def programDirectories : List String := ["/bin/", "/usr/bin/"]

/-- The program with a name, the shell among them. -/
def installed? (name : String) : Option Program :=
  if name = "sh" ∨ name = "bash" then some Shell.program else Program.named? name

/-- The program that a text names. -/
def findProgram (tree : File.Tree) (name : String) : Except StartError Program :=
  match installed? name with
  | some program => .ok program
  | none =>
    let places := programDirectories.filter fun place => place.toList.isPrefixOf name.toList
    let base (place : String) : String := String.ofList (name.toList.drop place.length)
    match places.findSome? fun place => installed? (base place) with
    | some program => .ok program
    | none =>
      if !name.toList.contains '/' then .error (.file .notFound)
      else
        match tree.node name with
        | .ok _ => .error .denied
        | .error e => .error (.file e)

/-- Runs a command in its directory. -/
def start (command : ShellCommand) (tree : File.Tree) : Except StartError Outcome := do
  if (command.program :: command.directory.toList ++ command.arguments).any hasNul then
    throw .nulByte
  let inside ← match command.directory with
    | none => pure tree
    | some path => enter tree path
  let program ← findProgram inside command.program
  let outcome := program command.arguments inside
  return { outcome with tree := { outcome.tree with working := tree.working } }

/-- The lines of an output without their line breaks. -/
def outputLines : List UInt8 → List (List UInt8)
  | [] => []
  | 10 :: bs => [] :: outputLines bs
  | 13 :: 10 :: bs => [] :: outputLines bs
  | b :: bs =>
    match outputLines bs with
    | [] => [[b]]
    | line :: lines => (b :: line) :: lines

/-- Prints lines up to the first one that is no text; whether all of them are. -/
def printLines (m : Machine) : List (List UInt8) → Machine × Bool
  | [] => (m, true)
  | line :: lines =>
    match File.Tree.decode line.toByteArray with
    | .ok text => printLines (m.printLine text) lines
    | .error _ => (m, false)

end TypedConfig.Run
