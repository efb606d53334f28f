import TypedConfig.Load.Basic
import TypedConfig.Run.Error

/-!
# Running objects

A command is run as a process. A run for several items loads the configuration once for each item
before it runs anything: every load starts from a store that holds the item and the further
entries, and has to leave something to run. Then a pool runs all of them, whatever the others
return, in an order of its own.
-/

namespace TypedConfig.Run

/-- A run on a machine. -/
abbrev Running (α : Type) := ExceptT RunError (StateM Machine) α

/-- The key under which an object to run is looked for. -/
def runKey : String := "run"

/-- The object to run under a key. -/
def ofFound (key : String) : Option Value → Except LookupError (ObjectId × Content)
  | none => .error (.missing key)
  | some (.object id content) =>
    if content.isRunnable then .ok (id, content)
    else .error (.notRunnable key (Value.object id content).kind)
  | some v => .error (.notRunnable key v.kind)

/-- The object to run under a key of a store. -/
def runnable (key : String) (s : Store) : Logged (Except LookupError (ObjectId × Content)) := do
  return ofFound key (← s.get? key)

/-- Runs a command and prints its output. -/
def runCommand (command : ShellCommand) : Running Unit := do
  modify fun m => m.printLine (" => executing command '" ++ command.line ++ "'")
  let m ← get
  match start command m.tree with
  | .error cause => throw (.notStarted command.line cause)
  | .ok outcome =>
    let (m, complete) := printLines { m with tree := outcome.tree } (outputLines outcome.output)
    set m
    if complete then return else throw (.outputNotText command.line)

/-- The store from which the load for an item starts. -/
def itemStore (name : String) (extras : List (String × Value)) (item : Value) : Store :=
  ((Store.empty.put name item).result.2.putAll extras).result

/-- The object to run for an item. -/
def loadJob (path name : String) (extras : List (String × Value)) (item : Value) :
    Running Content := do
  let loaded := (itemStore name extras item).readFrom (← get) (.path path)
  set loaded.machine
  match loaded.result with
  | .error cause => throw (.notLoaded path name item.text cause)
  | .ok _ =>
    match (runnable runKey loaded.store).result with
    | .error cause => throw (.nothingToRun name item.text cause)
    | .ok (_, content) => return content

/-- The objects to run for several items; the first failure ends the loads. -/
def loadJobs (path name : String) (extras : List (String × Value)) :
    List Value → Running (List Content)
  | [] => return []
  | item :: items => do
    let job ← loadJob path name extras item
    return job :: (← loadJobs path name extras items)

/-- A pool of workers, as far as it can be seen: the order in which it takes up the jobs that it is
handed, each of them once. -/
structure Pool where
  order : (count : Nat) → List (Fin count)
  order_perm : ∀ count, (order count).Perm (List.finRange count)

/-- The pool that takes up jobs as they are handed to it. -/
def Pool.inOrder : Pool := ⟨List.finRange, fun _ => .refl _⟩

/-- Runs jobs in an order of their positions. What a job returns is kept with its position. -/
def runInOrder (run : Content → Running Unit) (jobs : List Content) :
    List (Fin jobs.length) → StateM Machine (List (Fin jobs.length × Except RunError Unit))
  | [] => return []
  | i :: order => do
    let result ← (run jobs[i]).run
    return (i, result) :: (← runInOrder run jobs order)

/-- Runs several objects, whatever they return. What they return is in the order of the objects. -/
def runJobs (pool : Pool) (run : Content → Running Unit) (jobs : List Content) :
    StateM Machine (List (Except RunError Unit)) := do
  let returned ← runInOrder run jobs (pool.order jobs.length)
  return (List.finRange jobs.length).filterMap (returned.lookup ·)

/-- The error that a run has returned. -/
def errorOf? : Except RunError Unit → Option RunError
  | .ok _ => none
  | .error e => some e

/-- Loads the jobs of all items, then runs all of them. -/
def runItems (pool : Pool) (run : Content → Running Unit) (path name : String) (items : List Value)
    (extras : List (String × Value)) : Running Unit := do
  let jobs ← loadJobs path name extras items
  let results ← (runJobs pool run jobs : StateM Machine (List (Except RunError Unit)))
  let errors := results.filterMap errorOf?
  if errors.isEmpty then return else throw (.failures jobs.length errors)

/-- Runs an object; runs within runs are bounded by the levels that are left. -/
def runContent (pool : Pool) : Nat → Content → Running Unit
  | 0, _ => throw .tooDeep
  | levels + 1, content =>
    match content with
    | .shell command => runCommand command
    | .parallel (some path) (some items) (some name) _ extras =>
      runItems pool (runContent pool levels) path name items extras
    | .parallel .. => throw .incomplete
    | other => throw (.notRunnable other.typeId)

/-- Runs may be nested this deeply. -/
def maxRunDepth : Nat := 1000

end TypedConfig.Run
