import TypedConfig.Construct.Standard
import TypedConfig.Load.Evaluate

/-!
# Loading

A source is parsed as a whole, then its statements run in order against the store. The first fault
ends the load, and what has run before it stays. An include loads another source into the same
store; the levels that are left bound how deeply includes can be nested, so every load ends.
-/

namespace TypedConfig

/-- A store that is being loaded into, and what the load leaves behind. -/
structure Loading where
  store : Store
  trail : Trail

/-- A step of a load. What a failed step has done stays. -/
abbrev Load (α : Type) := ExceptT LoadError (StateM Loading) α

/-- A step of a load that fails at a place of the text. -/
abbrev LoadStep (α : Type) := ExceptT Located (StateM Loading) α

namespace LoadStep

/-- Evaluates against the store as it is. -/
def evaluate {α : Type} (e : Store → Evaluation α) : LoadStep α := do
  let loading ← get
  let (result, trail) := ((e loading.store).run.run loading.trail : Except Located α × Trail)
  set { loading with trail := trail }
  match result with
  | .ok x => return x
  | .error located => throw located

/-- Evaluates for no key. What is built in passing is gone after the statement, so the identities
that it has taken are free again. -/
def evaluateInPassing {α : Type} (e : Store → Evaluation α) : LoadStep α := do
  let loading ← get
  let before := loading.trail.machine
  let (result, trail) :=
    ((e loading.store).run.run { loading.trail with machine := before.withOwner "" } :
      Except Located α × Trail)
  set { loading with trail := { trail with machine := trail.machine.identifyingAs before } }
  match result with
  | .ok x => return x
  | .error located => throw located

/-- Asks the store something. -/
def ask {α : Type} (question : Store → Logged α) : LoadStep α :=
  evaluate fun store => Evaluation.ofLogged (question store)

/-- Names the key for which objects are built. -/
def setOwner (key : String) : LoadStep Unit :=
  modify fun loading =>
    { loading with trail := { loading.trail with machine := loading.trail.machine.withOwner key } }

/-- Puts a value into the store. -/
def put (key : String) (value : Value) : LoadStep Unit :=
  modify fun loading =>
    let put := loading.store.put key value
    ⟨put.result.2, { loading.trail with events := loading.trail.events ++ put.events }⟩

end LoadStep

namespace Syntax

/-- The source that an include names: a text is the path of a file. -/
def sourceOf : Value → Except TextFault TextSource
  | .string path => .ok (.file path)
  | .object _ content =>
    match content.source? with
    | some source => .ok source
    | none => .error (.objectNotSource content.typeId)
  | v => .error (.notSource v.kind)

/-- Evaluates an expression and puts its value under a key. -/
def assign (engine : Construct.Engine) (key : Name) (e : Expr) : LoadStep Unit := do
  LoadStep.setOwner key.text
  LoadStep.put key.text (← LoadStep.evaluate fun store => e.evaluate engine store)

/-- Runs a statement; `load` loads an included source. -/
def Statement.run (engine : Construct.Engine) (load : TextSource → Load Unit) (s : Statement) :
    LoadStep Unit := do
  match s.action with
  | .set key e => assign engine key e
  | .default key e =>
    if ← LoadStep.ask (Store.contains key.text) then return else assign engine key e
  | .include e =>
    let v ← LoadStep.evaluateInPassing fun store => e.evaluate engine store
    match sourceOf v with
    | .error fault => throw ⟨e.span, fault⟩
    | .ok source =>
      ExceptT.adapt (fun error => (⟨s.span, .inclusion source error⟩ : Located)) (load source)

/-- Runs several statements in order. -/
def Statement.runAll (engine : Construct.Engine) (load : TextSource → Load Unit) :
    List Statement → LoadStep Unit
  | [] => return
  | s :: rest => do
    s.run engine load
    Statement.runAll engine load rest

end Syntax

namespace Load

/-- Runs the statements of a text. -/
def text (engine : Construct.Engine) (load : TextSource → Load Unit) (origin source : String) :
    Load Unit :=
  let locate (located : Located) : LoadError :=
    .inText origin (Syntax.positionOf source located.span) located.span located.fault
  match Syntax.parse source with
  | .error e => throw (locate ⟨e.span, .grammar e.fault⟩)
  | .ok program => ExceptT.adapt locate (Syntax.Statement.runAll engine load program)

/-- The text of a file; a failure names the source that it was asked for. -/
def fileText (tree : File.Tree) (path : String) (source : TextSource) : Except LoadError String :=
  (tree.text path).mapError (.unreadable source.text)

/-- The text of a page of the web. -/
def pageText (m : Machine) (url : String) (parsed : ParsedUrl) : Except LoadError String :=
  match m.web parsed.text with
  | .ok page => .ok page
  | .error (message, causes) => .error (.notFetched url (.unreachable message causes))

/-- The text behind a URL. -/
def urlText (m : Machine) (url : String) : Except LoadError String :=
  match m.libraries.url url with
  | .error cause => .error (.notFetched url (.notUrl cause))
  | .ok parsed =>
    if parsed.scheme = "file" then
      match parsed.filePath? with
      | none => .error (.notFetched url (.notLocal parsed.text))
      | some path => fileText m.tree path (.file path)
    else if parsed.scheme = "http" ∨ parsed.scheme = "https" then pageText m url parsed
    else .error (.notFetched url (.unsupported parsed.scheme))

/-- The text of a source. -/
def fetch (m : Machine) : TextSource → Except LoadError String
  | .file path => fileText m.tree path (.file path)
  | .resource name =>
    match m.roots.find? m.tree name with
    | none => .error (.resourceNotFound name)
    | some path => fileText m.tree path (.resource name)
  | .url url => urlText m url

/-- Loads a source on one of the levels that are left. -/
def source (engine : Construct.Engine) : Nat → TextSource → Load Unit
  | 0, _ => throw .tooDeep
  | levels + 1, s => do
    let fetched ← fetch (← get).trail.machine s
    text engine (source engine levels) s.text fetched

/-- The key under which the load of a file leaves the file. -/
def locationKey : String := "OPROPS_LOCATION"

/-- Leaves a file in the store. -/
def putLocation (path : String) : Load Unit := do
  let loading ← get
  let (id, machine) := (loading.trail.machine.withOwner locationKey).issue
  let put := loading.store.put locationKey (.object id (.file path))
  set (⟨put.result.2, ⟨machine, loading.trail.events ++ put.events⟩⟩ : Loading)

end Load

/-- Where a load begins. -/
inductive Entry where
  | text (source : String)
  | bytes (content : ByteArray)
  | resource (name : String)
  | path (file : String)
  | url (address : String)

namespace Entry

/-- An entry as an observed store reports it. -/
def origin : Entry → String
  | .text _ => "string"
  | .bytes _ => "stream"
  | .resource name => name
  | .path file => file
  | .url address => address

/-- Loads what an entry stands for. -/
def load (engine : Construct.Engine) : Entry → Load Unit
  | .text source => Load.text engine (Load.source engine maxIncludeDepth) "string" source
  | .bytes content =>
    match File.Tree.decode content with
    | .error e => throw (.unreadable "stream" e)
    | .ok source => Load.text engine (Load.source engine maxIncludeDepth) "stream" source
  | .resource name => Load.source engine (maxIncludeDepth + 1) (.resource name)
  | .path file => do
    Load.source engine (maxIncludeDepth + 1) (.file file)
    Load.putLocation file
  | .url address => Load.source engine (maxIncludeDepth + 1) (.url address)

end Entry

/-- What a load ends with. -/
structure Loaded where
  result : Except LoadError Unit
  store : Store
  machine : Machine
  events : List Event

namespace Store

/-- Loads an entry into a store. -/
def load (engine : Construct.Engine) (m : Machine) (entry : Entry) (s : Store) : Loaded :=
  let (result, loading) :=
    ((entry.load engine).run.run ⟨s, m, []⟩ : Except LoadError Unit × Loading)
  ⟨result, loading.store, loading.trail.machine, loading.trail.events⟩

/-- Loads an entry with the standard types; an observed store reports the load as one operation. -/
def readFrom (m : Machine) (entry : Entry) (s : Store) : Loaded :=
  let loaded := s.load (Construct.Engine.standard m.libraries) m entry
  match s with
  | .observed _ =>
    let operation := Operation.read entry.origin
    { loaded with events := .before operation :: loaded.events ++ [.after operation] }
  | _ => loaded

end Store

end TypedConfig
