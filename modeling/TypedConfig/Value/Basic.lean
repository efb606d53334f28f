import TypedConfig.Decimal.Notation
import TypedConfig.Kind

/-!
# Values

A value is a number, a truth value, a text, an array with the kind of its elements, or a
constructed object. An object carries an identity beside its content: two objects built apart
differ in it, and types without an equality of their own compare by it. The content of a map is
in the order of its keys.
-/

namespace TypedConfig

/-- The identity of a constructed object: the key under which it was built and a serial number
among the objects built there. -/
structure ObjectId where
  owner : String
  serial : Nat
  deriving DecidableEq, Repr, Inhabited

/-- A broken constraint of an object. -/
inductive Violation where
  | null (field : String)
  | empty (field : String)
  | below (field : String) (value least : Int)
  deriving DecidableEq, Repr

/-- A violation as it is reported. -/
def Violation.text : Violation → String
  | .null field => field ++ " may not be null"
  | .empty field => field ++ " may not be empty"
  | .below field value least =>
    field ++ " must be at least " ++ toString least ++ ", was " ++ toString value

/-- An object of a type that is not built in, as far as other parts see it. -/
structure CustomObject where
  typeId : String
  capabilities : List String
  display : String
  violations : List Violation
  deriving DecidableEq, Repr

/-- A command line with the directory that it runs in. -/
structure ShellCommand where
  program : String
  arguments : List String
  directory : Option String
  deriving DecidableEq, Repr

/-- A place that configuration text can be read from. -/
inductive TextSource where
  | file (path : String)
  | url (text : String)
  | resource (name : String)
  deriving DecidableEq, Repr

/-- A source as it is named in messages. -/
def TextSource.text : TextSource → String
  | .file path => "file '" ++ path ++ "'"
  | .url text => "url '" ++ text ++ "'"
  | .resource name => "resource '" ++ name ++ "'"

mutual

/-- A configuration value. -/
inductive Value where
  | int (n : Int32)
  | long (n : Int64)
  | float (x : Decimal.Single)
  | double (x : Decimal.Double)
  | bool (b : Bool)
  | string (s : String)
  | array (element : Kind) (items : List Value)
  | object (id : ObjectId) (content : Content)

/-- The content of an object, one form for each type of object. -/
inductive Content where
  | file (path : String)
  | resource (name : String)
  | url (text : String)
  | timeZone (zone : String)
  | socket (host : String) (port : Nat)
  | map (entries : List (String × Value))
  | list (items : List Value)
  | storeMarker
  | shell (command : ShellCommand)
  | parallel (config : Option String) (items : Option (List Value)) (itemName : Option String)
      (workers : Int32) (extras : List (String × Value))
  | custom (object : CustomObject)

end

instance : Inhabited Value := ⟨.bool false⟩

/-- The key that every store holds from its creation on, and that stands for the store itself. -/
def selfKey : String := "self"

namespace TypeId

def file := "omni.io.File"

def resource := "omni.io.Resource"

def url := "omni.net.Url"

def timeZone := "omni.time.TimeZone"

def socket := "omni.net.SocketAddress"

def map := "omni.collections.HashMap"

def list := "omni.collections.List"

def storeMarker := "omni.store.Self"

def shell := "omni.run.ShellExecutor"

def parallel := "omni.run.ParallelRunnable"

end TypeId

namespace Content

/-- The canonical id of an object's type. -/
def typeId : Content → String
  | .file _ => TypeId.file
  | .resource _ => TypeId.resource
  | .url _ => TypeId.url
  | .timeZone _ => TypeId.timeZone
  | .socket .. => TypeId.socket
  | .map _ => TypeId.map
  | .list _ => TypeId.list
  | .storeMarker => TypeId.storeMarker
  | .shell _ => TypeId.shell
  | .parallel .. => TypeId.parallel
  | .custom o => o.typeId

/-- The further tags that an object answers to. -/
def capabilities : Content → List String
  | .file _ => ["Source"]
  | .resource _ => ["Source"]
  | .url _ => ["Source"]
  | .map _ => ["Map"]
  | .list _ => ["List"]
  | .shell _ => ["Runnable"]
  | .parallel .. => ["Runnable"]
  | .custom o => o.capabilities
  | _ => []

/-- Whether an object is of the type `tag` or has it as a capability. -/
def isA (c : Content) (tag : String) : Bool :=
  c.typeId == tag || c.capabilities.contains tag

/-- The source that an object stands for in an include. -/
def source? : Content → Option TextSource
  | .file path => some (.file path)
  | .resource name => some (.resource name)
  | .url text => some (.url text)
  | _ => none

/-- Whether an object can be run. -/
def isRunnable : Content → Bool
  | .shell _ => true
  | .parallel .. => true
  | _ => false

/-- The constraints that an object breaks. -/
def violations : Content → List Violation
  | .shell command => if command.program = "" then [.empty "command"] else []
  | .parallel config items itemName workers _ =>
    (if config.isNone then [.null "runOprops"] else []) ++
      (if items.isNone then [.null "items"] else []) ++
      (if itemName.isNone then [.null "itemName"] else []) ++
      (if itemName = some "" then [.empty "itemName"] else []) ++
      (if workers.toInt < 1 then [.below "parallelity" workers.toInt 1] else [])
  | .custom o => o.violations
  | _ => []

end Content

/-- A command line as one text. -/
def ShellCommand.line (c : ShellCommand) : String :=
  " ".intercalate (c.program :: c.arguments)

namespace Value

/-- What a store holds under the key for itself. -/
def storeMarker : Value := .object ⟨selfKey, 0⟩ .storeMarker

/-- The kind of a value. -/
def kind : Value → Kind
  | .int _ => .int
  | .long _ => .long
  | .float _ => .float
  | .double _ => .double
  | .bool _ => .bool
  | .string _ => .string
  | .array element _ => .array element
  | .object _ content => .object content.typeId

/-- An array of texts. -/
def strings (items : List String) : Value := .array .string (items.map .string)

/-- An integer, widened to 64 bits. -/
def long? : Value → Option Int64
  | .int n => some n.toInt64
  | .long n => some n
  | _ => none

/-- A fraction, widened to 64 bits. -/
def double? : Value → Option Decimal.Double
  | .float x => some x.widen
  | .double x => some x
  | _ => none

/-- The text that a value is. -/
def string? : Value → Option String
  | .string s => some s
  | _ => none

/-- The items of an array whose declared kind is `String`, if all of them are texts. -/
def strings? : Value → Option (List String)
  | .array .string items => items.mapM string?
  | _ => none

/-- Whether an array is empty and its elements have no declared kind. -/
def isUntypedEmpty : Kind → List Value → Bool
  | .any, [] => true
  | _, _ => false

/-- Appends two arrays. The kinds of their elements have to be equal, except that an untyped empty
array takes the kind of the other one. -/
def appendArrays (k : Kind) (xs : List Value) (l : Kind) (ys : List Value) :
    Option (Kind × List Value) :=
  if k = l ∨ isUntypedEmpty l ys then some (k, xs ++ ys)
  else if isUntypedEmpty k xs then some (l, xs ++ ys)
  else none

end Value

mutual

/-- A value as a text. -/
def Value.text : Value → String
  | .int n => toString n.toInt
  | .long n => toString n.toInt
  | .float x => x.text
  | .double x => x.text
  | .bool b => if b then "true" else "false"
  | .string s => s
  | .array _ items => "[" ++ ", ".intercalate (Value.texts items) ++ "]"
  | .object _ content => content.text

/-- The texts of several values. -/
def Value.texts : List Value → List String
  | [] => []
  | v :: vs => v.text :: Value.texts vs

/-- The entries of a map with an equals sign between key and value. -/
def Value.entryTexts : List (String × Value) → List String
  | [] => []
  | (key, v) :: rest => (key ++ "=" ++ v.text) :: Value.entryTexts rest

/-- An object as a text. -/
def Content.text : Content → String
  | .file path => path
  | .resource name => "resource:" ++ name
  | .url text => text
  | .timeZone zone => zone
  | .socket host port => host ++ ":" ++ toString port
  | .map entries => "\x7b" ++ ", ".intercalate (Value.entryTexts entries) ++ "\x7d"
  | .list items => "[" ++ ", ".intercalate (Value.texts items) ++ "]"
  | .storeMarker => "self"
  | .shell command => "ShellExecutor(" ++ command.line ++ ")"
  | .parallel config _ _ workers _ =>
    "ParallelRunnable(" ++ config.getD "" ++ ", parallelity=" ++ toString workers.toInt ++ ")"
  | .custom o => o.display

end

mutual

/-- The constraints that a value breaks: those of an object, and for an array those of its
elements. -/
def Value.violations : Value → List Violation
  | .object _ content => content.violations
  | .array _ items => Value.violationsOfAll items
  | _ => []

/-- The constraints that any of some values break. -/
def Value.violationsOfAll : List Value → List Violation
  | [] => []
  | v :: vs => v.violations ++ Value.violationsOfAll vs

end

end TypedConfig
