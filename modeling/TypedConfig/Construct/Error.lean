import TypedConfig.File.Tree
import TypedConfig.Value.Basic

/-!
# Construction errors

Why a construction fails: the type is not known, no factory or more than one accepts the
arguments, a named argument fits no slot, the built value breaks constraints, or the type itself
refuses. Every error has a message, and some have a cause with a message of its own.
-/

namespace TypedConfig.Construct

/-- Why a type cannot create its value. -/
inductive Fault where
  | argumentMissing
  | argumentKind (kind : Kind)
  | argumentsNotCoerced
  | fileMissing (path : String)
  | fileExists (path : String)
  | unresolved (path : String) (cause : File.FileError)
  | notAbsolute (cause : File.FileError)
  | notCreated (path : String) (cause : File.FileError)
  | notDirectory (path : String)
  | directoryMissing (path : String)
  | notListed (path : String) (cause : File.FileError)
  | unreadable (path : String) (cause : File.FileError)
  | notUrl (text cause : String)
  | portOutOfRange (port : Int)
  | notTimeZone (id : String)
  | noArrays
  | itemNotArray (index : Nat)
  | indexOutOfBounds (index : Int) (length : Nat)
  | sampleTooLarge (size : Int) (length : Nat)
  | badDelimiter (pattern cause : String)
  | badFilter (pattern cause : String)
  | listNotStrings
  | custom (message : String) (cause : Option String)
  deriving Repr

/-- What a type says about its failure. -/
def Fault.message : Fault → String
  | .argumentMissing => "factory read more arguments than given"
  | .argumentKind kind => "factory cannot use an argument of kind " ++ kind.text
  | .argumentsNotCoerced => "argument coercion failed"
  | .fileMissing path => "file '" ++ path ++ "' does not exist"
  | .fileExists path => "file '" ++ path ++ "' already exists"
  | .unresolved path _ => "cannot resolve '" ++ path ++ "'"
  | .notAbsolute _ => "cannot make path absolute"
  | .notCreated path _ => "unable to create '" ++ path ++ "'"
  | .notDirectory path => "'" ++ path ++ "' is not a directory"
  | .directoryMissing path => "directory '" ++ path ++ "' does not exist"
  | .notListed path _ => "cannot list '" ++ path ++ "'"
  | .unreadable path _ => "cannot read '" ++ path ++ "'"
  | .notUrl text _ => "'" ++ text ++ "' is not a valid url"
  | .portOutOfRange port => "port out of range: " ++ toString port
  | .notTimeZone id => "'" ++ id ++ "' is not a valid timezone id"
  | .noArrays => "no arrays given"
  | .itemNotArray index => "item " ++ toString index ++ " is not an array"
  | .indexOutOfBounds index length =>
    "index " ++ toString index ++ " out of bounds for array of length " ++ toString length
  | .sampleTooLarge size length =>
    "cannot draw " ++ toString size ++ " items from an array of length " ++ toString length
  | .badDelimiter pattern _ => "invalid delimiter pattern '" ++ pattern ++ "'"
  | .badFilter pattern _ => "invalid filter '" ++ pattern ++ "'"
  | .listNotStrings => "list items must be strings"
  | .custom message _ => message

/-- The message of the failure behind a fault. -/
def Fault.cause? : Fault → Option String
  | .unresolved _ e => some e.message
  | .notAbsolute e => some e.message
  | .notCreated _ e => some e.message
  | .notListed _ e => some e.message
  | .unreadable _ e => some e.message
  | .notUrl _ cause => some cause
  | .badDelimiter _ cause => some cause
  | .badFilter _ cause => some cause
  | .custom _ cause => cause
  | _ => none

/-- Why a named argument fits no slot. -/
inductive InjectionFault where
  | fieldKind (wanted given : Kind)
  | noSlot
  | unusable (kind : Kind)
  | notInjectable
  deriving DecidableEq, Repr

/-- The message of a fault of the injection. -/
def InjectionFault.message : InjectionFault → String
  | .fieldKind wanted given => "field expects " ++ wanted.text ++ ", got " ++ given.text
  | .noSlot => "no matching setter, field, or put method"
  | .unusable kind => "unexpected value of kind " ++ kind.text
  | .notInjectable => "no injectable slot"

/-- The constraints that a value breaks. -/
structure ValidationError where
  subject : String
  violations : List Violation
  deriving DecidableEq, Repr

/-- The message of a value that breaks constraints. -/
def ValidationError.message (e : ValidationError) : String :=
  e.subject ++ " failed validation: " ++ "; ".intercalate (e.violations.map Violation.text)

/-- Why a construction fails. -/
inductive ConstructError where
  | typeNotFound (id : String)
  | noFactory (type : String) (given : List Kind)
  | ambiguous (type : String) (given : List Kind) (count : Nat)
  | injection (type key : String) (fault : InjectionFault)
  | validation (error : ValidationError)
  | instantiation (type : String) (fault : Fault)
  deriving Repr

/-- Kinds with commas between them. -/
def kindsText (kinds : List Kind) : String := ", ".intercalate (kinds.map Kind.text)

namespace ConstructError

/-- The message of an error. -/
def message : ConstructError → String
  | .typeNotFound id => "type '" ++ id ++ "' is not registered"
  | .noFactory type given => "no factory of '" ++ type ++ "' accepts (" ++ kindsText given ++ ")"
  | .ambiguous type given count =>
    toString count ++ " factories of '" ++ type ++ "' accept (" ++ kindsText given ++ ")"
  | .injection type key fault =>
    "argument '" ++ key ++ "' could not be injected into '" ++ type ++ "': " ++ fault.message
  | .validation error => error.message
  | .instantiation type fault => "cannot create '" ++ type ++ "': " ++ fault.message

/-- The messages of the failures behind an error, outermost first. -/
def causes : ConstructError → List String
  | .instantiation _ fault => fault.cause?.toList
  | _ => []

end ConstructError

/-- Several failures that are reported together. -/
structure CollectedErrors where
  messages : List String
  deriving DecidableEq, Repr

/-- One failure speaks for itself, several are numbered. -/
def CollectedErrors.message (e : CollectedErrors) : String :=
  match e.messages with
  | [single] => single
  | several =>
    toString several.length ++ " errors occurred:" ++
      String.join (several.zipIdx.map fun (m, i) => "\n  " ++ toString (i + 1) ++ ": " ++ m)

end TypedConfig.Construct
