import TypedConfig.Construct.Error
import TypedConfig.Syntax.Parser

/-!
# Load errors

Why a source cannot be loaded: it cannot be fetched, it is nested too deeply, or there is a fault
at a place of its text. A fault in a text may have a cause of its own: a failed construction, or
the failed load of an included source.
-/

namespace TypedConfig

/-- Includes may be nested this deeply. -/
def maxIncludeDepth : Nat := 64

/-- Why the text behind a URL cannot be fetched. -/
inductive FetchFault where
  | notUrl (cause : String)
  | notLocal (url : String)
  | unsupported (scheme : String)
  | unreachable (message : String) (causes : List String)
  deriving Repr

/-- The message of a text that cannot be fetched. -/
def FetchFault.message : FetchFault → String
  | .notUrl cause => cause
  | .notLocal url => "'" ++ url ++ "' is not a local path"
  | .unsupported scheme => "unsupported url scheme '" ++ scheme ++ "'"
  | .unreachable message _ => message

/-- The messages of the failures behind that of the web, outermost first. -/
def FetchFault.causes : FetchFault → List String
  | .unreachable _ causes => causes
  | _ => []

mutual

/-- Why a source cannot be loaded. -/
inductive LoadError where
  | inText (origin : String) (position : Source.Position) (span : Source.Span) (fault : TextFault)
  | unreadable (origin : String) (cause : File.FileError)
  | resourceNotFound (name : String)
  | notFetched (url : String) (fault : FetchFault)
  | tooDeep

/-- What is wrong at a place of a text. -/
inductive TextFault where
  | grammar (fault : Syntax.Fault)
  | undefined (name : String)
  | notJoined (left right : Kind)
  | notAppended (left right : Kind)
  | misfit (given wanted : Kind)
  | mixed (given element : Kind)
  | construction (error : Construct.ConstructError)
  | objectNotSource (type : String)
  | notSource (kind : Kind)
  | inclusion (source : TextSource) (error : LoadError)

end

/-- The message of a fault in a text. -/
def TextFault.message : TextFault → String
  | .grammar fault => fault.message
  | .undefined name => "variable '" ++ name ++ "' is not defined"
  | .notJoined left right => "cannot concatenate " ++ left.text ++ " and " ++ right.text
  | .notAppended left right =>
    "cannot concatenate " ++ left.text ++ "[] and " ++ right.text ++ "[] arrays"
  | .misfit given wanted =>
    "element of kind " ++ given.text ++ " does not fit a " ++ wanted.text ++ " array"
  | .mixed given element =>
    "mixed array: element of kind " ++ given.text ++ " in a " ++ element.text ++ " array"
  | .construction error => error.message
  | .objectNotSource type => "cannot include a value of type " ++ type
  | .notSource kind => "cannot include a value of kind " ++ kind.text
  | .inclusion source _ => "cannot include " ++ source.text

/-- The message of a load that fails. -/
def LoadError.message : LoadError → String
  | .inText origin position _ fault =>
    "Error in " ++ origin ++ ": " ++ Syntax.locatedMessage position fault.message
  | .unreadable origin _ => "cannot read " ++ origin
  | .resourceNotFound name => "resource '" ++ name ++ "' not found"
  | .notFetched url _ => "cannot fetch '" ++ url ++ "'"
  | .tooDeep => "includes nested deeper than " ++ toString maxIncludeDepth ++ " levels"

mutual

/-- The messages of the failures behind a load error, outermost first. -/
def LoadError.causes : LoadError → List String
  | .inText _ position _ fault => Syntax.locatedMessage position fault.message :: fault.causes
  | .unreadable _ cause => [cause.message]
  | .notFetched _ fault => fault.message :: fault.causes
  | _ => []

/-- The messages of the failures behind a fault, outermost first. -/
def TextFault.causes : TextFault → List String
  | .construction error => error.message :: error.causes
  | .inclusion _ error => error.message :: error.causes
  | _ => []

end

end TypedConfig
