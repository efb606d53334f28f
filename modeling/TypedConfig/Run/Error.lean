import TypedConfig.Load.Error
import TypedConfig.Run.Process

/-!
# Run errors

Why nothing can be run, and why a run fails. A run for several items collects the failures of all
of them.
-/

namespace TypedConfig.Run

/-- Why there is nothing to run under a key. -/
inductive LookupError where
  | missing (key : String)
  | notRunnable (key : String) (kind : Kind)
  deriving DecidableEq, Repr

/-- The message of a key without a runnable object. -/
def LookupError.message : LookupError → String
  | .missing key => "no runnable object under '" ++ key ++ "'"
  | .notRunnable key kind => "'" ++ key ++ "' holds a " ++ kind.text ++ ", which is not runnable"

/-- Why a run fails. -/
inductive RunError where
  | notStarted (line : String) (cause : StartError)
  | outputNotText (line : String)
  | incomplete
  | notLoaded (path name item : String) (cause : LoadError)
  | nothingToRun (name item : String) (cause : LookupError)
  | failures (total : Nat) (errors : List RunError)
  | notRunnable (type : String)
  | tooDeep

/-- The message of a run that fails. -/
def RunError.message : RunError → String
  | .notStarted line _ => "cannot execute '" ++ line ++ "'"
  | .outputNotText line => "cannot read output of '" ++ line ++ "'"
  | .incomplete => "runOprops, items, and itemName must be set"
  | .notLoaded path name item _ => "cannot load '" ++ path ++ "' for " ++ name ++ "=" ++ item
  | .nothingToRun name item _ => "nothing to run for " ++ name ++ "=" ++ item
  | .failures total errors => toString errors.length ++ " of " ++ toString total ++ " runs failed"
  | .notRunnable type => type ++ " is not runnable"
  | .tooDeep => "runs nested too deeply"

/-- The messages of the failures behind a run error, outermost first. -/
def RunError.causes : RunError → List String
  | .notStarted _ cause => [cause.message]
  | .outputNotText _ => [File.FileError.notText.message]
  | .notLoaded _ _ _ cause => cause.message :: cause.causes
  | .nothingToRun _ _ cause => [cause.message]
  | .failures _ errors => [Construct.CollectedErrors.message ⟨errors.map RunError.message⟩]
  | _ => []

/-- Why a configuration cannot be launched. -/
inductive LaunchError where
  | load (error : LoadError)
  | lookup (error : LookupError)
  | run (error : RunError)
  | invalidArgument (argument : String)

/-- The message of a launch that fails. -/
def LaunchError.message : LaunchError → String
  | .load error => error.message
  | .lookup error => error.message
  | .run _ => "run failed"
  | .invalidArgument argument =>
    "arguments must be given as KEY=VALUE, got '" ++ argument ++ "'"

/-- The messages of the failures behind a launch error, outermost first. -/
def LaunchError.causes : LaunchError → List String
  | .load error => error.causes
  | .run error => error.message :: error.causes
  | _ => []

end TypedConfig.Run
