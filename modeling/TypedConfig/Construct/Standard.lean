import TypedConfig.Construct.Builtin.Collections
import TypedConfig.Construct.Builtin.Files
import TypedConfig.Construct.Builtin.Runnables
import TypedConfig.Construct.Builtin.System
import TypedConfig.Construct.Builtin.Texts
import TypedConfig.Construct.Engine

/-!
# The standard types

The blueprints that every registry holds, and the registry and the engine of configurations that
ask for nothing else. The libraries behind the types can be chosen.
-/

namespace TypedConfig.Construct

namespace Builtin

/-- All types that are built in, on top of some libraries. -/
def all (libraries : Libraries) : List Blueprint := [file, existingFile, nonExistingFile,
  forcedDirectory, filesInDirectory, path, stringArrayFromFile, resource, url libraries,
  socketAddress, timeZone libraries, hashMap, setBuilder, arrayToList, intersection, union,
  selectItem, drawSample libraries, stringSplitter libraries, joinStrings, modifyStringArray,
  environment libraries, os, shellExecutor, parallelRunnable]

end Builtin

/-- The types that are built in, with some short names. -/
def Registry.standard (libraries : Libraries) (shortcuts : Shortcuts) : Registry :=
  Registry.ofList (Builtin.all libraries) shortcuts

/-- Builds the standard types and checks their constraints. -/
def Engine.standard (libraries : Libraries := .own) : Engine :=
  ⟨Registry.standard libraries Shortcuts.builtin, Validator.constraints⟩

end TypedConfig.Construct
