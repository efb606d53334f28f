import TypedConfig.File.Tree

/-!
# Resources

A resource is a file that is looked for under an ordered list of directories. Earlier directories
win.
-/

namespace TypedConfig.File

/-- The directories in which resources are looked for. -/
abbrev ResourceRoots := List String

namespace ResourceRoots

/-- The working directory and the directory of resources in it. -/
def standard : ResourceRoots := [".", "resources"]

/-- Every file of that name, in the order of the directories. -/
def findAll (roots : ResourceRoots) (tree : Tree) (name : String) : List String :=
  (roots.map fun root => Path.join root name).filter tree.isFile

/-- The first file of that name. -/
def find? (roots : ResourceRoots) (tree : Tree) (name : String) : Option String :=
  (roots.findAll tree name).head?

end ResourceRoots

end TypedConfig.File
