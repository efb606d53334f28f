import TypedConfig.Text.Blank

/-!
# File paths

A path is a text with slashes. Its components leave out empty parts and, except at the beginning
of a relative path, single dots; two dots stay. Two paths are the same file name if they have the
same components.
-/

namespace TypedConfig.File

/-- A part of a path that counts when paths are compared. -/
inductive Component where
  | root
  | here
  | up
  | name (text : String)
  deriving DecidableEq, Repr

/-- The text of a component. -/
def Component.text : Component → String
  | .root => "/"
  | .here => "."
  | .up => ".."
  | .name text => text

namespace Path

/-- The texts between the slashes. -/
def segments (path : String) : List String :=
  (Text.splitOn (· == '/') path.toList).map String.ofList

def isAbsolute (path : String) : Bool :=
  path.toList.head? == some '/'

/-- The component that a segment stands for; `none` for the segments that do not count. -/
def ofSegment (segment : String) : Option Component :=
  if segment == "" || segment == "." then none
  else if segment == ".." then some .up
  else some (.name segment)

/-- The components of a path. -/
def components (path : String) : List Component :=
  let parts := (segments path).filterMap ofSegment
  if isAbsolute path then .root :: parts
  else if (segments path).head? == some "." then .here :: parts
  else parts

/-- Whether two paths have the same components. -/
def same (p q : String) : Bool := components p == components q

/-- Appends a path to another one; an absolute path stands for itself. -/
def join (parent child : String) : String :=
  if isAbsolute child then child
  else if parent == "" || parent.toList.getLast? == some '/' then parent ++ child
  else parent ++ "/" ++ child

def joinAll (parts : List String) : String :=
  parts.foldl join ""

/-- The absolute path with the given names. -/
def ofNames (names : List String) : String :=
  if names.isEmpty then "/" else String.join (names.map ("/" ++ ·))

/-- Drops slashes and the segments that do not count at the end of a reversed path. -/
def dropIdle : List Char → List Char
  | '/' :: cs => if cs.isEmpty then ['/'] else dropIdle cs
  | ['.'] => ['.']
  | '.' :: '/' :: cs => if cs.isEmpty then ['/'] else dropIdle cs
  | cs => cs

/-- The path without its last component; `none` for the empty path and for the root. -/
def parent (path : String) : Option String :=
  match (components path).getLast? with
  | none => none
  | some .root => none
  | some _ =>
    let rest := (dropIdle path.toList.reverse).dropWhile (· != '/')
    some (String.ofList (dropIdle rest).reverse)

/-- The absolute form of a path, read from a directory. Dots and repeated slashes go, two dots and
a slash at the end stay, and so do exactly two slashes at the beginning. -/
def absolute (directory : String) (path : String) : String :=
  let parts := (components path).filter fun c => c != .root && c != .here
  let start :=
    if isAbsolute path then
      if path.startsWith "//" && !path.startsWith "///" then "//" else "/"
    else directory
  let full := (parts.map Component.text).foldl join start
  if path.toList.getLast? == some '/' then join full "" else full

end Path

end TypedConfig.File
