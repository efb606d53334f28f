import TypedConfig.Entries
import TypedConfig.File.Resources
import TypedConfig.Text.Blank

/-!
# Shortcuts

Short names of types. A table of shortcuts is read from lines `name = id`, where a colon separates
as well; later lines win over earlier ones. The standard table is merged with every shortcut file
that is found among the resources.
-/

namespace TypedConfig.Construct

/-- The canonical type id of each short name. -/
abbrev Shortcuts := Entries String

namespace Shortcuts

/-- Whether a character separates a short name from its id. -/
def isSeparator (c : Char) : Bool := c == '=' || c == ':'

/-- The shortcut that a line defines. Empty lines, comments, and lines without a name, a separator
or an id define none. -/
def definition? (line : List Char) : Option (String × String) :=
  let line := Text.trim line
  match line.head? with
  | none => none
  | some c =>
    if c == '#' || c == '!' then none
    else
      match line.dropWhile (!isSeparator ·) with
      | [] => none
      | _ :: after =>
        let name := Text.trim (line.takeWhile (!isSeparator ·))
        let id := Text.trim after
        if name.isEmpty || id.isEmpty then none
        else some (String.ofList name, String.ofList id)

/-- Adds the shortcuts that the lines of a text define. -/
def merge (table : Shortcuts) (text : String) : Shortcuts :=
  Entries.insertAll ((Text.lines text.toList).filterMap definition?) table

/-- The canonical id for a name; a name that is no shortcut stands for itself. -/
def resolve (table : Shortcuts) (name : String) : String :=
  (Entries.get? name table).getD name

/-- The short names of the types that are built in. -/
def builtin : Shortcuts := Entries.insertAll [
  ("File", "omni.io.File"),
  ("ExistingFile", "omni.io.ExistingFile"),
  ("NonExistingFile", "omni.io.NonExistingFile"),
  ("ForcedDirectory", "omni.io.ForcedDirectory"),
  ("FilesInDir", "omni.io.FilesInDir"),
  ("Path", "omni.io.Path"),
  ("StringArrayFromFile", "omni.io.StringArrayFromFile"),
  ("Resource", "omni.io.Resource"),
  ("Url", "omni.net.Url"),
  ("URL", "omni.net.Url"),
  ("Socket", "omni.net.SocketAddress"),
  ("SocketAddress", "omni.net.SocketAddress"),
  ("TimeZone", "omni.time.TimeZone"),
  ("HashMap", "omni.collections.HashMap"),
  ("Map", "omni.collections.HashMap"),
  ("Set", "omni.collections.Set"),
  ("SetBuilder", "omni.collections.Set"),
  ("ArrayToList", "omni.collections.ArrayToList"),
  ("Intersection", "omni.collections.Intersection"),
  ("Union", "omni.collections.Union"),
  ("SelectArrayItemByIndex", "omni.collections.SelectArrayItemByIndex"),
  ("DrawSample", "omni.collections.DrawSample"),
  ("StringSplitter", "omni.text.StringSplitter"),
  ("JoinStrings", "omni.text.JoinStrings"),
  ("ModifyStringArray", "omni.text.ModifyStringArray"),
  ("SystemProperties", "omni.sys.Environment"),
  ("Environment", "omni.sys.Environment"),
  ("Os", "omni.sys.Os"),
  ("ShellExecutor", "omni.run.ShellExecutor"),
  ("ParallelRunnable", "omni.run.ParallelRunnable")] []

/-- The name of shortcut files among the resources. -/
def fileName : String := "omniproperties-class-shortcuts.properties"

/-- The table with every shortcut file merged over it; files that cannot be read are left out. -/
def load (table : Shortcuts) (roots : File.ResourceRoots) (tree : File.Tree) : Shortcuts :=
  ((roots.findAll tree fileName).filterMap fun path => (tree.text path).toOption).foldl merge table

end Shortcuts

end TypedConfig.Construct
