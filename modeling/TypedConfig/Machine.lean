import TypedConfig.Entries
import TypedConfig.File.Resources
import TypedConfig.Libraries.Own
import TypedConfig.Value.Basic

/-!
# The machine

What a configuration can reach beside its own store: the file tree, the environment, the
directories of resources, the number of processors, the web, random numbers, the libraries, the
text that has been printed, and the identities that have been given to objects. An identity names
the key whose assignment builds the object; objects that are built for no key share the empty owner.
-/

namespace TypedConfig

/-- The surroundings of a configuration. The web answers a URL with a text, or with the messages of
a failure, outermost first. Generators of random numbers that are asked for without a seed come from
`entropy`, one after the other. -/
structure Machine where
  tree : File.Tree
  environment : Entries String
  roots : File.ResourceRoots
  cores : Nat
  web : String → Except (String × List String) String
  entropy : Nat → Generator
  libraries : Libraries
  printed : String
  owner : String
  issued : Entries Nat

namespace Machine

/-- A machine on which nothing has happened yet. It has one processor, no web, and libraries that
run; what it has for random numbers is no more than linear generators. -/
def start (tree : File.Tree) (environment : Entries String) : Machine where
  tree := tree
  environment := environment
  roots := File.ResourceRoots.standard
  cores := 1
  web url := .error ("error sending request for url (" ++ url ++ ")", [])
  entropy := linear
  libraries := .own
  printed := ""
  owner := ""
  issued := []

/-- The number of workers that the processors suggest, within 32 bits. -/
def workers (m : Machine) : Int32 := Int32.ofNat (min m.cores (Nat.pow 2 31 - 1))

/-- A generator that is asked for without a seed, and the machine on which it is taken. -/
def takeGenerator (m : Machine) : Generator × Machine :=
  (m.entropy 0, { m with entropy := fun n => m.entropy (n + 1) })

/-- The next identity for an object, and the machine on which it is taken. -/
def issue (m : Machine) : ObjectId × Machine :=
  let serial := (Entries.get? m.owner m.issued).getD 0
  (⟨m.owner, serial⟩, { m with issued := Entries.insert m.owner (serial + 1) m.issued })

/-- The machine on which objects are built for a key. -/
def withOwner (m : Machine) (key : String) : Machine := { m with owner := key }

/-- The machine that gives identities as another one does. -/
def identifyingAs (m other : Machine) : Machine :=
  { m with owner := other.owner, issued := other.issued }

/-- Prints a line. -/
def printLine (m : Machine) (line : String) : Machine :=
  { m with printed := m.printed ++ line ++ "\n" }

end Machine

end TypedConfig
