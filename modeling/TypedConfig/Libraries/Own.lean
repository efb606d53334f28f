import TypedConfig.Libraries.Basic
import TypedConfig.Net.Url
import TypedConfig.Pattern.Reader
import TypedConfig.TimeZone

/-!
# Libraries that run

Libraries made of the readers of patterns and URLs and of the table of time zones. They are good for
plain patterns and addresses. They do not know the named classes of characters such as `\pN`, other
cases than those of Latin, Greek and Cyrillic letters, or the mapping of international domain
names, and the random numbers are those of a linear generator.
-/

namespace TypedConfig

/-- A pattern as a regular expression. -/
def Pattern.regex (p : Pattern) : Regex :=
  ⟨p.firstFrom none 0, fun cs => p.pieces [] false ⟨none, cs⟩⟩

/-- What is said of a pattern that cannot be read. -/
def badPatternMessage : String := "(regex)"

/-- The parts of a URL that are asked for. -/
def Net.Url.parsed (url : Net.Url) : ParsedUrl :=
  ⟨url.text, String.ofList url.scheme, url.filePath?⟩

/-- The next state of a linear generator. -/
def nextRandom (state : Nat) : Nat :=
  (6364136223846793005 * state + 1442695040888963407) % Nat.pow 2 64

/-- The state of a linear generator after some requests. -/
def randomState (seed : Nat) : List Nat → Nat
  | [] => seed
  | _ :: earlier => nextRandom (randomState seed earlier)

/-- A linear generator. -/
def linear (seed : Nat) : Generator := fun requests =>
  randomState seed requests / Nat.pow 2 33 % (requests.headD 0 + 1)

/-- Libraries that run. -/
def Libraries.own : Libraries where
  regex text :=
    match Pattern.read text with
    | some pattern => .ok pattern.regex
    | none => .error badPatternMessage
  url text :=
    match Net.Url.parse text with
    | .ok url => .ok url.parsed
    | .error e => .error e.message
  zone? id := if TimeZone.isId id then some id else none
  seeded seed := linear seed.toNat

end TypedConfig
