/-!
# Libraries

What is left to libraries: regular expressions, URLs, time zones and random numbers. A library is
known by what it answers, and each of its answers may be anything; where a result rests on how a
library behaves, the behaviour is a hypothesis with a name.
-/

namespace TypedConfig

/-- A regular expression. The first match in a text is given by the number of characters in front
of it and the number of characters in it; the pieces of a text stand between all its matches. -/
structure Regex where
  first? : List Char → Option (Nat × Nat)
  pieces : List Char → List (List Char)

/-- A URL that has been read: its text, its scheme, and the path of the local file that it names. -/
structure ParsedUrl where
  text : String
  scheme : String
  filePath? : Option String

/-- A generator of random numbers, as its answer to the last one of several requests. Each request
asks for a number up to a bound; the newest one stands first. -/
abbrev Generator := List Nat → Nat

/-- The libraries. Regular expressions and URLs are read from texts, with the message of a failure;
a time zone is found by an id and has a name; a generator of random numbers grows from a seed. -/
structure Libraries where
  regex : String → Except String Regex
  url : String → Except String ParsedUrl
  zone? : String → Option String
  seeded : UInt64 → Generator

end TypedConfig
