import TypedConfig.Libraries.Basic
import TypedConfig.Text.Blank

/-!
# Splitting and joining texts

A text is split at the matches of a regular expression. A text without a match is one part; an
empty part in front of a match that takes nothing is dropped, and so are all empty parts at the end.
-/

namespace TypedConfig.Text

/-- The parts of a text between the matches of a regular expression. -/
def split (regex : Regex) (cs : List Char) : List (List Char) :=
  match regex.first? cs with
  | none => [cs]
  | some (start, length) =>
    let parts := regex.pieces cs
    dropWhileEnd List.isEmpty
      (if start = 0 ∧ length = 0 ∧ parts.head? = some [] then parts.drop 1 else parts)

/-- Replaces every occurrence of a text, from the left; an empty text is not looked for. `fuel`
bounds the number of steps. -/
def replaceFrom (old new : List Char) : Nat → List Char → List Char
  | 0, cs => cs
  | _ + 1, [] => []
  | fuel + 1, c :: cs =>
    if old.isPrefixOf (c :: cs) then new ++ replaceFrom old new fuel ((c :: cs).drop old.length)
    else c :: replaceFrom old new fuel cs

/-- Replaces every occurrence of a text that is not empty. -/
def replaceAll (old new cs : List Char) : List Char :=
  if old.isEmpty then cs else replaceFrom old new cs.length cs

end TypedConfig.Text
