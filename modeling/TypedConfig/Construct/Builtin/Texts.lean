import TypedConfig.Construct.Blueprint
import TypedConfig.Construct.Validation
import TypedConfig.Text.Split

/-!
# Text types

Builders that split a text at a regular expression, join texts with a delimiter, and put texts
around the items of an array.
-/

namespace TypedConfig.Construct.Builtin

/-- A text, the regular expression at which it is split, and whether the parts are trimmed. -/
structure Splitting where
  input : String
  delimiter : String := ","
  trimmed : Bool := true

/-- The parts of a text between the matches of its delimiter. -/
def Splitting.parts (s : Splitting) (regex : Regex) : List String :=
  (Text.split regex s.input.toList).map fun part =>
    String.ofList (if s.trimmed then Text.trim part else part)

/-- The parts of a text between the matches of a regular expression. -/
def stringSplitter (libraries : Libraries) : Blueprint where
  typeId := "omni.text.StringSplitter"
  State := Splitting
  factories := [
    ⟨[.string], do return { input := ← Arguments.string : Splitting }⟩,
    ⟨[.string, .bool], do
      let input ← Arguments.string
      return { input, trimmed := ← Arguments.bool : Splitting }⟩,
    ⟨[.string, .string], do
      let input ← Arguments.string
      return { input, delimiter := ← Arguments.string : Splitting }⟩,
    ⟨[.string, .string, .bool], do
      let input ← Arguments.string
      let delimiter ← Arguments.string
      return ⟨input, delimiter, ← Arguments.bool⟩⟩]
  finish state :=
    match libraries.regex state.delimiter with
    | .ok regex => return Value.strings (state.parts regex)
    | .error cause => Build.fail "omni.text.StringSplitter" (.badDelimiter state.delimiter cause)

/-- Texts, what stands between them, what stands around each, and what escapes that inside. -/
structure Joining where
  strings : List String
  delimiter : String
  quote : String := ""
  escape : String := ""

/-- A text with the quote around it, and with the escape before each quote in it. -/
def Joining.quoted (j : Joining) (s : String) : String :=
  let inner := Text.replaceAll j.quote.toList (j.escape ++ j.quote).toList s.toList
  j.quote ++ String.ofList inner ++ j.quote

/-- The joined text. -/
def Joining.text (j : Joining) : String := j.delimiter.intercalate (j.strings.map j.quoted)

/-- What has to be given for a join. -/
def Joining.violations (j : Joining) : List Violation :=
  notEmpty "strings" j.strings.isEmpty ++ notEmpty "delimiter" (j.delimiter == "")

/-- The items of a list object, if all of them are texts. -/
def listStrings : Arguments (List String) := do
  match ← Arguments.content with
  | .list items =>
    match items.mapM Value.string? with
    | some strings => return strings
    | none => throw .listNotStrings
  | _ => throw .listNotStrings

/-- Texts joined to one. -/
def joinStrings : Blueprint where
  typeId := "omni.text.JoinStrings"
  State := Joining
  factories := [
    ⟨[.array .string, .string], do
      let strings ← Arguments.strings
      return { strings, delimiter := ← Arguments.string : Joining }⟩,
    ⟨[.array .string, .string, .string, .string], do
      let strings ← Arguments.strings
      let delimiter ← Arguments.string
      let quote ← Arguments.string
      return ⟨strings, delimiter, quote, ← Arguments.string⟩⟩,
    ⟨[.object TypeId.list, .string], do
      let strings ← listStrings
      return { strings, delimiter := ← Arguments.string : Joining }⟩]
  finish state :=
    if state.violations.isEmpty then return .string state.text
    else throw (.validation ⟨"omni.text.JoinStrings", state.violations⟩)

/-- Texts with another text before and after each. -/
def modifyStringArray : Blueprint where
  typeId := "omni.text.ModifyStringArray"
  State := List String
  factories := [⟨[.array .string, .string, .string], do
    let strings ← Arguments.strings
    let before ← Arguments.string
    let after ← Arguments.string
    return strings.map fun s => before ++ s ++ after⟩]
  finish strings := return Value.strings strings

end TypedConfig.Construct.Builtin
