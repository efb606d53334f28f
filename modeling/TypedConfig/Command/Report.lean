import TypedConfig.Run.Error

/-!
# Reports

Errors as they are shown to users: a message with its causes below it, or a fault of a text with
its place and the causes as notes.
-/

namespace TypedConfig.Command

/-- A message with its causes, one a line. -/
def chainText (message : String) (causes : List String) : String :=
  "error: " ++ message ++ String.join (causes.map ("\n  caused by: " ++ ·))

/-- A fault of a text, as it is shown. -/
structure Diagnostic where
  name : String
  position : Source.Position
  message : String
  notes : List String

namespace Diagnostic

/-- The first line of a diagnostic. -/
def head (d : Diagnostic) : String :=
  "Error: line " ++ toString d.position.line ++ ", character " ++ toString d.position.column

/-- A diagnostic as a text. -/
def text (d : Diagnostic) : String :=
  d.head ++ "\n --> " ++ d.name ++ ":" ++ toString d.position.line ++ ":" ++
    toString d.position.column ++ ": " ++ d.message ++ "\n" ++
    String.join (d.notes.map fun note => "Note: " ++ note ++ "\n")

end Diagnostic

/-- A part of a report. -/
inductive Report where
  | lines (text : String)
  | diagnostic (d : Diagnostic)

def Report.text : Report → String
  | .lines text => text
  | .diagnostic d => d.text

/-- The report of a failed load. -/
def Report.ofLoadError (name : String) : LoadError → Report
  | .inText _ position _ fault => .diagnostic ⟨name, position, fault.message, fault.causes⟩
  | e => .lines (chainText e.message e.causes ++ "\n")

end TypedConfig.Command
