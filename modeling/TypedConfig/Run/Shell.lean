import TypedConfig.Run.Program

/-!
# Shell scripts

A small part of the shell: simple commands with quoted words, one after the other or depending on
how the one before has ended, their output printed or sent away.
-/

namespace TypedConfig.Run.Shell

/-- When a command is run, by how the one before it has ended. -/
inductive Joint where
  | always
  | ifPassed
  | ifFailed
  deriving DecidableEq, Repr

/-- A simple command. -/
structure Step where
  joint : Joint
  words : List String
  deriving DecidableEq, Repr

/-- A script that is being read: the open quote, the sign that waits for its second half, the open
word, the words of the current command and the commands before it, newest first. -/
structure Reading where
  quote : Option Char := none
  sign : Option Char := none
  word : Option (List Char) := none
  words : List String := []
  joint : Joint := .always
  steps : List Step := []

namespace Reading

/-- Adds a character to the open word. -/
def addChar (r : Reading) (c : Char) : Reading := { r with word := some (c :: r.word.getD []) }

/-- Ends the open word. -/
def endWord (r : Reading) : Reading :=
  match r.word with
  | none => r
  | some cs => { r with word := none, words := String.ofList cs.reverse :: r.words }

/-- Ends the current command. -/
def endStep (r : Reading) (next : Joint) : Reading :=
  let r := r.endWord
  if r.words.isEmpty then { r with joint := next }
  else { r with words := [], joint := next, steps := ⟨r.joint, r.words.reverse⟩ :: r.steps }

/-- Reads a character outside quotes that follows no sign. -/
def readPlain (r : Reading) (c : Char) : Reading :=
  if c == '\'' || c == '"' then { r with quote := some c, word := some (r.word.getD []) }
  else if c == ' ' || c == '\t' then r.endWord
  else if c == ';' || c == '\n' then r.endStep .always
  else if c == '&' || c == '|' || c == '\\' then { r with sign := some c }
  else r.addChar c

/-- Reads a character. A sign waits for the character after it. -/
def readChar (r : Reading) (c : Char) : Reading :=
  match r.quote, r.sign with
  | some q, _ => if c == q then { r with quote := none } else r.addChar c
  | none, some sign =>
    let r := { r with sign := none }
    if sign == '\\' then r.addChar c
    else if sign == c then r.endStep (if c == '&' then .ifPassed else .ifFailed)
    else if sign == '&' && !(r.word.getD []).isEmpty then (r.addChar sign).addChar c
    else r.readPlain c
  | none, none => r.readPlain c

/-- The commands of a script that has been read. -/
def finish (r : Reading) : List Step := (r.endStep .always).steps.reverse

end Reading

/-- The commands of a script. -/
def stepsOf (script : String) : List Step :=
  (script.toList.foldl Reading.readChar {}).finish

/-- The words that send the output of a command to the error output. -/
def isSentAway (word : String) : Bool := word == ">&2" || word == "1>&2"

/-- Whether a command is run after one with the given status. -/
def Joint.runsAfter (joint : Joint) (status : Nat) : Bool :=
  match joint with
  | .always => true
  | .ifPassed => status == 0
  | .ifFailed => status != 0

/-- Runs commands one after the other; what has been done before them is given. -/
def runSteps (done : Outcome) : List Step → Outcome
  | [] => done
  | step :: rest =>
    if !step.joint.runsAfter done.status then runSteps done rest
    else
      match step.words.filter (!isSentAway ·) with
      | [] => runSteps done rest
      | "exit" :: codes =>
        { done with status := ((codes.head?.bind String.toNat?).getD done.status) % 256 }
      | name :: arguments =>
        match Program.named? name with
        | none => runSteps { done with status := 127 } rest
        | some program =>
          let outcome := program arguments done.tree
          let output := if step.words.any isSentAway then [] else outcome.output
          runSteps ⟨done.output ++ output, outcome.status, outcome.tree⟩ rest

/-- Runs the script behind the option for scripts. -/
def program : Program := fun arguments tree =>
  match arguments with
  | "-c" :: script :: _ => runSteps ⟨[], 0, tree⟩ (stepsOf script)
  | _ => ⟨[], 0, tree⟩

end TypedConfig.Run.Shell
