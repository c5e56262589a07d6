import GatedRepair.Files.Disk
import GatedRepair.Json.Document
import GatedRepair.Text.Character
import GatedRepair.Text.Lines

/-!
# Commands

What is to be run, who runs it, what came of it, and how that is told.
-/

namespace GatedRepair

/-- A command that is to be run. The time limit is in milliseconds. -/
structure Command where
  name : String
  program : String
  arguments : List String
  directory : String
  timeLimit : Nat
  environment : List (String × String)
  deriving DecidableEq, Repr

namespace Command

/-- The time limit of a command that has none of its own, in seconds. -/
def standardLimit : Nat := 600

/-- A time limit of at least one second. -/
def limitOfSeconds (seconds : Nat) : Nat := max seconds 1 * 1000

/-- A program and its arguments, for people to read. -/
def labelOf (program : String) (arguments : List String) : String :=
  program ++ String.join (arguments.map (" " ++ ·))

def label (c : Command) : String := labelOf c.program c.arguments

/-- A command with the standard time limit. -/
def new (name directory program : String) (arguments : List String) : Command :=
  { name, program, arguments, directory, timeLimit := standardLimit * 1000, environment := [] }

end Command

/-- What came of a command. A note says why it could not be started. -/
structure CommandOutcome where
  name : String
  command : String
  duration : Nat
  success : Bool
  exitCode : Option Int
  timedOut : Bool
  stdout : String
  stderr : String
  note : Option String
  deriving DecidableEq, Repr

namespace CommandOutcome

open Text

/-- The most characters that are kept of an output. -/
def tailLimit : Nat := 4000

/-- The command ran to its end. -/
def completed (o : CommandOutcome) : Bool := o.note.isNone && !o.timedOut

/-- Both outputs, the second one on a line of its own. -/
def combined (o : CommandOutcome) : String :=
  if o.stderr = "" then o.stdout
  else if o.stdout = "" || endsInNewline o.stdout.toList then o.stdout ++ o.stderr
  else o.stdout ++ "\n" ++ o.stderr

/-- The end of the output. -/
def tail (o : CommandOutcome) : String := Text.tail (String.ofList (trimEnd o.combined.toList)) tailLimit

/-- The last line that is not blank, without blanks around it. -/
def lastLine? (text : String) : Option String :=
  ((lines text.toList).reverse.map trim).find? (!·.isEmpty) |>.map String.ofList

/-- Why the command failed, on one line. -/
def failureSummary (o : CommandOutcome) : String :=
  match o.note with
  | some note => o.command ++ " could not run: " ++ note
  | none =>
    if o.timedOut then o.command ++ " timed out after " ++ o.duration.repr ++ "ms"
    else
      let exit := o.exitCode.elim "signal" toString
      let last := (lastLine? o.combined).elim "" fun line => ": " ++ truncate line 200
      o.command ++ " failed (exit " ++ exit ++ ")" ++ last

open Json Number in
def ofJson? (value : Json) : Option CommandOutcome := do
  let m ← members? ["name", "command", "durationMs", "success", "exitCode", "timedOut", "stdout", "stderr", "note"] value
  return {
    name := ← m.required "name" text?
    command := ← m.required "command" text?
    duration := ← m.required "durationMs" (natural? bound64)
    success := ← m.required "success" bool?
    exitCode := ← m.nullable "exitCode" (option? integer32?)
    timedOut := ← m.required "timedOut" bool?
    stdout := ← m.required "stdout" text?
    stderr := ← m.required "stderr" text?
    note := ← m.nullable "note" (option? text?) }

end CommandOutcome

/-- One who runs commands. A command may change the files, so that it leaves a disk behind. -/
structure Runner where
  run : Command → Files.Disk → CommandOutcome × Files.Disk

end GatedRepair
