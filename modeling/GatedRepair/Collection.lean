import GatedRepair.Command
import GatedRepair.Diagnostic
import GatedRepair.Json.Reader
import GatedRepair.Text.Lines
import GatedRepair.Verification

/-!
# Collecting diagnostics

What each tool printed becomes defects, and it is worked out which kinds of tools ran so well that a defect they do
not report can be taken for fixed.
-/

namespace GatedRepair

/-- The output of one tool. -/
structure ProducerOutput where
  name : String
  kind : DefectKind
  text : String
  /-- The tool's verdict on its own run: success, failure, or unknown for output that was saved. -/
  exitOk : Option Bool
  /-- Why the tool did not run to its end. -/
  failure : Option String
  deriving DecidableEq, Repr

/-- Output that was saved to a file. -/
def ProducerOutput.saved (name : String) (kind : DefectKind) (text : String) : ProducerOutput :=
  { name, kind, text, exitOk := none, failure := none }

/-- What came of one tool's output. A clean run vouches for what it does not report. -/
structure ProducerRun where
  name : String
  kind : DefectKind
  defects : Nat
  clean : Bool
  deriving DecidableEq, Repr

def ProducerRun.toJson (run : ProducerRun) : Json :=
  .record [("name", .text run.name), ("kind", .text run.kind.name), ("defects", .nat run.defects),
    ("clean", .bool run.clean)]

/-- One output, taken apart. -/
structure Examined where
  run : ProducerRun
  defects : List Defect
  warning : Option String

/-- All that was collected. The kinds in scope all ran cleanly. -/
structure Collection where
  defects : List Defect
  scope : List DefectKind
  runs : List ProducerRun
  warnings : List String

namespace Collection

open Text

/-- A run that ended is clean if it succeeded, if it reported something that was understood, or if it left nothing
but an empty text and no verdict. -/
def isClean (exitOk : Option Bool) (text : String) (defects : List Defect) : Bool :=
  match exitOk with
  | some true => true
  | some false => !defects.isEmpty
  | none => !defects.isEmpty || allBlank text.toList

/-- The defects of an output and what it is worth. `canonical` gives the canonical form of a path. -/
def examine (tables : Tables) (root : String) (canonical : String → Option String) (now : Timestamp)
    (output : ProducerOutput) : Examined :=
  match output.failure with
  | some reason =>
    ⟨⟨output.name, output.kind, 0, false⟩, [], some (output.name ++ " did not finish: " ++ reason)⟩
  | none =>
    let defects := (Diagnostic.normalize tables output.kind output.text now).map (·.relativeTo root canonical)
    let clean := isClean output.exitOk output.text defects
    let warning := output.name ++ " produced no parseable diagnostics: " ++ truncate (trimmed output.text) 200
    ⟨⟨output.name, output.kind, defects.length, clean⟩, defects, if clean then none else some warning⟩

/-- The kinds that ran, and whose runs were all clean. -/
def scopeOf (runs : List ProducerRun) : List DefectKind :=
  DefectKind.all.filter fun kind =>
    runs.any (fun run => run.kind = kind) && runs.all fun run => run.kind ≠ kind || run.clean

/-- What the outputs of several tools tell. -/
def ofOutputs (tables : Tables) (root : String) (canonical : String → Option String) (now : Timestamp)
    (outputs : List ProducerOutput) : Collection :=
  let examined := outputs.map (examine tables root canonical now)
  let runs := examined.map (·.run)
  ⟨examined.flatMap (·.defects), scopeOf runs, runs, examined.filterMap (·.warning)⟩

end Collection

/-!
## Producers

A producer is a tool whose output tells of defects.
-/

open Files

/-- A tool that is run for its diagnostics. The command is the program with its arguments, the time limit is in
seconds. -/
structure Producer where
  name : String
  kind : DefectKind
  command : List String
  timeLimit : Nat
  environment : List (String × String)
  deriving DecidableEq, Repr

/-- A command line as a command to be run in a directory. There is none if the command line is empty. -/
def Command.ofLine? (name directory : String) (line : List String) (timeLimit : Nat)
    (environment : List (String × String)) : Option Command :=
  match line with
  | [] => none
  | program :: arguments =>
    some { name, program, arguments, directory, timeLimit := Command.limitOfSeconds timeLimit, environment }

namespace Producer

/-- A producer with the standard time limit. -/
def new (name : String) (kind : DefectKind) (command : List String) : Producer :=
  { name, kind, command, timeLimit := Command.standardLimit, environment := [] }

/-- The producers that fit a project. -/
def defaults : ProjectKind → List Producer
  | .rust => [
      .new "cargo check" .typeCheck ["cargo", "check", "--all-targets", "--message-format=short"],
      .new "clippy" .staticAnalysis ["cargo", "clippy", "--all-targets", "--message-format=short"],
      .new "cargo test" .testFailure ["cargo", "test", "--no-fail-fast"]]
  | .node => [
      .new "tsc" .typeCheck ["npx", "tsc", "--noEmit", "--pretty", "false"],
      .new "eslint" .staticAnalysis ["npx", "eslint", ".", "-f", "unix"],
      .new "npm test" .testFailure ["npm", "test"]]
  | .python => [
      .new "mypy" .typeCheck ["mypy", "."],
      .new "ruff" .staticAnalysis ["ruff", "check", "--output-format=concise", "."],
      .new "pytest" .testFailure ["pytest", "-q", "-rf"]]
  | .go => [
      .new "go vet" .staticAnalysis ["go", "vet", "./..."],
      .new "go test" .testFailure ["go", "test", "./..."]]
  | .unknown => []

/-- What a finished command tells about its producer. -/
def outputOf (p : Producer) (outcome : CommandOutcome) : ProducerOutput :=
  { name := p.name, kind := p.kind, text := outcome.combined
    exitOk := if outcome.completed then some outcome.success else none
    failure := if outcome.completed then none else some outcome.failureSummary }

/-- Runs a producer in a repository. -/
def run (runner : Runner) (root : String) (p : Producer) (disk : Disk) : ProducerOutput × Disk :=
  match Command.ofLine? p.name root p.command p.timeLimit p.environment with
  | none => ({ name := p.name, kind := p.kind, text := "", exitOk := none, failure := some "empty command" }, disk)
  | some command =>
    let (outcome, disk) := runner.run command disk
    (p.outputOf outcome, disk)

/-- Runs producers one after another. -/
def runAll (runner : Runner) (root : String) : List Producer → Disk → List ProducerOutput × Disk
  | [], disk => ([], disk)
  | p :: more, disk =>
    let (output, disk) := p.run runner root disk
    let (outputs, disk) := runAll runner root more disk
    (output :: outputs, disk)

end Producer

end GatedRepair
