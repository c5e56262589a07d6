import GatedRepair.Command
import GatedRepair.Files.Tree
import GatedRepair.Text.Lines

/-!
# Verdicts

Whether a working tree is good as it is now. Who judges may look at the tree and change it, and may remember things
from one judgement to the next.
-/

namespace GatedRepair

/-- How a check ended. -/
inductive CheckStatus where
  | passed
  | failed
  | timedOut
  | error
  deriving DecidableEq, Repr

namespace CheckStatus

def name : CheckStatus → String
  | .passed => "passed"
  | .failed => "failed"
  | .timedOut => "timed_out"
  | .error => "error"

/-- How a check ended, by what came of its command. -/
def ofOutcome (o : CommandOutcome) : CheckStatus :=
  if o.success then .passed
  else if o.timedOut then .timedOut
  else if o.note.isSome then .error
  else .failed

end CheckStatus

/-- One check that was run. -/
structure CheckResult where
  name : String
  command : String
  status : CheckStatus
  duration : Nat
  outputTail : String
  deriving DecidableEq, Repr

/-- What came of a check's command. -/
def CheckResult.ofOutcome (o : CommandOutcome) : CheckResult :=
  { name := o.name, command := o.command, status := .ofOutcome o, duration := o.duration, outputTail := o.tail }

/-- A judgement of the working tree, with the checks that it rests on. -/
structure Verdict where
  passed : Bool
  summary : String
  checks : List CheckResult
  deriving DecidableEq, Repr

namespace Verdict

def pass (summary : String) : Verdict := ⟨true, summary, []⟩

def fail (summary : String) : Verdict := ⟨false, summary, []⟩

end Verdict

/-- One who judges a working tree and remembers a state. -/
structure Verifier (σ : Type) where
  verify : σ → Files.Disk → Verdict × σ × Files.Disk

/-!
## Suites of checks

A suite is a list of commands, all of which have to succeed. The first one that fails ends the run.
-/

open Files

/-- Commands that are run one after another. -/
abbrev Suite := List Command

namespace Suite

/-- The most characters of a summary. -/
def summaryLimit : Nat := 500

/-- Runs the checks after those that have passed already, the last one first. -/
def runFrom (runner : Runner) (done : List CheckResult) : Suite → Disk → Verdict × Disk
  | [], disk => (⟨true, done.length.repr ++ " checks passed", done.reverse⟩, disk)
  | check :: rest, disk =>
    let (outcome, disk) := runner.run check disk
    let done := CheckResult.ofOutcome outcome :: done
    if outcome.success then runFrom runner done rest disk
    else (⟨false, Text.truncate outcome.failureSummary summaryLimit, done.reverse⟩, disk)

/-- Runs the checks. A suite without checks never passes. -/
def run (suite : Suite) (runner : Runner) (disk : Disk) : Verdict × Disk :=
  if suite.isEmpty then (.fail "no verification checks configured", disk) else runFrom runner [] suite disk

/-- The suite as a judge that remembers nothing. -/
def verifier (suite : Suite) (runner : Runner) : Verifier Unit where
  verify := fun _ disk =>
    let (verdict, disk) := suite.run runner disk
    (verdict, (), disk)

/-- The suite on one line. -/
def describe (suite : Suite) : String :=
  if suite.isEmpty then "(none)" else " && ".intercalate (suite.map Command.label)

end Suite

/-!
## Kinds of projects

What kind of project a directory holds is told by its manifest files, and for each kind there are checks that fit: of
types, then of style, then the tests.
-/

/-- The kinds of projects that are told apart. -/
inductive ProjectKind where
  | rust
  | node
  | python
  | go
  | unknown
  deriving DecidableEq, Repr

namespace ProjectKind

def name : ProjectKind → String
  | .rust => "Rust"
  | .node => "Node.js"
  | .python => "Python"
  | .go => "Go"
  | .unknown => "Unknown"

/-- Something with the name stands in the directory. -/
def has (tree : Tree) (root name : String) : Bool := tree.exists? (Path.within root name)

/-- The kind of the project in a directory. -/
def detect (tree : Tree) (root : String) : ProjectKind :=
  if has tree root "Cargo.toml" then .rust
  else if has tree root "package.json" then .node
  else if ["pyproject.toml", "setup.py", "requirements.txt"].any (has tree root) then .python
  else if has tree root "go.mod" then .go
  else .unknown

/-- The files in which the style checker of a Node project is set up. -/
def styleFiles : List String := [
  "eslint.config.js", "eslint.config.mjs", "eslint.config.cjs", "eslint.config.ts", ".eslintrc", ".eslintrc.js",
  ".eslintrc.cjs", ".eslintrc.json", ".eslintrc.yml", ".eslintrc.yaml"]

/-- The checks of a Node project, as far as it is set up for them. -/
def nodeChecks (tree : Tree) (root : String) : List Command :=
  let package := (tree.readText (Path.within root "package.json")).toOption.getD ""
  let styled := Text.contains package "\"eslint\"" || styleFiles.any (has tree root)
  (if has tree root "tsconfig.json" then [Command.new "typecheck" root "npx" ["tsc", "--noEmit"]] else [])
    ++ (if styled then [Command.new "lint" root "npx" ["eslint", "."]] else [])
    ++ (if Text.contains package "\"test\"" then [Command.new "test" root "npm" ["test"]] else [])

/-- The checks that fit a project, the cheapest ones first. -/
def checks (kind : ProjectKind) (tree : Tree) (root : String) : List Command :=
  match kind with
  | .rust => [
      .new "typecheck" root "cargo" ["check", "--all-targets"],
      .new "lint" root "cargo" ["clippy", "--all-targets"],
      .new "test" root "cargo" ["test"]]
  | .node => nodeChecks tree root
  | .python => [
      .new "typecheck" root "mypy" ["."],
      .new "lint" root "ruff" ["check", "."],
      .new "test" root "pytest" ["-q"]]
  | .go => [
      .new "vet" root "go" ["vet", "./..."],
      .new "test" root "go" ["test", "./..."]]
  | .unknown => []

end ProjectKind

end GatedRepair
