import GatedRepair.Command
import GatedRepair.Machine.Shell.Call

/-!
# Running a command

A command starts a program of the machine or a shell, and what it writes, how it ends and whether its time ran out make
the outcome.
-/

namespace GatedRepair

open Files Shell Text

namespace Command

/-- How often it is looked whether a command has ended, in milliseconds. -/
def pollInterval : Nat := 50

/-- The time at which a command that still runs is stopped, in milliseconds. -/
def deadline (c : Command) : Nat := (c.timeLimit + pollInterval - 1) / pollInterval * pollInterval

/-- The number of the process in which the command runs. -/
def process : Nat := 4242

/-- How many commands a script can run before it is taken to run for ever. -/
def stepLimit : Nat := 200000

/-- The variables of the machine and those of the command, of which the later ones count. -/
def surroundings (c : Command) : List (String × String) :=
  c.environment.foldl (fun all (name, value) => (name, value) :: all.filter (·.1 ≠ name))
    [("PATH", Machine.standardPlaces), ("HOME", "/root")]

/-- The session in which the command runs: nothing is to be read, and what is written to the two pipes is kept. -/
def session (c : Command) (disk : Disk) : Session where
  world :=
    { disk := { disk with tree := Machine.surround disk.tree }
      channels := #[.nothing, .pipe 0, .pipe 1]
      pipes := #[[], []]
      processes := process + 1
      signals := []
      jobs := []
      steps := stepLimit }
  shell :=
    { name := toOctets c.program, line := 0, command := none, directory := c.directory
      bindings := c.surroundings.map fun (name, value) => (toOctets name, ⟨some (toOctets value), true, false⟩)
      parameters := [], functions := [], documents := [], manner := ⟨false, false, false, false, false, false, false⟩
      channels := [(0, 0), (1, 1), (2, 2)], status := 0, substituted := 0, process, root := process, beside := none
      traps := [], now := 0, limit := some (c.deadline * 1000), depth := 0, loops := 0, letter := 1, kept := none }

/-- What the command does. -/
def body (c : Command) (found : Executable) : Running Unit := do
  let arguments := c.arguments.map toOctets
  match found with
  | .program program => runProgram Shell.run program (toOctets c.program) arguments
  | .shell => runShell Shell.run (toOctets c.program) arguments

/-- What the command is, or why it cannot be started. -/
def found (c : Command) (disk : Disk) : Except String Executable :=
  let texts := c.program :: c.arguments ++ c.environment.flatMap fun (name, value) => [name, value]
  if texts.any (·.contains '\x00') then .error "nul byte found in provided data"
  else match disk.tree.find? c.directory with
    | .error e => .error e.message
    | .ok _ =>
      let places := (c.surroundings.lookup "PATH").getD Machine.standardPlaces
      match Machine.search (Machine.surround disk.tree) c.directory places c.program with
      | .ok (_, executable) => .ok executable
      | .error e => .error e.message

/-- The outcome of a command whose process ended so. -/
def outcomeOf (c : Command) (closing : Closing) (s : Session) : CommandOutcome :=
  let timedOut := c.deadline = 0 || closing = .overdue
  let code := match closing with
    | .ended status => if timedOut then none else some ((status % 256 : Nat) : Int)
    | _ => none
  let text := fun (index : Nat) => if c.deadline = 0 then "" else ofOctets (Running.gathered s.world index)
  { name := c.name
    command := c.label
    duration := s.shell.now / 1000
    success := code = some 0
    exitCode := code
    timedOut
    stdout := text 0
    stderr := text 1
    note := none }

/-- Runs a command to its end or to its time limit. -/
def run (c : Command) (disk : Disk) : CommandOutcome × Disk :=
  match c.found disk with
  | .error cause =>
    ({ name := c.name, command := c.label, duration := 0, success := false, exitCode := none, timedOut := false,
       stdout := "", stderr := "", note := some ("Failed to start command: " ++ cause) }, disk)
  | .ok executable =>
    let (closing, s) := ((Shell.closing Shell.run processDepth (c.body executable)).run.run (c.session disk))
    let closing := match closing with
      | .ok closing => closing
      | .error _ => .overdue
    (c.outcomeOf closing s, { s.world.disk with tree := Machine.withdraw disk.tree s.world.disk.tree })

end Command

/-- The machine as one who runs commands. -/
def Machine.runner : Runner := ⟨Command.run⟩

end GatedRepair
