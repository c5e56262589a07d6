import GatedRepair.Machine.Program.Basic
import GatedRepair.Machine.Shell.Expansion
import GatedRepair.Machine.Shell.Reader
import GatedRepair.Machine.Shell.Session

/-!
# Processes

How a script text is run, how a shell comes to its end, and how a copy of a shell does something on its own: at once, for
what it writes, or beside the shell that made it.
-/

namespace GatedRepair.Shell

open Running

/-- Runs the commands of a script that are left. `last` says that nothing is done after the script. -/
def runCommands (run : Run) (size : Nat) (setting : Setting) : Nat → Source → Running Unit
  | 0, _ => return ()
  | fuel + 1, source => do
    let known := (← shell).documents
    match (completeCommand size).run { source with documents := [], nextDocument := known.length } with
    | .error mistake =>
      changeShell fun s => { s with line := mistake.line }
      refuse ("Syntax error: " ++ mistake.message)
    | .ok (none, _) => return ()
    | .ok (some script, source) =>
      changeShell fun s => { s with documents := s.documents ++ source.documents }
      let ended := match source.ahead with
        | some .finished => true
        | _ => false
      run script { setting with last := setting.last && ended }
      runCommands run size setting fuel source

/-- Runs the text of a script. -/
def runText (run : Run) (setting : Setting) (text : String) : Running Unit := do
  let chars := text.toList.filter (· ≠ '\x00')
  runCommands run (chars.length + 2) setting (chars.length + 2) (.ofText chars 1 0)

/-- How a process ended. -/
inductive Closing where
  | ended (status : Nat)
  | killed (signal : Nat)
  /-- Its time was up. -/
  | overdue
  deriving DecidableEq, Repr

/-- The status that tells of an end. -/
def Closing.status : Closing → Nat
  | ended status => status % 256
  | killed signal => 128 + signal
  | overdue => 128 + Signal.kill

/-- Does something up to its end. -/
def attempt (body : Running Unit) : Running Closing :=
  tryCatch
    (do
      body
      return .ended (← shell).status)
    fun
      | .killed signal => return .killed signal
      | .overdue => return .overdue
      | _ => return .ended (← shell).status

/-- Carries out what is to be done at the end of the shell. Its own end does not change the status, unless it ends the
shell itself. -/
def atExit (run : Run) (status : Nat) : Running Closing := do
  match (← shell).traps.lookup 0 with
  | none => return .ended status
  | some action =>
    changeShell fun s => { s with traps := s.traps.filter (·.1 ≠ 0), loops := 0 }
    attempt do
      runText run ⟨false, false⟩ action
      setStatus status

mutual

/-- Runs the script that stands beside a shell as a process and has not been begun, to its end or as far as a time. It is
as if it had not been begun, if it does not end by then. -/
def runJob (run : Run) : Nat → Option Nat → Nat → Running Unit
  | 0, _, _ => return ()
  | fuel + 1, horizon, process => do
    let outer ← get
    if let some job := outer.world.jobs.find? fun job => job.process = process && job.progress = .waiting then
      let limit := match job.shell.limit, horizon with
        | some a, some b => some (min a b)
        | some a, none => some a
        | none, b => b
      let marked := fun (progress : Progress) (w : World) =>
        { w with jobs := w.jobs.map fun job => if job.process = process then { job with progress } else job }
      set { outer with world := marked .running outer.world, shell := { job.shell with limit } }
      let closing ← closing run fuel (run job.body ⟨false, true⟩)
      let inner ← get
      let ended := fun (status : Nat) => set { outer with world := marked (.ended status inner.shell.now) inner.world }
      match closing, job.signal with
      | .overdue, some signal => if limit = job.shell.limit then ended (128 + signal) else set outer
      | .overdue, none => if horizon.isSome then set outer else ended closing.status
      | closing, _ => ended closing.status

/-- Does what a process does, with what has to be done at its end. What it left beside itself is run too. -/
def closing (run : Run) : Nat → Running Unit → Running Closing
  | 0, _ => return .overdue
  | fuel + 1, body => do
    let closing ← match ← attempt body with
      | .ended status => atExit run status
      | closing => pure closing
    let s ← get
    for job in s.world.jobs do
      if job.owner = s.shell.process then runJob run fuel none job.process
    return closing

end

/-- How deep processes can stand in processes. -/
def processDepth : Nat := 10000

/-- Lets the scripts beside the shells run that end by a time. -/
def letRun (run : Run) (horizon : Nat) : Running Unit := do
  for job in (← world).jobs do
    runJob run processDepth (some horizon) job.process

/-- Lets some time go by. -/
def wait (run : Run) (time : Nat) : Running Unit := do
  if 0 < time then
    let s ← shell
    let horizon := s.limit.elim (s.now + time) (min (s.now + time))
    letRun run horizon
    changeShell fun s => { s with now := s.now + time }
  goOn

/-- The shell as a process of its own: signals find it as if it had never been told what to do with them, unless it takes
no notice of them. -/
def copied (process : Nat) (s : Interpreter) : Interpreter :=
  { s with process, limit := none, traps := s.traps.filter (·.2 = ""), depth := s.depth + 1 }

/-- How deep shells can call themselves. -/
def depthLimit : Nat := 1000

/-- Ends a shell that has called itself too often. -/
def deeper : Running Unit := do
  if depthLimit < (← shell).depth then throw (.killed Signal.segmentation)

/-- Does something in a changed copy of the shell. Gives how it ended, and when. -/
def inCopy (run : Run) (change : Interpreter → Interpreter) (body : Running Unit) : Running (Closing × Nat) := do
  deeper
  let outer ← shell
  let process ← newProcess
  changeShell fun s => change (copied process s)
  let ending ← closing run processDepth body
  let inner ← shell
  changeShell fun _ => outer
  return (ending, inner.now)

/-- Goes on at a time when a copy has ended, whose end by a signal is told. -/
def goOnAfter (ending : Closing) (time : Nat) : Running Unit := do
  changeShell fun s => { s with now := max s.now time }
  match ending with
  | .killed signal =>
    if let some words := Signal.words? signal then complainPlainly (words ++ "\n")
  | _ => pure ()
  goOn

/-- The channels with one that is turned to a place. -/
def turned (channels : List (Nat × Nat)) (number place : Nat) : List (Nat × Nat) :=
  (number, place) :: channels.filter (·.1 ≠ number)

/-- What a script writes, without the line ends at the end. -/
def outputOf (run : Run) (body : Script) : Running String := do
  let (index, place) ← newPipe
  let (ending, time) ← inCopy run (fun s => { s with channels := turned s.channels 1 place }) (run body ⟨false, true⟩)
  goOnAfter ending time
  changeShell fun s => { s with substituted := ending.status }
  let text := (gathered (← world) index).toList.filter (· ≠ '\x00')
  return String.ofList (text.reverse.dropWhile (· = '\n')).reverse

/-- Does what is to be done for the signals that have come. -/
def heed (run : Run) : Running Unit := do
  goOn
  let s ← get
  let (mine, others) := s.world.signals.partition (·.1 = s.shell.process)
  if !mine.isEmpty then
    changeWorld fun w => { w with signals := others }
    for (_, signal) in mine do
      match s.shell.traps.lookup signal with
      | some action =>
        runText run ⟨false, false⟩ action
        setStatus s.shell.status
      | none => throw (.killed signal)

/-- Runs the stages of a pipeline one after another, as if at once: each reads what the one before has written. Gives the
time when the last of them ends. A stage that never ends is stopped when nobody reads it any more. -/
def runStages (run : Run) (tested : Bool) : Option Nat → List Script → Nat → Running Nat
  | _, [], time => return time
  | input, stage :: more, time => do
    let isLast := more.isEmpty
    let (index, place) ← if isLast then pure (0, 0) else newPipe
    let before := (← world).steps
    let budget := if isLast then before else min before 50000
    changeWorld fun w => { w with steps := budget }
    let change := fun (s : Interpreter) =>
      let channels := input.elim s.channels (turned s.channels 0 ·)
      { s with channels := if isLast then channels else turned channels 1 place }
    let (ending, ended) ← inCopy run change (run stage ⟨tested, true⟩)
    changeWorld fun w => { w with steps := before - (budget - w.steps) }
    match ending with
    | .killed signal =>
      if let some words := Signal.words? signal then complainPlainly (words ++ "\n")
    | _ => pure ()
    if isLast then
      setStatus ending.status
      return max time ended
    else
      let ended := if ended < endlessTime then ended else time
      let input ← opened (.input (gathered (← world) index).toList)
      runStages run tested (some input) more (max time ended)

/-- Runs a pipeline. -/
def runPipeline (run : Run) (tested : Bool) (stages : List Script) : Running Unit := do
  let time ← runStages run tested none stages (← shell).now
  changeShell fun s => { s with now := max s.now time }
  goOn

/-- Puts a script beside the shell. -/
def putBeside (body : Script) : Running Unit := do
  let process ← newProcess
  let input ← opened .nothing
  let s ← shell
  let copy := { copied process s with channels := turned s.channels 0 input, now := s.now + 100 }
  changeWorld fun w => { w with jobs := w.jobs ++ [⟨s.process, process, body, copy, none, .waiting⟩] }
  changeShell fun s => { s with beside := some process, status := 0 }

/-- Waits for scripts beside the shell: for all of them, or for those that are told by number. -/
def waitFor (run : Run) (words : List String) : Running Unit := do
  let s ← get
  let mine := s.world.jobs.filter (·.owner = s.shell.process)
  let awaited := if words.isEmpty then mine else mine.filter fun job => words.any (·.toNat? = some job.process)
  for job in awaited do
    runJob run processDepth none job.process
  let jobs := (← world).jobs
  let ends := awaited.filterMap fun job => match jobs.find? (·.process = job.process) with
    | some job => match job.progress with
      | .ended status time => some (job, status, time)
      | _ => none
    | none => none
  for (_, _, time) in ends do
    changeShell fun s => { s with now := max s.now time }
  goOn
  if words.isEmpty then
    changeWorld fun w => { w with jobs := w.jobs.filter (·.owner ≠ s.shell.process) }
    setStatus 0
  else
    setStatus 127
    for word in words do
      match ends.find? fun (job, _) => word.toNat? = some job.process with
      | some (job, status, _) =>
        if let some words := job.signal.bind Signal.words? then complainPlainly (words ++ "\n")
        setStatus status
      | none => setStatus 127

end GatedRepair.Shell

/-!
## Redirections

A redirection turns a channel to a file, to another channel or to a text.
-/

namespace GatedRepair.Shell

open Files Text Running

/-- Turns a channel to a place. -/
def turn (number place : Nat) : Running Unit := changeShell fun s => { s with channels := turned s.channels number place }

/-- The channel that the name of a device stands for. -/
def deviceChannel? (path : String) : Option Nat :=
  match path with
  | "/dev/stdin" => some 0
  | "/dev/stdout" => some 1
  | "/dev/stderr" => some 2
  | "/dev/fd/0" => some 0
  | "/dev/fd/1" => some 1
  | "/dev/fd/2" => some 2
  | _ => none

/-- Turns a channel to where another one is turned. What is wrong cannot be told if the channel for complaints is put aside
for it, as it is when it will be `restored`. -/
def copyChannel (restored : Bool) (number source : Nat) : Running Bool := do
  match (← shell).channels.lookup source with
  | some place =>
    turn number place
    return true
  | none =>
    if !(restored && number = 2) then complain (source.repr ++ ": Bad file descriptor")
    return false

/-- Why a file cannot be opened, in the words of the shell. -/
def openingWords (missing : String) (e : Failure) : String :=
  if e = .notFound || e = .notDirectory then missing else e.words

/-- Opens a file to read from. -/
def openForReading (name : String) : Running (Except Failure Channel) := do
  let s ← get
  let path := Path.within s.shell.directory (ofOctets name)
  if path = "/dev/null" then return .ok .nothing
  else if path = "/dev/zero" then return .ok .zeros
  else if path = "/dev/full" then return .ok .full
  else if name = "" then return .error .notFound
  else match s.world.disk.tree.find? path with
    | .ok (location, .file ..) => return .ok (.file location 0 false)
    | .ok _ => return .ok .directory
    | .error e => return .error e

/-- Opens a file to write to. -/
def openForWriting (name : String) (atEnd : Bool) : Running (Except Failure Channel) := do
  let s ← get
  let path := Path.within s.shell.directory (ofOctets name)
  let disk := s.world.disk
  if path = "/dev/null" || path = "/dev/zero" then return .ok .nothing
  else if path = "/dev/full" then return .ok .full
  else if name = "" then return .error .notFound
  else if s.shell.manner.keeping && !atEnd && disk.tree.isFile path then return .error .exists
  else
    let (made, disk) := if atEnd then disk.append path ByteArray.empty else disk.write path ByteArray.empty
    match made with
    | .error e => return .error e
    | .ok () =>
      changeWorld fun w => { w with disk }
      match disk.tree.find? path with
      | .ok (location, _) => return .ok (.file location 0 atEnd)
      | .error e => return .error e

/-- Does what a redirection says, or tells why it cannot be done. -/
def redirect (output : Script → Running String) (restored : Bool) : Redirect → Running Bool
  | .mk number (.document id) _ => do
    let body := ((← shell).documents.lookup id).getD []
    let text ← expandText output body
    turn number (← opened (.input text.toList))
    return true
  | .mk number .copy target => do
    let word ← expandText output target
    match word.toList with
    | ['-'] =>
      changeShell fun s => { s with channels := s.channels.filter (·.1 ≠ number) }
      return true
    | [c] => if c.isDigit then copyChannel restored number (c.toNat - 48) else refuse "Syntax error: Bad fd number"
    | _ => refuse "Syntax error: Bad fd number"
  | .mk number direction target => do
    let name ← expandText output target
    match deviceChannel? name with
    | some source => copyChannel restored number source
    | none =>
      let reads := direction = .read
      match ← if reads then openForReading name else openForWriting name (direction = .append) with
      | .ok channel =>
        turn number (← opened channel)
        return true
      | .error e =>
        complain (if reads then "cannot open " ++ name ++ ": " ++ openingWords "No such file" e
          else "cannot create " ++ name ++ ": " ++ openingWords "Directory nonexistent" e)
        return false

/-- Does what redirections say, up to one that cannot be done. -/
def redirectAll (output : Script → Running String) (restored : Bool) : List Redirect → Running Bool
  | [] => return true
  | r :: more => do if ← redirect output restored r then redirectAll output restored more else return false

/-- Does something and brings something back in order after it, however it ends. -/
def afterwards (body restore : Running Unit) : Running Unit := do
  tryCatch body fun stop => do
    restore
    throw stop
  restore

/-- Does something with channels that are turned elsewhere while it is done. If they cannot be, `failed` is done instead. -/
def redirected (output : Script → Running String) (redirects : List Redirect) (body failed : Running Unit) : Running Unit := do
  if redirects.isEmpty then body
  else
    let channels := (← shell).channels
    let restore := changeShell fun s => { s with channels }
    afterwards
      (do
        if ← redirectAll output true redirects then body
        else
          restore
          failed)
      restore

end GatedRepair.Shell
