import GatedRepair.Files.Disk
import GatedRepair.Machine.Shell.Token
import GatedRepair.Text.Lines

/-!
# Signals

The signals by their names and numbers, and how the end by a signal is told.
-/

namespace GatedRepair.Shell.Signal

/-- The names of the signals, beginning with the one that stands for the end of a shell. -/
def names : List String :=
  ["EXIT", "HUP", "INT", "QUIT", "ILL", "TRAP", "ABRT", "BUS", "FPE", "KILL", "USR1", "SEGV", "USR2", "PIPE", "ALRM", "TERM",
    "STKFLT", "CHLD", "CONT", "STOP", "TSTP", "TTIN", "TTOU", "URG", "XCPU", "XFSZ", "VTALRM", "PROF", "WINCH", "IO", "PWR",
    "SYS"]

/-- The number of the largest signal. -/
def largest : Nat := 64

/-- The signal that a word means: its number or its name, in any case. -/
def ofWord? (word : String) : Option Nat :=
  if word.toList.all Char.isDigit && word ≠ "" then word.toNat?.filter (· ≤ largest)
  else names.idxOf? word.toUpper

def kill : Nat := 9

def segmentation : Nat := 11

/-- A process takes no notice of the signal. -/
def isHarmless (signal : Nat) : Bool := [0, 17, 18, 23, 28].contains signal

/-- The end of a process in words. Some ends are not told. -/
def words? (signal : Nat) : Option String :=
  match signal with
  | 1 => some "Hangup"
  | 3 => some "Quit"
  | 4 => some "Illegal instruction"
  | 5 => some "Trace/breakpoint trap"
  | 6 => some "Aborted"
  | 7 => some "Bus error"
  | 8 => some "Floating point exception"
  | 9 => some "Killed"
  | 10 => some "User defined signal 1"
  | 11 => some "Segmentation fault"
  | 12 => some "User defined signal 2"
  | 14 => some "Alarm clock"
  | 15 => some "Terminated"
  | 16 => some "Stack fault"
  | 24 => some "CPU time limit exceeded"
  | 25 => some "File size limit exceeded"
  | 26 => some "Virtual timer expired"
  | 27 => some "Profiling timer expired"
  | 29 => some "I/O possible"
  | 30 => some "Power failure"
  | 31 => some "Bad system call"
  | _ => none

end GatedRepair.Shell.Signal

/-!
## Running shells

A shell runs in a world that it shares with the shells that it starts: the disk, the channels, what is written, and the
scripts that run beside others. Each shell has a time of its own, which goes on when it waits. Times are in microseconds.
-/

namespace GatedRepair.Shell

open Files Text

/-- What can be read from or written to. -/
inductive Channel where
  /-- A text, of which this is left. -/
  | input (text : List Char)
  /-- A file, from a position on or always at its end. -/
  | file (location : Location) (position : Nat) (atEnd : Bool)
  /-- What is written is kept. -/
  | pipe (index : Nat)
  | nothing
  /-- It is open and cannot be read. -/
  | directory
  /-- Zero bytes without an end. -/
  | zeros
  /-- It reads as zero bytes and has no room for more. -/
  | full

structure Variable where
  value : Option String
  /-- Programs that are started get it. -/
  exported : Bool
  /-- It cannot be changed. -/
  constant : Bool
  deriving DecidableEq, Repr

/-- How a shell goes about its work. -/
structure Manner where
  /-- It ends when a command fails. -/
  strict : Bool
  /-- A variable without a value is a mistake. -/
  demanding : Bool
  /-- It shows what it does. -/
  tracing : Bool
  /-- Patterns for names are left as they are. -/
  literal : Bool
  /-- All variables that get values are exported. -/
  exporting : Bool
  /-- Files are not overwritten. -/
  keeping : Bool
  /-- Commands are read and not run. -/
  idle : Bool
  deriving DecidableEq, Repr

structure Interpreter where
  /-- The name by which the shell tells of itself. -/
  name : String
  line : Nat
  /-- The command that shows in complaints. -/
  command : Option String
  directory : String
  bindings : List (String × Variable)
  parameters : List String
  functions : List (String × Script)
  documents : List (Nat × Word)
  manner : Manner
  /-- The channels by number. -/
  channels : List (Nat × Nat)
  status : Nat
  /-- The status of the last script within a word. -/
  substituted : Nat
  process : Nat
  /-- The process that the shell was started as, which its copies keep. -/
  root : Nat
  beside : Option Nat
  /-- What is done when a signal comes; the number 0 stands for the end of the shell. -/
  traps : List (Nat × String)
  now : Nat
  /-- When the shell is stopped. -/
  limit : Option Nat
  /-- How many calls and loops it is in. -/
  depth : Nat
  loops : Nat
  /-- Which letter of a word the next option is. -/
  letter : Nat
  /-- The variables that the running function keeps to itself, as they were before. -/
  kept : Option (List (String × Option Variable))

/-- How far a script beside a shell is. -/
inductive Progress where
  /-- Nothing has been done of it. -/
  | waiting
  /-- It is being run. -/
  | running
  /-- It has ended with a status at a time. -/
  | ended (status time : Nat)
  deriving DecidableEq, Repr

/-- A script that runs beside its shell. A signal may have come for it. -/
structure Job where
  owner : Nat
  process : Nat
  body : Script
  shell : Interpreter
  signal : Option Nat
  progress : Progress

structure World where
  disk : Disk
  channels : Array Channel
  /-- What was written to each pipe, with the times, the last first. -/
  pipes : Array (List (Nat × String))
  processes : Nat
  /-- Signals that wait for a process. -/
  signals : List (Nat × Nat)
  jobs : List Job
  /-- How many commands can yet be run. -/
  steps : Nat

structure Session where
  world : World
  shell : Interpreter

/-- Why a script is left in the middle. -/
inductive Stop where
  /-- So many loops are left. -/
  | broken (levels : Nat)
  /-- The next round of the loop that is so many levels up is begun. -/
  | resumed (levels : Nat)
  | returned
  | exited
  | killed (signal : Nat)
  /-- The time is up. -/
  | overdue
  deriving DecidableEq, Repr

abbrev Running := ExceptT Stop (StateM Session)

/-- Runs a script. If it is tested, its failure ends no strict shell; if it is the last one, the shell need not go on
after it. -/
structure Setting where
  tested : Bool
  last : Bool

abbrev Run := Script → Setting → Running Unit

namespace Running

def shell : Running Interpreter := return (← get).shell

def world : Running World := return (← get).world

def changeShell (f : Interpreter → Interpreter) : Running Unit := modify fun s => { s with shell := f s.shell }

def changeWorld (f : World → World) : Running Unit := modify fun s => { s with world := f s.world }

def setStatus (status : Nat) : Running Unit := changeShell fun s => { s with status }

/-- The channel that a number stands for, with its place among all channels. -/
def channel? (number : Nat) : Running (Option (Nat × Channel)) := do
  let s ← get
  return (s.shell.channels.lookup number).bind fun place => (s.world.channels[place]?).map fun channel => (place, channel)

/-- Opens a channel. -/
def opened (channel : Channel) : Running Nat := do
  let s ← get
  set { s with world := { s.world with channels := s.world.channels.push channel } }
  return s.world.channels.size

def setChannel (place : Nat) (channel : Channel) : Running Unit :=
  changeWorld fun w => { w with channels := w.channels.setIfInBounds place channel }

/-- The bytes of the file at a location. -/
def bytesAt (tree : Tree) (location : Location) : ByteArray :=
  match tree.get? location with
  | some (.file content _) => content
  | _ => ByteArray.empty

/-- Bytes with others written over them from a position on. -/
def overwritten (old new : ByteArray) (position : Nat) : ByteArray :=
  let gap := ByteArray.mk (Array.replicate (position - old.size) 0)
  old.extract 0 position ++ gap ++ new ++ old.extract (position + new.size) old.size

/-- Writes a text to the channel with a number, if there is one that can be written to. Gives what kept it from being
written. -/
def write (number : Nat) (text : String) : Running (Option String) := do
  let closed := if text = "" then none else some "Bad file descriptor"
  match ← channel? number with
  | none => return closed
  | some (place, channel) =>
    match channel with
    | .input _ => return closed
    | .directory => return closed
    | .nothing => return none
    | .zeros => return none
    | .full => return if text = "" then none else some "No space left on device"
    | .pipe index =>
      if text ≠ "" then
        modify fun s =>
          let chunk := (s.shell.now, text)
          { s with world := { s.world with pipes := s.world.pipes.modify index (chunk :: ·) } }
      return none
    | .file location position atEnd =>
      let bytes := bytesOfOctets text
      changeWorld fun w =>
        let tree := w.disk.tree
        match tree.get? location with
        | some (.file old mode) =>
          let content := if atEnd then old ++ bytes else overwritten old bytes position
          { w with disk := { w.disk with tree := tree.put location (.file content mode) } }
        | _ => w
      setChannel place (.file location (position + bytes.size) atEnd)
      return none

/-- Writes to the channel for complaints. -/
def complainPlainly (text : String) : Running Unit := do
  let _ ← write 2 text

/-- Complains about the line that is run. -/
def complain (message : String) : Running Unit := do
  let s ← shell
  complainPlainly (s.name ++ ": " ++ s.line.repr ++ ": " ++ s.command.elim "" (· ++ ": ") ++ message ++ "\n")

/-- Complains and ends the shell. -/
def refuse {α : Type} (message : String) : Running α := do
  complain message
  setStatus 2
  throw .exited

/-- What is left to read in a channel. -/
def rest (w : World) : Channel → List Char
  | .input text => text
  | .file location position _ =>
    let content := bytesAt w.disk.tree location
    (octetsOfBytes (content.extract position content.size)).toList
  | .pipe _ => []
  | .nothing => []
  | .directory => []
  | .zeros => List.replicate 1048576 '\x00'
  | .full => List.replicate 1048576 '\x00'

/-- The next line of a channel without its end, whether it has one, and the channel after it. -/
def nextLine (w : World) : Channel → List Char × Bool × Channel
  | .file location position atEnd =>
    let content := bytesAt w.disk.tree location
    match content.findIdx? (· == 10) position with
    | some i => ((octetsOfBytes (content.extract position i)).toList, true, .file location (i + 1) atEnd)
    | none => ((octetsOfBytes (content.extract position content.size)).toList, false, .file location content.size atEnd)
  | .input text =>
    let line := text.takeWhile (· ≠ '\n')
    match text.drop line.length with
    | [] => (line, false, .input [])
    | _ :: rest => (line, true, .input rest)
  | channel => ([], false, channel)

/-- What was written to a pipe, in the order of the times. -/
def gathered (w : World) (index : Nat) : String :=
  String.join ((((w.pipes[index]?).getD []).reverse.mergeSort fun a b => a.1 ≤ b.1).map (·.2))

/-- A new pipe: its index, and the place of the channel that writes to it. -/
def newPipe : Running (Nat × Nat) := do
  let index := (← world).pipes.size
  changeWorld fun w => { w with pipes := w.pipes.push [] }
  return (index, ← opened (.pipe index))

/-- A number for a new process. -/
def newProcess : Running Nat := do
  let w ← world
  changeWorld fun w => { w with processes := w.processes + 1 }
  return w.processes

/-- Ends the shell if its time is up or a signal has come that ends it. -/
def goOn : Running Unit := do
  let s ← get
  if s.shell.limit.any (· ≤ s.shell.now) then throw .overdue
  else match s.world.signals.lookup s.shell.process with
    | some signal =>
      if s.shell.traps.any (·.1 = signal) then return ()
      else throw (.killed signal)
    | none => return ()

/-- Takes one of the steps that are left. A shell that has none left is taken to run for ever. -/
def step : Running Unit := do
  let s ← get
  if s.world.steps = 0 then throw .overdue
  else set { s with world := { s.world with steps := s.world.steps - 1 } }

end Running

namespace Interpreter

def held? (s : Interpreter) (name : String) : Option Variable := s.bindings.lookup name

/-- The text of a variable. -/
def text? (s : Interpreter) (name : String) : Option String := (s.held? name).bind (·.value)

def text (s : Interpreter) (name : String) : String := (s.text? name).getD ""

/-- A list of variables in which a name stands for one. -/
def putVariable (name : String) (v : Variable) : List (String × Variable) → List (String × Variable)
  | [] => [(name, v)]
  | other :: more => if other.1 = name then (name, v) :: more else other :: putVariable name v more

def withVariable (s : Interpreter) (name : String) (v : Variable) : Interpreter := { s with bindings := putVariable name v s.bindings }

/-- The variables that programs get. -/
def environment (s : Interpreter) : List (String × String) :=
  s.bindings.filterMap fun (name, v) => if v.exported then v.value.map fun value => (name, value) else none

/-- The characters that part words. -/
def separators (s : Interpreter) : List Char := ((s.text? "IFS").getD " \t\n").toList

/-- What stands between the parameters when they become one text. -/
def joint (s : Interpreter) : List Char := s.separators.take 1

/-- The letters of the options that are set. -/
def optionLetters (s : Interpreter) : String :=
  String.ofList ([(s.manner.exporting, 'a'), (s.manner.strict, 'e'), (s.manner.literal, 'f'), (s.manner.tracing, 'x'),
    (s.manner.demanding, 'u'), (s.manner.keeping, 'C')].filterMap fun (set, letter) => if set then some letter else none)

end Interpreter

namespace Running

/-- Gives a variable a value. A constant refuses. -/
def assign (name value : String) : Running Unit := do
  let s ← shell
  let old := s.held? name
  if old.any (·.constant) then refuse (name ++ ": is read only")
  else
    let v : Variable := ⟨some value, s.manner.exporting || old.any (·.exported), false⟩
    changeShell fun s => { s.withVariable name v with letter := if name = "OPTIND" then 1 else s.letter }

end Running

end GatedRepair.Shell
