import GatedRepair.CommandLine.Run
import GatedRepair.Machine.Run
import GatedRepair.Time
import Std.Time.DateTime.Timestamp

/-!
# The command line

The files that a run may look at are read, the run works on them, and what it changed is written. There is no way to
the network from here, so that defects are only collected, reported and unblocked.
-/

namespace GatedRepair.CommandLine

open Files

/-- Puts a file from outside on a disk, if it can be read. -/
def fetch (disk : Disk) (path : String) : IO Disk := do
  try
    let content ← IO.FS.readBinFile path
    return ((disk.makeSurroundings path).2.write path content).2
  catch _ => return disk

/-- A disk with the repository, if there is one, and the files in it that are looked at. -/
def fetchAll (directory : String) (now : Timestamp) (invocation : Invocation) : IO Disk := do
  let root := invocation.root directory
  let mut disk := Disk.sound Tree.empty
  try
    let _ ← IO.FS.realPath root
    disk := (disk.makeDirectories root).2
  catch _ => pure ()
  disk ← (invocation.files directory).foldlM fetch disk
  (invocation.namedFiles directory now disk).foldlM fetch disk

/-- Makes a change outside. -/
def Change.make : Change → IO Unit
  | .directory path => IO.FS.createDirAll path
  | .file path content isPrivate => do
    IO.FS.writeBinFile path content
    if isPrivate then IO.setAccessRights path ⟨⟨true, true, false⟩, {}, {}⟩
  | .removal path => IO.FS.removeFile path

/-- The present time. -/
def present : IO Timestamp := do
  let now ← Std.Time.Timestamp.now
  return (Timestamp.ofSeconds? now.toSecondsSinceUnixEpoch.val.toNat 0).getD .epoch

/-- A number that nobody foresees. -/
def chance : IO Nat := return (← IO.getRandomBytes 16).foldl (fun n byte => 256 * n + byte.toNat) 0

/-- The settings of a run from the present directory. -/
def settingOf (directory : String) (now : Timestamp) (key : String × Option String) : IO (Setting Unit) := do
  let first ← chance
  return {
    runner := Machine.runner
    complain := fun _ => "no document"
    directory
    lookUp := fun name => if name = key.1 then key.2 else none
    transport := .error "there is no way to the network"
    now
    run := .ofNat first
    ids := fun n => .ofNat (first + n + 1) }

/-- Does what an invocation asks for and makes the changes outside. -/
def act (arguments : List String) (invocation : Invocation) : IO Ended := do
  let directory := toString (← IO.currentDir)
  let now ← present
  let disk ← fetchAll directory now invocation
  let variableName := invocation.keyVariable directory disk
  let setting ← settingOf directory now (variableName, ← IO.getEnv variableName)
  let (ended, after) := run setting arguments () disk
  (changes disk.tree after.tree).forM Change.make
  return ended

end GatedRepair.CommandLine

/-- Prints what came of the arguments. -/
def main (arguments : List String) : IO UInt32 := do
  let ended ← match GatedRepair.CommandLine.Invocation.ofArguments? arguments with
    | none => pure GatedRepair.CommandLine.misused
    | some invocation => GatedRepair.CommandLine.act arguments invocation
  IO.print ended.out
  IO.eprint ended.err
  return ended.status.toUInt32
