import GatedRepair.Files.Tree
import GatedRepair.Fix.Proposal
import GatedRepair.State
import GatedRepair.Text.Lines
import GatedRepair.Time
import GatedRepair.Verification

/-!
# Replacing lines of a text

New lines take the place of a region or of everything. They get the line ending of the text, and the text keeps its
last newline or the lack of one.
-/

namespace GatedRepair.Edit

open Text

/-- The line ending of a text: carriage return and newline, if that occurs at all, and else a newline. -/
def lineEnding (text : List Char) : List Char :=
  if (fromFirst? ['\r', '\n'] text).isSome then ['\r', '\n'] else ['\n']

/-- A text's lines with line endings between them. -/
def respelled (ending code : List Char) : List Char := join ending (lines code)

/-- A text with a line ending after it, unless it is empty or the ending is not wanted. -/
def ended (ending : List Char) (wanted : Bool) (text : List Char) : List Char :=
  if wanted && !text.isEmpty then text ++ ending else text

/-- The region does not lie inside the file. -/
structure OutsideFile where
  region : Region
  total : Nat
  deriving DecidableEq, Repr

def OutsideFile.message (e : OutsideFile) : String :=
  "Region " ++ e.region.start.repr ++ "-" ++ e.region.stop.repr ++ " is outside the file (" ++ e.total.repr ++ " lines)"

/-- The text with new code in the place of the target. -/
def spliceChars (content : List Char) (target : EditTarget) (code : List Char) : Except OutsideFile (List Char) :=
  let ending := lineEnding content
  let fresh := respelled ending code
  match target with
  | .wholeFile => .ok (ended ending (endsInNewline content) fresh)
  | .region r =>
    let old := pieces content
    if r.fits old.length then
      let front := (old.take (r.start - 1)).flatten
      let back := (old.drop r.stop).flatten
      let closed := ((old[r.stop - 1]?).map endsInNewline).getD false
      .ok (front ++ ended ending closed fresh ++ back)
    else .error ⟨r, old.length⟩

/-- The text with new code in the place of the target. -/
def splice (content : String) (target : EditTarget) (code : String) : Except OutsideFile String :=
  (spliceChars content.toList target code.toList).map String.ofList

end GatedRepair.Edit

/-!
## Edits that hold only if they are verified

A file is backed up, changed and verified. Unless the verdict is good the backup is put back and compared with the
file, so that an edit that fails leaves the file as it was. If even that cannot be done the edit ends in an error, and
the backup stays.
-/

namespace GatedRepair.Edit

open Files

/-- One edit: the code that takes the place of a target in a file. -/
structure Replacement where
  file : String
  target : EditTarget
  code : String
  deriving DecidableEq, Repr

/-- Why an edit was not made. -/
inductive Obstacle where
  | refused (refusal : Refusal)
  | noBackupDirectory (failure : Failure)
  | noBackup (file : String) (failure : Failure)
  | unreadable (file : String) (failure : Failure)
  | notText (file : String)
  | outside (cause : OutsideFile)
  | unwritable (file : String) (failure : Failure)
  | noTarget
  deriving DecidableEq, Repr

def Obstacle.message : Obstacle → String
  | .refused refusal => refusal.message
  | .noBackupDirectory failure => "Failed to create backup dir: " ++ failure.message
  | .noBackup file failure => "Failed to back up " ++ file ++ ": " ++ failure.message
  | .unreadable file failure => "Failed to read " ++ file ++ ": " ++ failure.message
  | .notText file => file ++ " is not valid UTF-8"
  | .outside cause => cause.message
  | .unwritable file failure => "Failed to write " ++ file ++ ": " ++ failure.message
  | .noTarget => "no readable target file for this defect"

/-- What came of an edit: it stays, it was taken back, or it was not made. -/
inductive Outcome where
  | success (verdict : Verdict)
  | reverted (verdict : Verdict)
  | notMade (obstacle : Obstacle)
  deriving DecidableEq, Repr

namespace Outcome

/-- Why the edit does not stand, if it does not. -/
def failureReason? : Outcome → Option String
  | .success _ => none
  | .reverted verdict => some ("verification failed: " ++ verdict.summary)
  | .notMade obstacle => some obstacle.message

end Outcome

/-- The old content could not be put back, or what was put back is something else. -/
inductive RestoreError where
  | failed (target backup : String) (failure : Failure)
  | mismatch (target backup : String)
  deriving DecidableEq, Repr

namespace RestoreError

def message : RestoreError → String
  | .failed target backup failure => "failed to restore " ++ target ++ " from backup " ++ backup ++ ": " ++ failure.message
  | .mismatch target backup => "restored " ++ target ++ " does not match its backup " ++ backup

/-- The failure behind the error, if there is one. -/
def cause? : RestoreError → Option Failure
  | .failed _ _ failure => some failure
  | .mismatch .. => none

end RestoreError

/-- The most characters of a backup's name that tell the file. -/
def backupNameLimit : Nat := 120

/-- The name of the backup of a file at a time. -/
def backupName (file : String) (now : Timestamp) : String :=
  String.ofList (Text.slug file.toList backupNameLimit) ++ "-" ++ now.fineStamp ++ ".bak"

/-- Copies a file into the directory of backups. -/
def backUp (backups : String) (now : Timestamp) (file : RepositoryFile) (disk : Disk) : Except Obstacle String × Disk :=
  match disk.makeDirectories backups with
  | (.error e, disk) => (.error (.noBackupDirectory e), disk)
  | (.ok (), disk) =>
    let backup := Path.within backups (backupName file.relative now)
    match disk.copy file.absolute backup with
    | (.error e, disk) => (.error (.noBackup file.relative e), disk)
    | (.ok (), disk) => (.ok backup, disk)

/-- Removes a backup, if that can be done. -/
def discard (backup : String) (disk : Disk) : Disk := (disk.removeFile backup).2

/-- Puts a backup back and makes sure that the file holds what the backup holds, which is then removed. -/
def restore (target backup : String) (disk : Disk) : Except RestoreError Unit × Disk :=
  match disk.copy backup target with
  | (.error e, disk) => (.error (.failed target backup e), disk)
  | (.ok (), disk) =>
    match disk.read target with
    | (.error e, disk) => (.error (.failed target backup e), disk)
    | (.ok restored, disk) =>
      match disk.read backup with
      | (.error e, disk) => (.error (.failed target backup e), disk)
      | (.ok saved, disk) =>
        if restored = saved then (.ok (), discard backup disk) else (.error (.mismatch target backup), disk)

/-- The text that the edit makes of a file's content. -/
def edited (file : String) (r : Replacement) (content : ByteArray) : Except Obstacle String :=
  match String.fromUTF8? content with
  | none => .error (.notText file)
  | some text => (splice text r.target r.code).mapError .outside

/-- Reads the file and makes the new text. -/
def prepare (file : RepositoryFile) (r : Replacement) (disk : Disk) : Except Obstacle String × Disk :=
  match disk.read file.absolute with
  | (.error e, disk) => (.error (.unreadable file.relative e), disk)
  | (.ok content, disk) => (edited file.relative r content, disk)

/-- What came of an edit, the state of the verifier and the disk. -/
abbrev Applied (σ : Type) := Except RestoreError Outcome × σ × Disk

/-- Takes an edit back, for which there is a reason. -/
def takeBack {σ : Type} (target backup : String) (outcome : Outcome) (s : σ) (disk : Disk) : Applied σ :=
  match restore target backup disk with
  | (.ok (), disk) => (.ok outcome, s, disk)
  | (.error e, disk) => (.error e, s, disk)

/-- Has a written edit judged. -/
def judge {σ : Type} (verifier : Verifier σ) (target backup : String) (s : σ) (disk : Disk) : Applied σ :=
  let (verdict, s, disk) := verifier.verify s disk
  if verdict.passed then (.ok (.success verdict), s, discard backup disk)
  else takeBack target backup (.reverted verdict) s disk

/-- Makes an edit in a repository, and keeps it if the verifier is content. -/
def apply {σ : Type} (root backups : String) (now : Timestamp) (verifier : Verifier σ) (r : Replacement) (s : σ)
    (disk : Disk) : Applied σ :=
  match disk.tree.resolve root r.file with
  | .error refusal => (.ok (.notMade (.refused refusal)), s, disk)
  | .ok file =>
    match backUp backups now file disk with
    | (.error obstacle, disk) => (.ok (.notMade obstacle), s, disk)
    | (.ok backup, disk) =>
      match prepare file r disk with
      | (.error obstacle, disk) => (.ok (.notMade obstacle), s, discard backup disk)
      | (.ok content, disk) =>
        match disk.write file.absolute content.toUTF8 with
        | (.error e, disk) => takeBack file.absolute backup (.notMade (.unwritable file.relative e)) s disk
        | (.ok (), disk) => judge verifier file.absolute backup s disk

end GatedRepair.Edit
