import GatedRepair.Files.Disk
import GatedRepair.Json.Document
import GatedRepair.Json.Reader
import GatedRepair.Text.Character
import GatedRepair.Text.Lines
import GatedRepair.Time

/-!
# What is kept in a repository
-/

/-!
## The state directory

Where the program keeps its state in a repository, and keeping that place out of version control.
-/

namespace GatedRepair.State

open GatedRepair.Files

/-- A state file could not be read or written. -/
inductive StateError where
  | read (path : String) (failure : Failure)
  | write (path : String) (failure : Failure)
  deriving DecidableEq, Repr

namespace StateError

def failure : StateError → Failure
  | .read _ failure => failure
  | .write _ failure => failure

def message : StateError → String
  | .read path failure => "failed to read " ++ path ++ ": " ++ failure.message
  | .write path failure => "failed to write " ++ path ++ ": " ++ failure.message

end StateError

def directoryName : String := ".remedy"

def directory (root : String) : String := Path.within root directoryName

def defectsPath (root : String) : String := Path.within (directory root) "defects.json"

def historyPath (root : String) : String := Path.within (directory root) "fix_history.json"

def backupsPath (root : String) : String := Path.within (directory root) "backups"

/-- The line that keeps the state directory out of version control. -/
def ignoreLine : String := directoryName ++ "/"

/-- The text of an ignore file keeps the state directory out already. -/
def isIgnored (content : String) : Bool :=
  (Text.lines content.toList).any fun line =>
    let line := String.ofList (Text.trim line)
    line = ignoreLine || line = directoryName

/-- What has to follow the text of an ignore file. A line that was left open is closed first. -/
def ignoreAddition (content : String) : String :=
  let opening := if !Text.allBlank content.toList && !Text.endsInNewline content.toList then "\n" else ""
  opening ++ "# remedy state\n" ++ ignoreLine ++ "\n"

/-- Adds the state directory to an ignore file, unless it is there. What cannot be read counts as empty. -/
def addToIgnoreFile (disk : Disk) (path : String) : Disk :=
  let (read, disk) := disk.readText path
  let content := read.toOption.getD ""
  if isIgnored content then disk else (disk.append path (ignoreAddition content).toUTF8).2

/-- Keeps the state directory out of version control, as far as that can be done. -/
def ensureIgnored (disk : Disk) (root : String) : Disk :=
  let ignoreFile := Path.within root ".gitignore"
  let gitDirectory := Path.within root ".git"
  if disk.tree.exists? ignoreFile then addToIgnoreFile disk ignoreFile
  else if disk.tree.isDirectory gitDirectory then
    let info := Path.within gitDirectory "info"
    match disk.makeDirectories info with
    | (.ok (), disk) => addToIgnoreFile disk (Path.within info "exclude")
    | (.error _, disk) => disk
  else disk

/-- Makes the state directory and keeps it out of version control. -/
def ensure (disk : Disk) (root : String) : Except StateError Unit × Disk :=
  if disk.tree.exists? (directory root) then (.ok (), ensureIgnored disk root)
  else match disk.makeDirectories (directory root) with
    | (.ok (), disk) => (.ok (), ensureIgnored disk root)
    | (.error e, disk) => (.error (.write (directory root) e), disk)

/-!
## State documents

A state document is one JSON text in a file. A file that holds no such document is moved aside and counts as missing.
-/

/-- The version that is written into every document. -/
def version : Nat := 1

/-- The path to which a file without a document is moved. -/
def asidePath? (path : String) (now : Timestamp) : Option String :=
  (Path.fileName? path.toList).map fun name =>
    String.ofList (Path.withName path.toList (name ++ ".corrupt-".toList ++ now.stamp.toList))

/-- Moves a file without a document aside, if that can be done. -/
def setAside (disk : Disk) (path : String) (now : Timestamp) : Disk :=
  match asidePath? path now with
  | none => disk
  | some aside => (disk.rename path aside).2

/-- The document at a path, if there is one. -/
def load {α : Type} (ofJson? : Json → Option α) (disk : Disk) (path : String) (now : Timestamp) :
    Except StateError (Option α) × Disk :=
  match disk.readText path with
  | (.error .notFound, disk) => (.ok none, disk)
  | (.error e, disk) => (.error (.read path e), disk)
  | (.ok text, disk) =>
    match (Json.parse? text).bind ofJson? with
    | some document => (.ok (some document), disk)
    | none => (.ok none, setAside disk path now)

/-- Writes a document. -/
def save (document : Json) (disk : Disk) (path : String) : Except StateError Unit × Disk :=
  match disk.writeAtomic path document.pretty with
  | (.ok (), disk) => (.ok (), disk)
  | (.error e, disk) => (.error (.write path e), disk)

end GatedRepair.State
