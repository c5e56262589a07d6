import GatedRepair.Files.Tree

/-!
# File operations

A disk holds a tree and the faults that are going to happen. Each operation that changes or reads the tree meets the
next fault of the plan, if one is planned: it is refused, or breaks off in the middle. A disk whose plan is empty does
all that is possible, and a machine that stops is a disk that refuses everything from then on.
-/

namespace GatedRepair.Files

/-- What befalls an operation: it does nothing, or breaks off when so many bytes have been written. -/
inductive Fault where
  | refused (failure : Failure)
  | torn (written : Nat) (failure : Failure)
  deriving DecidableEq, Repr

def Fault.failure : Fault → Failure
  | .refused failure => failure
  | .torn _ failure => failure

/-- A tree, and the faults that await the next operations. -/
structure Disk where
  tree : Tree
  plan : List (Option Fault)

/-- What came of an operation, and the disk after it. -/
abbrev Outcome (α : Type) := Except Failure α × Disk

namespace Disk

/-- A disk on which nothing goes wrong. -/
def sound (tree : Tree) : Disk := ⟨tree, []⟩

/-- The fault that the next operation meets, and the disk with the rest of the plan. -/
def meet (disk : Disk) : Option Fault × Disk :=
  match disk.plan with
  | [] => (none, disk)
  | fault :: plan => (fault, ⟨disk.tree, plan⟩)

/-- An operation that reads the tree. -/
def reading {α : Type} (disk : Disk) (look : Tree → Except Failure α) : Outcome α :=
  let (fault, disk) := disk.meet
  match fault with
  | some fault => (.error fault.failure, disk)
  | none => (look disk.tree, disk)

/-- An operation that changes the tree as a whole or not at all. -/
def changing (disk : Disk) (change : Tree → Except Failure Tree) : Outcome Unit :=
  let (fault, disk) := disk.meet
  match fault with
  | some fault => (.error fault.failure, disk)
  | none => match change disk.tree with
    | .ok tree => (.ok (), { disk with tree })
    | .error e => (.error e, disk)

def read (disk : Disk) (path : String) : Outcome ByteArray := disk.reading (·.read path)

def readText (disk : Disk) (path : String) : Outcome String := disk.reading (·.readText path)

/-- Where a file that is to be written stands or comes to stand, with its old content. -/
def writable (tree : Tree) (path : String) : Except Failure (Location × Option (ByteArray × Mode)) :=
  match tree.locate true path with
  | .ok (.found location (.file content mode)) =>
    match mode.refusal? with
    | some e => .error e
    | none => .ok (location, some (content, mode))
  | .ok (.found ..) => .error .isDirectory
  | .ok (.missing _ _ true) => .error .isDirectory
  | .ok (.missing directory name false) => .ok (directory ++ [name], none)
  | .error e => .error e

/-- Writes a file whose new content is made from the old. A file that breaks off holds the first bytes of it. -/
def writing (disk : Disk) (path : String) (make : ByteArray → ByteArray) (mode? : Option Mode) : Outcome Unit :=
  let (fault, disk) := disk.meet
  match fault with
  | some (.refused e) => (.error e, disk)
  | fault =>
    match writable disk.tree path with
    | .error e => (.error e, disk)
    | .ok (location, old) =>
      let content := make ((old.map Prod.fst).getD ByteArray.empty)
      let mode := mode?.getD ((old.map Prod.snd).getD .shared)
      match fault with
      | some (.torn written e) =>
        (.error e, { disk with tree := disk.tree.put location (.file (content.extract 0 written) mode) })
      | _ => (.ok (), { disk with tree := disk.tree.put location (.file content mode) })

/-- Gives a file new content. The file comes to be if it is missing. -/
def write (disk : Disk) (path : String) (content : ByteArray) : Outcome Unit := disk.writing path (fun _ => content) none

/-- Adds to the end of a file. The file comes to be if it is missing. -/
def append (disk : Disk) (path : String) (more : ByteArray) : Outcome Unit :=
  disk.writing path (fun old => old ++ more) none

/-- Closes a file to everybody but its owner. -/
def makePrivate (disk : Disk) (path : String) : Outcome Unit :=
  disk.changing fun tree => match tree.find? path with
    | .ok (location, .file content mode) => .ok (tree.put location (.file content mode.closed))
    | .ok _ => .ok tree
    | .error e => .error e

/-- The path names a directory entry that cannot be replaced: it ends in a dot or two. -/
def endsInDots (path : String) : Bool :=
  match (pathParts path.toList).reverse with
  | "" :: last :: _ => last = "." || last = ".."
  | last :: _ => last = "." || last = ".."
  | [] => true

/-- Moves a file or link to another path, in the place of the file or link that stands there. -/
def renameIn (tree : Tree) (source target : String) : Except Failure Tree :=
  match tree.locate false source with
  | .error e => .error e
  | .ok (.missing ..) => .error .notFound
  | .ok (.found _ .directory) => .error .isDirectory
  | .ok (.found origin entry) =>
    match tree.locate false target with
    | .error e => .error e
    | .ok spot =>
      if endsInDots target then .error .busy
      else if target.toList.getLast? = some '/' then .error .notDirectory
      else match spot with
        | .found _ .directory => .error .isDirectory
        | .found location _ => .ok (if location = origin then tree else (tree.remove origin).put location entry)
        | .missing directory name _ => .ok ((tree.remove origin).put (directory ++ [name]) entry)

def rename (disk : Disk) (source target : String) : Outcome Unit := disk.changing fun tree => renameIn tree source target

/-- Removes a file or link. -/
def removeIn (tree : Tree) (path : String) : Except Failure Tree :=
  match tree.locate false path with
  | .error e => .error e
  | .ok (.missing ..) => .error .notFound
  | .ok (.found _ .directory) => .error .isDirectory
  | .ok (.found location _) => .ok (tree.remove location)

def removeFile (disk : Disk) (path : String) : Outcome Unit := disk.changing fun tree => removeIn tree path

/-- The bytes of a file that is to be copied, and the mode of the copy. -/
def copied (tree : Tree) (path : String) : Except Failure (ByteArray × Mode) :=
  match tree.find? path with
  | .ok (_, .file content mode) => .ok (content, mode.copied)
  | .ok _ => .error .notRegular
  | .error e => .error e

/-- Copies a file with its permissions onto another path. -/
def copy (disk : Disk) (source target : String) : Outcome Unit :=
  match copied disk.tree source with
  | .error e => (.error e, disk.meet.2)
  | .ok (content, mode) => disk.writing target (fun _ => content) (some mode)

/-- Makes one directory. -/
def makeDirectoryIn (tree : Tree) (path : String) : Except Failure Tree :=
  match tree.locate false path with
  | .error e => .error e
  | .ok (.found ..) => .error .exists
  | .ok (.missing directory name _) => .ok (tree.put (directory ++ [name]) .directory)

def makeDirectory (disk : Disk) (path : String) : Outcome Unit := disk.changing fun tree => makeDirectoryIn tree path

/-- Makes the first of several directories, each of which stands in the next one, and those that it needs. -/
def makeChain (disk : Disk) : List String → Outcome Unit
  | [] => (.error .notFound, disk)
  | path :: outer =>
    match disk.makeDirectory path with
    | (.ok (), disk) => (.ok (), disk)
    | (.error .notFound, disk) =>
      match makeChain disk outer with
      | (.error e, disk) => (.error e, disk)
      | (.ok (), disk) =>
        match disk.makeDirectory path with
        | (.ok (), disk) => (.ok (), disk)
        | (.error e, disk) => (if disk.tree.isDirectory path then .ok () else .error e, disk)
    | (.error e, disk) => (if disk.tree.isDirectory path then .ok () else .error e, disk)

/-- A path and the directories around it, the nearest first. -/
def chainOf (path : List Char) : Nat → List String
  | 0 => [String.ofList path]
  | fuel + 1 =>
    String.ofList path :: match Path.directory? path with
      | some outer => chainOf outer fuel
      | none => []

/-- Makes a directory and those that it needs. -/
def makeDirectories (disk : Disk) (path : String) : Outcome Unit :=
  disk.makeChain (chainOf path.toList (pathParts path.toList).length)

end Disk

end GatedRepair.Files

/-!
## Replacing a file as a whole

The new content is written to a file beside the old one, which then takes the old one's place in one step. So the
file never holds a part of the new content.
-/

namespace GatedRepair.Files.Disk

/-- The path of the file that holds new content until it is complete. -/
def temporary (path : String) : String := String.ofList (Path.withExtension path.toList "tmp".toList)

/-- Moves the complete content into place, or else takes it away again. -/
def settle (disk : Disk) (path : String) : Outcome Unit :=
  match disk.rename (temporary path) path with
  | (.ok (), disk) => (.ok (), disk)
  | (.error e, disk) => (.error e, (disk.removeFile (temporary path)).2)

/-- Makes the directory that a path stands in. -/
def makeSurroundings (disk : Disk) (path : String) : Outcome Unit :=
  match Path.directory? path.toList with
  | none => (.ok (), disk)
  | some directory => disk.makeDirectories (String.ofList directory)

/-- Gives a file new content, or leaves it as it is. The file is closed to everybody but its owner. -/
def writeAtomic (disk : Disk) (path content : String) : Outcome Unit :=
  match disk.makeSurroundings path with
  | (.error e, disk) => (.error e, disk)
  | (.ok (), disk) =>
    match disk.write (temporary path) content.toUTF8 with
    | (.error e, disk) => (.error e, disk)
    | (.ok (), disk) => settle (disk.makePrivate (temporary path)).2 path

end GatedRepair.Files.Disk
