import GatedRepair.Text.Lines

/-!
# File trees and paths

A tree is what stands at the locations of a file system, and a path is a text that leads to one of them, part by part and
through links. A path that a tool reports is accepted when it leads to a regular file below the root of the repository.
-/

/-!
## Failures of file operations
-/

namespace GatedRepair.Files

/-- Why a file operation failed. -/
inductive Failure where
  | notPermitted
  | notFound
  | denied
  | busy
  | notOpen
  | exists
  | notDirectory
  | isDirectory
  | noSpace
  | nameTooLong
  | tooManyLinks
  | zeroByte
  | notText
  | notRegular
  deriving DecidableEq, Repr

namespace Failure

/-- The failure in words. -/
def words : Failure → String
  | .notPermitted => "Operation not permitted"
  | .notFound => "No such file or directory"
  | .denied => "Permission denied"
  | .notOpen => "Bad file descriptor"
  | .busy => "Device or resource busy"
  | .exists => "File exists"
  | .notDirectory => "Not a directory"
  | .isDirectory => "Is a directory"
  | .noSpace => "No space left on device"
  | .nameTooLong => "File name too long"
  | .tooManyLinks => "Too many levels of symbolic links"
  | .zeroByte => "file name contained an unexpected NUL byte"
  | .notText => "stream did not contain valid UTF-8"
  | .notRegular => "the source path is neither a regular file nor a symlink to a regular file"

/-- The number by which the system knows the failure, if it does. -/
def number? : Failure → Option Nat
  | .notPermitted => some 1
  | .notFound => some 2
  | .denied => some 13
  | .notOpen => some 9
  | .busy => some 16
  | .exists => some 17
  | .notDirectory => some 20
  | .isDirectory => some 21
  | .noSpace => some 28
  | .nameTooLong => some 36
  | .tooManyLinks => some 40
  | .zeroByte => none
  | .notText => none
  | .notRegular => none

/-- The failure in words, with its number. -/
def message (f : Failure) : String := f.words ++ f.number?.elim "" fun n => " (os error " ++ n.repr ++ ")"

end Failure

end GatedRepair.Files

/-!
## Path texts

A path is a text whose parts are separated by slashes. Empty parts and single dots say nothing, except that a
relative path may begin with a dot. What is cut out of a path keeps its spelling.
-/

namespace GatedRepair.Path

open GatedRepair.Text

/-- What a part of a path means. -/
inductive Component where
  | root
  | current
  | parent
  | name (text : List Char)
  deriving DecidableEq, Repr

def isAbsolute (path : List Char) : Bool := path.head? == some '/'

/-- A part that says nothing. -/
def isSilent (part : List Char) : Bool := part.isEmpty || part == ['.']

/-- What a part that says something means. -/
def componentOf (part : List Char) : Component := if part = ['.', '.'] then .parent else .name part

/-- The meaning of a path, part by part. -/
def components (path : List Char) : List Component :=
  let parts := split '/' path
  let named := (parts.filter (!isSilent ·)).map componentOf
  if isAbsolute path then .root :: named
  else if parts.head? = some ['.'] then .current :: named
  else named

/-- Parts without the silent ones they begin with. -/
def dropSilent (parts : List (List Char)) : List (List Char) := parts.dropWhile isSilent

/-- Parts without the silent ones they end with. -/
def dropSilentEnd (parts : List (List Char)) : List (List Char) := (parts.reverse.dropWhile isSilent).reverse

/-- Parts as a text again. -/
def ofParts (parts : List (List Char)) : List Char := ['/'].intercalate parts

/-- The parts after the given components, if the parts begin with them. -/
def partsAfter? : List Component → List (List Char) → Option (List (List Char))
  | [], parts => some parts
  | c :: more, parts =>
    match dropSilent parts with
    | part :: rest => if componentOf part = c then partsAfter? more rest else none
    | [] => none

/-- What an absolute path is below another one. An empty base takes nothing away but silent parts at the end. -/
def below? (base path : List Char) : Option (List Char) :=
  let parts := split '/' (path.drop 1)
  match components base with
  | [] => some ('/' :: ofParts (dropSilentEnd parts))
  | .root :: named => (partsAfter? named parts).map fun rest => ofParts (dropSilentEnd (dropSilent rest))
  | _ => none

/-- The path begins with all components of the base. -/
def startsWith (path base : List Char) : Bool := (components base).isPrefixOf (components path)

/-- A path seen from a directory. An absolute path stays as it is. -/
def joined (directory path : List Char) : List Char :=
  if isAbsolute path then path
  else if directory.getLast? = some '/' ∨ directory = [] then directory ++ path
  else directory ++ '/' :: path

/-- The path that a name stands for below a directory. -/
def within (directory name : String) : String := String.ofList (joined directory.toList name.toList)

/-- The parts of a path up to the last one that says something. -/
def spoken (path : List Char) : List (List Char) := dropSilentEnd (split '/' path)

/-- The name that an absolute path ends in, unless it ends in `..` or names the root. -/
def fileName? (path : List Char) : Option (List Char) :=
  match (spoken path).getLast? with
  | none => none
  | some part => if part = ['.', '.'] then none else some part

/-- The directory that an absolute path's last part stands in; the root stands in none. -/
def directory? (path : List Char) : Option (List Char) :=
  match spoken path with
  | [] => none
  | parts => some ('/' :: ofParts (dropSilentEnd (parts.dropLast.drop 1)))

/-- A file name without its extension, and the extension. A dot at the start of the name opens none. -/
def stemAndExtension (name : List Char) : List Char × Option (List Char) :=
  match splitLast? '.' name with
  | some (front, back) => if front.isEmpty then (name, none) else (front, some back)
  | none => (name, none)

/-- An absolute path whose file name is its stem with an extension. A path without a file name stays as it is. -/
def extended (path extension : List Char) : List Char :=
  match fileName? path with
  | none => path
  | some name => ofParts ((spoken path).dropLast ++ [(stemAndExtension name).1 ++ '.' :: extension])

/-- An absolute path with another extension. The old one is cut off first, so that a path which then ends in `..` gets
none. -/
def withExtension (path extension : List Char) : List Char :=
  let old := ((fileName? path).bind fun name => (stemAndExtension name).2).getD []
  extended (path.take (path.length - old.length)) extension

/-- An absolute path with another last name. -/
def withName (path name : List Char) : List Char :=
  match fileName? path, directory? path with
  | some _, some directory => joined directory name
  | _, _ => joined path name

end GatedRepair.Path

/-!
## File trees

A tree maps locations, the names on the way down from the root, to files, directories and links. The root is always
a directory. `get?_put` and `get?_remove` say what a change does to what is found.
-/

namespace GatedRepair.Files

/-- The names on the way from the root to a place. -/
abbrev Location := List String

/-- Contents are equal if their bytes are. -/
instance (priority := 2000) decEqContent : DecidableEq ByteArray := fun a b =>
  decidable_of_iff (a.data = b.data) ⟨ByteArray.ext, congrArg ByteArray.data⟩

/-- Who may use a file. A private file is closed to everybody but its owner, a file for reading only cannot be opened for
writing, and neither can a fixed one, whatever its permissions say: the system itself answers for what it holds. -/
structure Mode where
  isPrivate : Bool
  isReadOnly : Bool
  isFixed : Bool
  deriving DecidableEq, Repr

namespace Mode

/-- A file that everybody may use. -/
def shared : Mode := ⟨false, false, false⟩

/-- What an attempt to open the file for writing is answered with, if it is refused. -/
def refusal? (mode : Mode) : Option Failure :=
  if mode.isFixed then some .notPermitted else if mode.isReadOnly then some .denied else none

/-- The mode of a copy, which has the permissions of the file, but is a file like any other. -/
def copied (mode : Mode) : Mode := { mode with isFixed := false }

/-- The mode of a file that is closed to everybody but its owner, who may write it. -/
def closed (mode : Mode) : Mode := { mode with isPrivate := true, isReadOnly := false }

theorem copied_of_free {mode : Mode} (free : mode.refusal? = none) : mode.copied = mode := by
  obtain ⟨isPrivate, isReadOnly, isFixed⟩ := mode
  cases isFixed
  · rfl
  · cases free

end Mode

/-- What stands at a location. -/
inductive Entry where
  | file (content : ByteArray) (mode : Mode)
  | directory
  | link (target : String)
  deriving DecidableEq

/-- The copy of an entry. -/
def Entry.copied : Entry → Entry
  | .file content mode => .file content mode.copied
  | other => other

/-- A tree of files. -/
structure Tree where
  entries : List (Location × Entry)

namespace Tree

def empty : Tree := ⟨[]⟩

/-- What stands at a location. -/
def get? (tree : Tree) (location : Location) : Option Entry :=
  if location = [] then some .directory else tree.entries.lookup location

/-- Puts an entry at a location in a list of entries. -/
def putEntry (location : Location) (entry : Entry) : List (Location × Entry) → List (Location × Entry)
  | [] => [(location, entry)]
  | other :: more => if location = other.1 then (location, entry) :: more else other :: putEntry location entry more

/-- The tree with an entry at a location. -/
def put (tree : Tree) (location : Location) (entry : Entry) : Tree := ⟨putEntry location entry tree.entries⟩

/-- The tree without what stands at a location. -/
def remove (tree : Tree) (location : Location) : Tree := ⟨tree.entries.filter fun other => other.1 ≠ location⟩

/-- The tree without a location and all that is below it. -/
def prune (tree : Tree) (location : Location) : Tree :=
  ⟨tree.entries.filter fun other => !location.isPrefixOf other.1⟩

/-- The entries below a location, with the names on the way to them. -/
def below (tree : Tree) (location : Location) : List (Location × Entry) :=
  tree.entries.filterMap fun (other, entry) =>
    if location.isPrefixOf other ∧ other ≠ location then some (other.drop location.length, entry) else none

theorem lookup_cons_if (other : Location) (first : Location × Entry) (more : List (Location × Entry)) :
    (first :: more).lookup other = if other = first.1 then some first.2 else more.lookup other := by
  obtain ⟨location, entry⟩ := first
  rw [List.lookup_cons]
  by_cases h : other = location
  · simp [h]
  · simp [h, beq_eq_false_iff_ne.2 h]

theorem lookup_putEntry (location other : Location) (entry : Entry) (entries : List (Location × Entry)) :
    (putEntry location entry entries).lookup other = if other = location then some entry else entries.lookup other := by
  induction entries with
  | nil => simp [putEntry, lookup_cons_if]
  | cons first more ih =>
    unfold putEntry
    split
    · next h =>
      subst h
      simp only [lookup_cons_if]
      split <;> rfl
    · next h =>
      simp only [lookup_cons_if, ih]
      by_cases h2 : other = location
      · subst h2; simp [h]
      · simp [h2]

/-- After an entry is put at a location, it is what stands there, and all else is as before. -/
theorem get?_put {location : Location} (h : location ≠ []) (tree : Tree) (entry : Entry) (other : Location) :
    (tree.put location entry).get? other = if other = location then some entry else tree.get? other := by
  unfold get? put
  by_cases h2 : other = []
  · subst h2; simp [Ne.symm h]
  · simp [h2, lookup_putEntry]

theorem lookup_filter_ne (location other : Location) (entries : List (Location × Entry)) :
    (entries.filter fun entry => entry.1 ≠ location).lookup other
      = if other = location then none else entries.lookup other := by
  induction entries with
  | nil => simp
  | cons first more ih =>
    by_cases h : first.1 = location
    · rw [List.filter_cons_of_neg (by simp [h]), ih, lookup_cons_if, h]
      by_cases h2 : other = location <;> simp [h2]
    · rw [List.filter_cons_of_pos (by simp [h]), lookup_cons_if, lookup_cons_if, ih]
      by_cases h2 : other = location
      · subst h2; simp [Ne.symm h]
      · simp [h2]

/-- After a location is removed, nothing stands there, and all else is as before. -/
theorem get?_remove {location : Location} (h : location ≠ []) (tree : Tree) (other : Location) :
    (tree.remove location).get? other = if other = location then none else tree.get? other := by
  unfold get? remove
  by_cases h2 : other = []
  · subst h2; simp [Ne.symm h]
  · simp only [h2, if_false, lookup_filter_ne]

end Tree

/-!
## Walking along a path

A path is followed part by part from the root. Links are followed on the way, but not too many of them. The last
part may be missing, and whether a link there is followed is for the caller to say.
-/

/-- Where a walk ends: at something, or at a name that is missing in a directory. -/
inductive Spot where
  | found (location : Location) (entry : Entry)
  | missing (directory : Location) (name : String) (slash : Bool)
  deriving DecidableEq

/-- The parts of a path that a walk takes. A slash at the end is an empty last part. -/
def pathParts (path : List Char) : List String :=
  let parts := Text.split '/' path
  let named := (parts.filter (!·.isEmpty)).map String.ofList
  if parts.getLast? = some [] ∧ named ≠ [] then named ++ [""] else named

/-- The most bytes in a name. -/
def nameLimit : Nat := 255

/-- The most links that are followed. -/
def linkLimit : Nat := 40

/-- Where the parts of a path lead from a place. A link's target is walked by `jump`, from a directory and with the
parts that are left. -/
def walkParts (tree : Tree) (followLast : Bool) (jump : Location → List String → Except Failure Spot) :
    Location → List String → Except Failure Spot
  | here, [] => match tree.get? here with
    | some entry => .ok (.found here entry)
    | none => .error .notFound
  | here, part :: rest =>
    match tree.get? here with
    | none => .error .notFound
    | some (.file ..) => .error .notDirectory
    | some (.link _) => .error .notDirectory
    | some .directory =>
      if part = "" ∨ part = "." then walkParts tree followLast jump here rest
      else if part = ".." then walkParts tree followLast jump here.dropLast rest
      else if nameLimit < part.utf8ByteSize then .error .nameTooLong
      else match tree.get? (here ++ [part]) with
        | none =>
          if rest.isEmpty then .ok (.missing here part false)
          else if rest = [""] then .ok (.missing here part true)
          else .error .notFound
        | some (.link target) =>
          if rest.isEmpty && !followLast then .ok (.found (here ++ [part]) (.link target))
          else
            let start := if Path.isAbsolute target.toList then [] else here
            if target.isEmpty then .error .notFound else jump start (pathParts target.toList ++ rest)
        | some _ => walkParts tree followLast jump (here ++ [part]) rest

/-- A walk that follows at most so many links. -/
def walk (tree : Tree) (followLast : Bool) : Nat → Location → List String → Except Failure Spot
  | 0 => walkParts tree followLast fun _ _ => .error .tooManyLinks
  | links + 1 => walkParts tree followLast (walk tree followLast links)

/-- Where an absolute path leads. -/
def Tree.locate (tree : Tree) (followLast : Bool) (path : String) : Except Failure Spot :=
  if path.toList.contains (Char.ofNat 0) then .error .zeroByte
  else if 4096 ≤ path.utf8ByteSize then .error .nameTooLong
  else if path.isEmpty then .error .notFound
  else walk tree followLast linkLimit [] (pathParts path.toList)

namespace Tree

/-- What an absolute path leads to, with links followed to the end. -/
def find? (tree : Tree) (path : String) : Except Failure (Location × Entry) :=
  match tree.locate true path with
  | .ok (.found location entry) => .ok (location, entry)
  | .ok (.missing ..) => .error .notFound
  | .error e => .error e

def exists? (tree : Tree) (path : String) : Bool := (tree.find? path).toOption.isSome

def isDirectory (tree : Tree) (path : String) : Bool :=
  match tree.find? path with
  | .ok (_, .directory) => true
  | _ => false

def isFile (tree : Tree) (path : String) : Bool :=
  match tree.find? path with
  | .ok (_, .file ..) => true
  | _ => false

/-- The path of a location, without any links on it. -/
def pathOf (location : Location) : String := "/" ++ "/".intercalate location

/-- The path without links of what a path leads to. -/
def canonical (tree : Tree) (path : String) : Except Failure String :=
  (tree.find? path).map fun (location, _) => pathOf location

/-- The bytes of the file that a path leads to. -/
def read (tree : Tree) (path : String) : Except Failure ByteArray :=
  match tree.find? path with
  | .ok (_, .file content _) => .ok content
  | .ok _ => .error .isDirectory
  | .error e => .error e

/-- The text of the file that a path leads to. -/
def readText (tree : Tree) (path : String) : Except Failure String :=
  match tree.read path with
  | .ok content => match String.fromUTF8? content with
    | some text => .ok text
    | none => .error .notText
  | .error e => .error e

end Tree

/-!
## Files of a repository

A path that a tool reports is accepted when it leads to a regular file below the root. A relative path may not climb,
and no link may lead outside.
-/

/-- A regular file below the root of a repository: its path without links, and that path below the root. -/
structure RepositoryFile where
  absolute : String
  relative : String
  deriving DecidableEq, Repr

/-- Why a path is not accepted. -/
inductive Refusal where
  | empty
  | noRoot (failure : Failure)
  | climbs (path : String)
  | missing (path : String)
  | outside (path : String)
  | irregular (path : String)
  deriving DecidableEq, Repr

def Refusal.message : Refusal → String
  | .empty => "Path is empty"
  | .noRoot failure => "Failed to resolve repo root: " ++ failure.message
  | .climbs path => "Parent traversal is not allowed: " ++ path
  | .missing path => "File does not exist: " ++ path
  | .outside path => "Path escapes repository: " ++ path
  | .irregular path => "Not a regular file: " ++ path

/-- The file that a location holds, if it lies below the root. -/
def RepositoryFile.below (root : Location) (path : String) (location : Location) (entry : Entry) :
    Except Refusal RepositoryFile :=
  if root.isPrefixOf location then
    match entry with
    | .file .. => .ok ⟨Tree.pathOf location, "/".intercalate (location.drop root.length)⟩
    | _ => .error (.irregular path)
  else .error (.outside path)

/-- The file of a repository that a path leads to. -/
def Tree.resolve (tree : Tree) (root path : String) : Except Refusal RepositoryFile :=
  if path = "" then .error .empty
  else match tree.find? root with
    | .error e => .error (.noRoot e)
    | .ok (rootLocation, _) =>
      if !Path.isAbsolute path.toList && (Path.components path.toList).contains .parent then .error (.climbs path)
      else
        let joined := Path.joined (Tree.pathOf rootLocation).toList path.toList
        match tree.find? (String.ofList joined) with
        | .error _ => .error (.missing path)
        | .ok (location, entry) => RepositoryFile.below rootLocation path location entry

end GatedRepair.Files
