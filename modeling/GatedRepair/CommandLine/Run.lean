import GatedRepair.Backend
import GatedRepair.Config
import GatedRepair.Json.Document
import GatedRepair.Ledger
import GatedRepair.Number
import GatedRepair.Repair
import GatedRepair.Text.Lines
import GatedRepair.Verification

/-!
# The command line

A command line is read into what it asks for, which is done on a disk of its own. What is written there then goes to the
files outside.
-/

/-!
## Command lines

Options, arguments and what they ask for together.
-/

namespace GatedRepair.CommandLine

/-!
### Options on a command line

Options are written with two hyphens and a word or with one hyphen and a letter, and letters can share a hyphen. An
option's value follows it as the next argument, behind an equals sign, or right behind the letter.
-/

/-- An option that is known. -/
structure KnownOption where
  word : String
  letter : Option Char
  hasValue : Bool
  deriving DecidableEq, Repr

/-- What was found on a command line: options with their values, and the other arguments. -/
structure Found where
  options : List (String × String)
  others : List String
  deriving DecidableEq, Repr

namespace Found

def empty : Found := ⟨[], []⟩

/-- The value of an option that was given. -/
def value? (f : Found) (word : String) : Option String := f.options.lookup word

def has (f : Found) (word : String) : Bool := (f.value? word).isSome

/-- Adds an option, which may be given only once. -/
def add? (f : Found) (word value : String) : Option Found :=
  if f.has word then none else some { f with options := f.options ++ [(word, value)] }

end Found

/-- The argument looks like options. -/
def isOption (argument : String) : Bool := argument.startsWith "-" && argument ≠ "-"

/-- What a bundle of letters asks for: options without a value, and perhaps one that takes the rest of the bundle, if
there is a rest, or else the next argument. -/
def letters? (known : List KnownOption) : List Char → Found → Option (Found × Option String)
  | [], f => some (f, none)
  | c :: rest, f => do
    let o ← known.find? (·.letter = some c)
    if o.hasValue then
      match rest with
      | [] => return (f, some o.word)
      | '=' :: value => return (← f.add? o.word (String.ofList value), none)
      | value => return (← f.add? o.word (String.ofList value), none)
    else letters? known rest (← f.add? o.word "")

/-- What an option word asks for: an option with its value behind an equals sign, or one whose value is the next
argument. -/
def word? (known : List KnownOption) (text : List Char) (f : Found) : Option (Found × Option String) := do
  let (name, value) := match Text.splitFirst? '=' text with
    | some (name, value) => (name, some (String.ofList value))
    | none => (text, none)
  let o ← known.find? (·.word = String.ofList name)
  match o.hasValue, value with
  | false, none => return (← f.add? o.word "", none)
  | false, some _ => none
  | true, some value => return (← f.add? o.word value, none)
  | true, none => return (f, some o.word)

/-- Reads arguments. Two hyphens on their own end the options. If `stops` holds, the first argument that is no option
ends the reading, and is returned with those after it. An option that waits for its value takes the next argument,
unless that looks like an option. -/
def read? (known : List KnownOption) (stops : Bool) : Option String → Found → List String → Option (Found × List String)
  | none, f, [] => some (f, [])
  | some _, _, [] => none
  | some word, f, argument :: rest => do
    if isOption argument then none else read? known stops none (← f.add? word argument) rest
  | none, f, argument :: rest =>
    if argument = "--" then if stops then none else some ({ f with others := f.others ++ rest }, [])
    else if isOption argument then do
      let (f, waiting) ← match argument.toList with
        | '-' :: '-' :: text => word? known text f
        | text => letters? known (text.drop 1) f
      read? known stops waiting f rest
    else if stops then some (f, argument :: rest)
    else read? known stops none { f with others := f.others ++ [argument] } rest

/-!
### Invocations

What a command line asks for. One that is not understood asks for nothing.
-/

/-- What is to be done. -/
inductive Action where
  | collect (source : Option (String × String))
  | fix (batch : Option Nat)
  | run (batch : Option Nat)
  | report (json : Bool)
  | unblock (id : String)
  | unblockAll
  deriving DecidableEq, Repr

/-- An action, and the repository it is done to. -/
structure Invocation where
  repository : String
  action : Action
  deriving DecidableEq, Repr

namespace Invocation

/-- The options that can be given before and after the action. -/
def common : List KnownOption := [⟨"repo", none, true⟩, ⟨"verbose", some 'v', false⟩]

/-- A path that was given, which is not empty. -/
def path? (value : String) : Option String := if value = "" then none else some value

def batchOption : KnownOption := ⟨"batch", some 'b', true⟩

/-- The size of a batch, if one was given. -/
def batch? (f : Found) : Option (Option Nat) :=
  match f.value? "batch" with
  | none => some none
  | some text => (Number.ofSigned? Number.bound64 text.toList).map some

/-- The output that was saved, with the kind of tool it is from. The output is not given without its kind. -/
def source? (f : Found) : Option (Option (String × String)) :=
  match f.value? "from", f.value? "kind" with
  | none, _ => some none
  | some _, none => none
  | some file, some kind => (path? file).map fun file => some (file, kind)

/-- What is known about an action: its options, how many arguments it takes, and what it is. -/
structure Shape where
  options : List KnownOption
  arguments : Nat
  action? : Found → Option Action

/-- What is to be unblocked: one defect or all of them. -/
def unblocked? (f : Found) : Option Action :=
  match f.has "all", f.others with
  | true, [] => some .unblockAll
  | false, [id] => some (.unblock id)
  | _, _ => none

/-- The shape of the action with a name. -/
def shape? (name : String) : Option Shape :=
  match name with
  | "collect" => some ⟨[⟨"from", none, true⟩, ⟨"kind", none, true⟩], 0, fun f => (source? f).map .collect⟩
  | "fix" => some ⟨[batchOption], 0, fun f => (batch? f).map .fix⟩
  | "run" => some ⟨[batchOption], 0, fun f => (batch? f).map .run⟩
  | "report" => some ⟨[⟨"json", none, false⟩], 0, fun f => some (.report (f.has "json"))⟩
  | "unblock" => some ⟨[⟨"all", none, false⟩], 1, unblocked?⟩
  | _ => none

/-- What a command line asks for. Of two repositories the one after the action counts. -/
def ofArguments? (arguments : List String) : Option Invocation := do
  let (before, rest) ← read? common true none Found.empty arguments
  let name ← rest.head?
  let shape ← shape? name
  let (after, _) ← read? (common ++ shape.options) false none Found.empty (rest.drop 1)
  let action ← shape.action? after
  let repositories ← ([before, after].filterMap (·.value? "repo")).mapM path?
  if shape.arguments < after.others.length then none
  else return ⟨repositories.getLast?.getD ".", action⟩

end Invocation

/-!
## What a run needs of the outside

A run works on a disk of its own. Beforehand the files that it may look at are put there, and afterwards the changes
are made to the files outside.
-/

open Files

/-- The names of the files that are looked at in every repository. -/
def standingFiles : List String :=
  [Config.fileName, ".gitignore", ".git/HEAD", ".git/info/exclude", "Cargo.toml", "package.json", "pyproject.toml",
    "setup.py", "requirements.txt", "go.mod", "tsconfig.json"] ++ ProjectKind.styleFiles

namespace Invocation

/-- The path of the repository. -/
def root (i : Invocation) (directory : String) : String := Path.within directory i.repository

/-- The paths of the files that are looked at first. -/
def files (i : Invocation) (directory : String) : List String :=
  let saved := match i.action with
    | .collect (some (file, _)) => [Path.within directory file]
    | _ => []
  let root := i.root directory
  State.defectsPath root :: State.historyPath root :: saved ++ standingFiles.map (Path.within root)

/-- The paths of the files that the ledger names, once it is on the disk. -/
def namedFiles (i : Invocation) (directory : String) (now : Timestamp) (disk : Disk) : List String :=
  match Ledger.load disk (State.defectsPath (i.root directory)) now with
  | (.ok ledger, _) => (ledger.filterMap Defect.file).map (Path.within (i.root directory))
  | (.error _, _) => []

/-- The name of the variable that holds the key of the backend, once the settings are on the disk. -/
def keyVariable (i : Invocation) (directory : String) (disk : Disk) : String :=
  (Config.load disk.tree (i.root directory)).backend.keyVariable

end Invocation

/-- A change that is to be made outside. -/
inductive Change where
  | directory (path : String)
  | file (path : String) (content : ByteArray) (isPrivate : Bool)
  | removal (path : String)

/-- What puts an entry in its place. Links are left to those who made them. -/
def Change.putting? (location : Location) : Entry → Option Change
  | .directory => some (.directory (Tree.pathOf location))
  | .file content mode => some (.file (Tree.pathOf location) content mode.isPrivate)
  | .link _ => none

/-- The changes that lead from one tree to another: what is new or different, and then what is gone. -/
def changes (old new : Tree) : List Change :=
  (new.entries.filterMap fun (location, entry) =>
      if old.get? location = some entry then none else Change.putting? location entry)
    ++ old.entries.filterMap fun (location, _) =>
      if new.get? location = none then some (.removal (Tree.pathOf location)) else none

/-!
## Doing what a command line asks for
-/

/-- Where a command line is given: who runs commands, what is said of a text that is no document, the directory, the
variables, the way to the network, the time and fresh identifiers. -/
structure Setting (σ : Type) where
  runner : Runner
  complain : String → String
  directory : String
  lookUp : String → Option String
  transport : Except String (Transport σ)
  now : Timestamp
  run : Uuid
  ids : Nat → Uuid

/-- What is printed, and the error that comes after it. -/
structure Printed where
  out : String
  error : Option RepairError

/-- Prints a result, or else tells the error. -/
def printing {α : Type} (result : Except RepairError α) (show_ : α → String) : Printed :=
  match result with
  | .ok a => ⟨show_ a, none⟩
  | .error e => ⟨"", some e⟩

/-- The backend that the settings ask for. Without a key there is none. -/
def backendFor {σ : Type} (setting : Setting σ) (c : BackendConfig) : Backend σ :=
  match BackendConfig.keyOf? (setting.lookUp c.keyVariable) with
  | none => .unavailable σ (c.keyVariable ++ " is not set")
  | some key =>
    match Chat.backend? setting.complain ⟨key, c.model, c.baseUrl, c.timeLimit⟩ setting.transport with
    | .ok backend => backend
    | .error e => .unavailable σ e.message

/-- The checks that are set, or else those that fit the project. -/
def suiteFor (config : Config) (tree : Tree) (root : String) : Except RepairError Suite :=
  let suite := if config.checks.isEmpty then (ProjectKind.detect tree root).checks tree root else config.suite root
  if suite.isEmpty then .error (.noChecks Config.fileName) else .ok suite

/-- Who takes part in a run from the command line. -/
def participants {σ : Type} (setting : Setting σ) (config : Config) (suite : Suite) : Participants σ Unit :=
  { generator := { config.generator with callLimit := config.backend.timeLimit * 1000 }
    backend := backendFor setting config.backend
    verifier := suite.verifier setting.runner
    cancelled := fun _ _ => false
    clock := fun _ => setting.now
    ids := setting.ids }

/-- Fixes a batch and prints what came of it. -/
def fix {σ : Type} (setting : Setting σ) (suite : Suite) (r : Repair) (s : σ) (disk : Disk) : Printed × Disk :=
  let (result, scene) := Scene.fixBatch (participants setting r.config suite) ⟨r, s, (), disk, {}⟩
  (printing result BatchSummary.text, scene.disk)

/-- Collects, prints what came of it and a blank line, and fixes a batch. -/
def collectAndFix {σ : Type} (setting : Setting σ) (suite : Suite) (r : Repair) (s : σ) (disk : Disk) : Printed × Disk :=
  match r.collect setting.runner setting.now disk with
  | (.error e, _, disk) => (⟨"", some e⟩, disk)
  | (.ok summary, r, disk) =>
    let (printed, disk) := fix setting suite r s disk
    ({ printed with out := summary.text ++ "\n" ++ printed.out }, disk)

/-- Collects from a saved output. -/
def collectSaved {σ : Type} (setting : Setting σ) (file word : String) (r : Repair) (disk : Disk) : Printed × Disk :=
  match DefectKind.ofWord? word with
  | none => (⟨"", some (.unknownKind word)⟩, disk)
  | some kind =>
    match disk.readText (Path.within setting.directory file) with
    | (.error e, disk) => (⟨"", some (.unreadable file e)⟩, disk)
    | (.ok text, disk) =>
      let (result, _, disk) := r.ingest [.saved file kind text] setting.now disk
      (printing result CollectionSummary.text, disk)

/-- Works on a repository, once it is opened. -/
def withRepair {σ : Type} (setting : Setting σ) (root : String) (config : Config) (disk : Disk)
    (work : Repair → Disk → Printed × Disk) : Printed × Disk :=
  match Repair.opened disk root config setting.run setting.now with
  | (.error e, disk) => (⟨"", some e⟩, disk)
  | (.ok r, disk) => work r disk

/-- The settings with the size of a batch, if one was given. -/
def withBatch (config : Config) (batch : Option Nat) : Config :=
  match batch with
  | none => config
  | some batch => { config with batchSize := max batch 1 }

/-- Works on a repository that has checks. -/
def withSuite {σ : Type} (setting : Setting σ) (root : String) (config : Config) (disk : Disk)
    (work : Suite → Repair → Disk → Printed × Disk) : Printed × Disk :=
  match suiteFor config disk.tree root with
  | .error e => (⟨"", some e⟩, disk)
  | .ok suite => withRepair setting root config disk (work suite)

/-- Does what is to be done in a repository. -/
def perform {σ : Type} (setting : Setting σ) (root : String) (s : σ) (disk : Disk) (action : Action) : Printed × Disk :=
  let config := Config.load disk.tree root
  match action with
  | .collect (some (file, word)) => withRepair setting root config disk (collectSaved setting file word)
  | .collect none => withRepair setting root config disk fun r disk =>
    let (result, _, disk) := r.collect setting.runner setting.now disk
    (printing result CollectionSummary.text, disk)
  | .fix batch => withSuite setting root (withBatch config batch) disk fun suite r disk => fix setting suite r s disk
  | .run batch => withSuite setting root (withBatch config batch) disk fun suite r disk => collectAndFix setting suite r s disk
  | .report json => withRepair setting root config disk fun r disk =>
    let report := r.report setting.now
    (⟨if json then report.toJson.pretty ++ "\n" else report.text, none⟩, disk)
  | .unblock id => withRepair setting root config disk fun r disk =>
    match r.unblock id setting.now disk with
    | (.error e, _, disk) => (⟨"", some e⟩, disk)
    | (.ok false, _, disk) => (⟨"", some (.notBlocked id)⟩, disk)
    | (.ok true, _, disk) => (⟨"Unblocked " ++ id ++ "\n", none⟩, disk)
  | .unblockAll => withRepair setting root config disk fun r disk =>
    let (result, _, disk) := r.unblockAll setting.now disk
    (printing result fun count => "Unblocked " ++ count.repr ++ " defects\n", disk)

/-- How a command line ended: a status, and what was written to both outputs. -/
structure Ended where
  status : Nat
  out : String
  err : String

/-- How a command line that is not understood ends. -/
def misused : Ended := ⟨2, "", "usage: remedy [--repo PATH] [--verbose] collect|fix|run|report|unblock ...\n"⟩

def Printed.ended (p : Printed) : Ended :=
  match p.error with
  | none => ⟨0, p.out, ""⟩
  | some e => ⟨1, p.out, "Error: " ++ e.text ++ "\n"⟩

/-- Does what a command line asks for. -/
def run {σ : Type} (setting : Setting σ) (arguments : List String) (s : σ) (disk : Disk) : Ended × Disk :=
  match Invocation.ofArguments? arguments with
  | none => (misused, disk)
  | some invocation =>
    match disk.tree.canonical (Path.within setting.directory invocation.repository) with
    | .error e => (Printed.ended ⟨"", some (.noRepository invocation.repository e)⟩, disk)
    | .ok root =>
      let (printed, disk) := perform setting root s disk invocation.action
      (printed.ended, disk)

end GatedRepair.CommandLine
