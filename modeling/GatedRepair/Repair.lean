import GatedRepair.Config
import GatedRepair.Edit
import GatedRepair.History
import GatedRepair.Ledger
import GatedRepair.Report

/-!
# Repair of a repository

Defects are collected, fixed one at a time and recorded, and whatever changes is saved before the next step.
-/

/-!
## What stops a command

Each error is told by a message and the causes behind it.
-/

namespace GatedRepair

open State

/-- Why a command on a repository came to nothing. -/
inductive RepairError where
  | noRepository (path : String) (failure : Files.Failure)
  | defectsUnread (cause : StateError)
  | historyUnread (cause : StateError)
  | noStateDirectory (cause : StateError)
  | defectsUnsaved (cause : StateError)
  | historyUnsaved (cause : StateError)
  | noProducers (root : String)
  | noChecks (settings : String)
  | notRestored (defect : String) (cause : Edit.RestoreError)
  | unknownKind (word : String)
  | unreadable (path : String) (failure : Files.Failure)
  | notBlocked (defect : String)
  deriving DecidableEq, Repr

namespace RepairError

/-- A message with the error of a state file behind it. -/
def overState (message : String) (cause : StateError) : List String := [message, cause.message, cause.failure.message]

/-- The message and the messages of the causes, each behind the one before it. -/
def chain : RepairError → List String
  | .noRepository path failure => ["Repository not found: " ++ path, failure.message]
  | .defectsUnread cause => overState "Failed to load defect store" cause
  | .historyUnread cause => overState "Failed to load fix history" cause
  | .noStateDirectory cause => overState "Failed to prepare state directory" cause
  | .defectsUnsaved cause => overState "Failed to save defect store" cause
  | .historyUnsaved cause => overState "Failed to save fix history" cause
  | .noProducers root => ["No diagnostic producers configured in remedy.toml and none detected for " ++ root]
  | .noChecks settings =>
    ["No verification commands: add [[verification]] entries to " ++ settings ++ " (project type not detected)"]
  | .notRestored defect cause =>
    ("Rollback failed while fixing " ++ defect) :: cause.message :: cause.cause?.toList.map Files.Failure.message
  | .unknownKind word =>
    ["Unknown producer kind '" ++ word ++ "' (expected type_check, static_analysis or test_failure)"]
  | .unreadable path failure => ["Failed to read " ++ path, failure.message]
  | .notBlocked defect => [defect ++ " is not a blocked defect"]

/-- A text of which all lines but the first begin with some blanks. -/
def indented (blanks : String) (text : String) : String :=
  ("\n" ++ blanks).intercalate ((Text.split '\n' text.toList).map String.ofList)

/-- The error for people to read: the message and, after a blank line, the causes, numbered if there are several. -/
def text (e : RepairError) : String :=
  match e.chain with
  | [] => ""
  | [message] => message
  | [message, cause] => message ++ "\n\nCaused by:\n    " ++ indented "    " cause
  | message :: causes =>
    let rows := causes.zipIdx.map fun (cause, i) => "\n    " ++ i.repr ++ ": " ++ indented "       " cause
    message ++ "\n\nCaused by:" ++ String.join rows

end RepairError

end GatedRepair

/-!
## Work on a repository

The ledger and the history are loaded when the work begins. Every change to them is saved before the next step, so that
opening the repository again gives what is held here.
-/

namespace GatedRepair

open Files

/-- A repository that is being worked on, by a run with an identifier of its own. -/
structure Repair where
  root : String
  config : Config
  ledger : Ledger
  history : History
  run : Uuid

/-- What came of collecting. -/
structure CollectionSummary where
  counts : Ledger.MergeCounts
  collection : Collection

namespace CollectionSummary

/-- One producer's run on a line. -/
def runText (run : ProducerRun) : String :=
  "  " ++ run.name ++ " (" ++ run.kind.name ++ "): " ++ run.defects.repr ++ " defects"
    ++ (if run.clean then "" else " [not trusted]") ++ "\n"

def countsText (c : Ledger.MergeCounts) : String :=
  "Added " ++ c.added.repr ++ ", refreshed " ++ c.refreshed.repr ++ ", reopened " ++ c.reopened.repr ++ ", resolved "
    ++ c.resolved.repr ++ ", unchanged " ++ c.unchanged.repr ++ "\n"

/-- The summary for people to read. -/
def text (s : CollectionSummary) : String :=
  String.join (s.collection.runs.map runText) ++ countsText s.counts
    ++ String.join (s.collection.warnings.map fun warning => "  warning: " ++ warning ++ "\n")

end CollectionSummary

namespace Repair

/-- Begins to work on the repository at a path. -/
def opened (disk : Disk) (path : String) (config : Config) (run : Uuid) (now : Timestamp) :
    Except RepairError Repair × Disk :=
  match disk.tree.canonical path with
  | .error e => (.error (.noRepository path e), disk)
  | .ok root =>
    match Ledger.load disk (State.defectsPath root) now with
    | (.error e, disk) => (.error (.defectsUnread e), disk)
    | (.ok ledger, disk) =>
      match History.load disk (State.historyPath root) now with
      | (.error e, disk) => (.error (.historyUnread e), disk)
      | (.ok history, disk) => (.ok { root, config, ledger, history, run }, disk)

/-- Saves the ledger and the history. -/
def save (r : Repair) (disk : Disk) (now : Timestamp) : Except RepairError Unit × Disk :=
  match State.ensure disk r.root with
  | (.error e, disk) => (.error (.noStateDirectory e), disk)
  | (.ok (), disk) =>
    match r.ledger.save disk (State.defectsPath r.root) now with
    | (.error e, disk) => (.error (.defectsUnsaved e), disk)
    | (.ok (), disk) =>
      match r.history.save disk (State.historyPath r.root) now with
      | (.error e, disk) => (.error (.historyUnsaved e), disk)
      | (.ok (), disk) => (.ok (), disk)

/-- What an operation gives: a result or an error, the work as it is then, and the disk. -/
abbrev Step (α : Type) := Except RepairError α × Repair × Disk

/-- Saves the work before a result is given. -/
def saving {α : Type} (r : Repair) (disk : Disk) (now : Timestamp) (result : α) : Step α :=
  match r.save disk now with
  | (.ok (), disk) => (.ok result, r, disk)
  | (.error e, disk) => (.error e, r, disk)

/-- Folds what tools printed into the ledger. -/
def ingest (r : Repair) (outputs : List ProducerOutput) (now : Timestamp) (disk : Disk) : Step CollectionSummary :=
  let canonical := fun path => (disk.tree.canonical path).toOption
  let collection := Collection.ofOutputs .standard r.root canonical now outputs
  let (ledger, counts) := r.ledger.merge collection.defects collection.scope now
  saving { r with ledger } disk now ⟨counts, collection⟩

/-- The producers that are set, or else those that fit the project. -/
def producers (r : Repair) (tree : Tree) : List Producer :=
  if r.config.producers.isEmpty then Producer.defaults (ProjectKind.detect tree r.root) else r.config.producers

/-- Runs the producers and folds what they print into the ledger. -/
def collect (r : Repair) (runner : Runner) (now : Timestamp) (disk : Disk) : Step CollectionSummary :=
  let producers := r.producers disk.tree
  if producers.isEmpty then (.error (.noProducers r.root), r, disk)
  else
    let (outputs, disk) := Producer.runAll runner r.root producers disk
    r.ingest outputs now disk

/-- Releases a blocked defect, and tells whether it was blocked. -/
def unblock (r : Repair) (id : String) (now : Timestamp) (disk : Disk) : Step Bool :=
  if r.ledger.isBlocked id then saving { r with ledger := r.ledger.unblock id now } disk now true
  else (.ok false, r, disk)

/-- Releases all blocked defects, and tells how many there were. -/
def unblockAll (r : Repair) (now : Timestamp) (disk : Disk) : Step Nat :=
  let count := r.ledger.blocked.length
  if 0 < count then saving { r with ledger := r.ledger.unblockAll now } disk now count
  else (.ok 0, r, disk)

def report (r : Repair) (now : Timestamp) : StatusReport := .build r.ledger r.history r.config.batchSize now

end Repair

/-!
## Fixing a batch of defects

Defects are taken one at a time in the order of repair, which is worked out anew for each of them. For each one a fix is
proposed, applied and judged, and what came of it is recorded and saved before the next one is taken.
-/

/-- What came of the attempt on a defect. -/
inductive AttemptResult where
  | fixed
  | reverted
  | failedToApply
  | skipped
  deriving DecidableEq, Repr

namespace AttemptResult

def name : AttemptResult → String
  | .fixed => "fixed"
  | .reverted => "reverted"
  | .failedToApply => "failed_to_apply"
  | .skipped => "skipped"

/-- The attempt was charged, but brought no fix. -/
def isFailure : AttemptResult → Bool
  | .reverted | .failedToApply => true
  | .fixed | .skipped => false

end AttemptResult

/-- The attempt on one defect. A blocked defect waits for a human from then on. -/
structure DefectOutcome where
  defect : String
  location : String
  result : AttemptResult
  detail : String
  blocked : Bool
  deriving DecidableEq, Repr

/-- What is counted while a batch goes on. -/
structure BatchCounts where
  fixed : Nat := 0
  failed : Nat := 0
  blocked : Nat := 0
  skipped : Nat := 0
  deriving DecidableEq, Repr

namespace BatchCounts

def withFix (c : BatchCounts) : BatchCounts := { c with fixed := c.fixed + 1 }

/-- A failure more, after which the defect may be blocked. -/
def withFailure (c : BatchCounts) (blocked : Bool) : BatchCounts :=
  { c with failed := c.failed + 1, blocked := if blocked then c.blocked + 1 else c.blocked }

def withSkip (c : BatchCounts) : BatchCounts := { c with skipped := c.skipped + 1 }

end BatchCounts

/-- The attempts of a batch, what was counted on the way, and whether it was called off. -/
structure BatchSummary extends BatchCounts where
  outcomes : List DefectOutcome
  cancelled : Bool
  deriving DecidableEq, Repr

namespace BatchSummary

/-- The attempts after which a defect was blocked. -/
def blocking (s : BatchSummary) : List DefectOutcome := s.outcomes.filter (·.blocked)

/-- The summary for people to read. -/
def text (s : BatchSummary) : String :=
  let row := fun (o : DefectOutcome) => "  " ++ o.defect ++ " " ++ o.location ++ ": " ++ o.detail ++ "\n"
  "Fixed " ++ s.fixed.repr ++ ", failed " ++ s.failed.repr ++ ", blocked " ++ s.blocked.repr ++ ", skipped "
    ++ s.skipped.repr ++ "\n"
    ++ (if s.cancelled then "Run cancelled before the batch finished.\n" else "")
    ++ (if s.blocking.isEmpty then "" else "\nNeeds manual attention:\n" ++ String.join (s.blocking.map row))

def DefectOutcome.toJson (o : DefectOutcome) : Json :=
  .record [("defectId", .text o.defect), ("location", .text o.location), ("result", .text o.result.name),
    ("detail", .text o.detail), ("blocked", .bool o.blocked)]

def toJson (s : BatchSummary) : Json :=
  .record [("attempted", .nat s.outcomes.length), ("fixed", .nat s.fixed), ("failed", .nat s.failed),
    ("blocked", .nat s.blocked), ("skipped", .nat s.skipped), ("cancelled", .bool s.cancelled),
    ("blockedIds", .ofList (fun (o : DefectOutcome) => .text o.defect) s.blocking),
    ("outcomes", .ofList DefectOutcome.toJson s.outcomes)]

end BatchSummary

/-- Who takes part in a run, whether it is called off after so many attempts, and at what time and under what identifier
each attempt is recorded. -/
structure Participants (σ τ : Type) where
  generator : Generator
  backend : Backend σ
  verifier : Verifier τ
  cancelled : τ → Nat → Bool
  clock : Nat → Timestamp
  ids : Nat → Uuid

/-- All that a run changes. -/
structure Scene (σ τ : Type) where
  repair : Repair
  asked : σ
  judged : τ
  disk : Disk
  counts : BatchCounts

namespace Scene

/-- The next defect that was not attempted yet. -/
def next? {σ τ : Type} (s : Scene σ τ) (attempted : List String) : Option Defect :=
  let left := s.repair.ledger.filter fun d => !attempted.contains d.id
  (Priority.rank left s.repair.history.rates).head?.bind fun first => s.repair.ledger.get? first.id

/-- Records that a defect was fixed. -/
def recordFix {σ τ : Type} (s : Scene σ τ) (d : Defect) (c : Candidate) (agreement : Nat) (id : Uuid) (now : Timestamp) :
    DefectOutcome × Scene σ τ :=
  let r := s.repair
  let details : FixDetails := ⟨c.strategy.name, c.approach, c.confidence, agreement, now⟩
  let repair := { r with
    ledger := r.ledger.markFixed d.id details now
    history := r.history ++ [Attempt.on id r.run d c.strategy.name none now] }
  (⟨d.id, d.location, .fixed, c.approach ++ " via " ++ c.strategy.name, false⟩, { s with repair, counts := s.counts.withFix })

/-- Records that an attempt failed for a reason. -/
def recordFailure {σ τ : Type} (s : Scene σ τ) (d : Defect) (c : Candidate) (result : AttemptResult) (reason : String)
    (id : Uuid) (now : Timestamp) : DefectOutcome × Scene σ τ :=
  let r := s.repair
  let repair := { r with
    ledger := r.ledger.recordFailure d.id reason r.config.maxAttempts now
    history := r.history ++ [Attempt.on id r.run d c.strategy.name (some reason) now] }
  let blocked := repair.ledger.isBlocked d.id
  (⟨d.id, d.location, result, reason, blocked⟩, { s with repair, counts := s.counts.withFailure blocked })

/-- Records what came of applying a candidate. -/
def record {σ τ : Type} (s : Scene σ τ) (d : Defect) (c : Candidate) (agreement : Nat) (outcome : Edit.Outcome)
    (id : Uuid) (now : Timestamp) : DefectOutcome × Scene σ τ :=
  match outcome with
  | .success _ => s.recordFix d c agreement id now
  | .reverted _ => s.recordFailure d c .reverted (outcome.failureReason?.getD "") id now
  | .notMade _ => s.recordFailure d c .failedToApply (outcome.failureReason?.getD "") id now

/-- The edit that a candidate asks for, if the defect's file was shown and there is code. -/
def replacement? (context : FixContext) (c : Candidate) : Option Edit.Replacement := do
  let excerpt ← context.excerpt
  let code ← c.extracted
  return ⟨excerpt.path, excerpt.window.editTarget, code.code⟩

/-- Applies a candidate. -/
def applyCandidate {σ τ : Type} (p : Participants σ τ) (s : Scene σ τ) (context : FixContext) (c : Candidate)
    (now : Timestamp) : Except Edit.RestoreError Edit.Outcome × Scene σ τ :=
  match replacement? context c with
  | none => (.ok (.notMade .noTarget), s)
  | some r =>
    let root := s.repair.root
    let (outcome, judged, disk) := Edit.apply root (State.backupsPath root) now p.verifier r s.judged s.disk
    (outcome, { s with judged, disk })

/-- What is told of a defect for which no candidate could be used. -/
def skipDetail (reasons : List String) : String :=
  if reasons.isEmpty then "no usable candidate" else "; ".intercalate reasons

/-- Attempts to fix a defect, as the attempt with a number. -/
def attempt {σ τ : Type} (p : Participants σ τ) (s : Scene σ τ) (number : Nat) (d : Defect) :
    Except RepairError DefectOutcome × Scene σ τ :=
  let (proposal, asked) := p.generator.propose p.backend s.asked s.disk.tree s.repair.root d
  let s := { s with asked }
  match proposal.consensus with
  | .failed reasons =>
    (.ok ⟨d.id, d.location, .skipped, skipDetail reasons, false⟩, { s with counts := s.counts.withSkip })
  | .selected c agreement =>
    match applyCandidate p s proposal.context c (p.clock number) with
    | (.error e, s) => (.error (.notRestored d.id e), s)
    | (.ok outcome, s) =>
      let (outcome, s) := s.record d c agreement outcome (p.ids number) (p.clock number)
      (.ok outcome, s)

/-- Attempts a defect and saves the work. -/
def attemptAndSave {σ τ : Type} (p : Participants σ τ) (s : Scene σ τ) (number : Nat) (d : Defect) :
    Except RepairError DefectOutcome × Scene σ τ :=
  match s.attempt p number d with
  | (.error e, s) => (.error e, s)
  | (.ok outcome, s) =>
    match s.repair.save s.disk (p.clock number) with
    | (.error e, disk) => (.error e, { s with disk })
    | (.ok (), disk) => (.ok outcome, { s with disk })

/-- Attempts as many more defects, after those with the outcomes given. -/
def fixMore {σ τ : Type} (p : Participants σ τ) (done : List DefectOutcome) :
    Nat → Scene σ τ → Except RepairError BatchSummary × Scene σ τ
  | 0, s => (.ok ⟨s.counts, done, false⟩, s)
  | left + 1, s =>
    if p.cancelled s.judged done.length then (.ok ⟨s.counts, done, true⟩, s)
    else match s.next? (done.map (·.defect)) with
      | none => (.ok ⟨s.counts, done, false⟩, s)
      | some d =>
        match s.attemptAndSave p done.length d with
        | (.error e, s) => (.error e, s)
        | (.ok outcome, s) => fixMore p (done ++ [outcome]) left s

/-- The same with nothing counted yet. -/
def uncounted {σ τ : Type} (s : Scene σ τ) : Scene σ τ := { s with counts := {} }

/-- Attempts a batch of defects. -/
def fixBatch {σ τ : Type} (p : Participants σ τ) (s : Scene σ τ) : Except RepairError BatchSummary × Scene σ τ :=
  fixMore p [] (Priority.batchSize s.repair.config.batchSize) s.uncounted

end Scene

end GatedRepair
