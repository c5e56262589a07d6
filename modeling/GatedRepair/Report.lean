import GatedRepair.History
import GatedRepair.Ledger
import GatedRepair.Text.Lines

/-!
# The status report

Counts over the ledger and the history, the batch that comes next, and the defects that wait for a human.
-/

namespace GatedRepair

/-- A defect of the next batch. -/
structure QueueEntry where
  id : String
  location : String
  kind : DefectKind
  severity : Severity
  score : Rat
  attempts : Nat
  message : String
  deriving DecidableEq, Repr

/-- A defect that waits for a human. -/
structure BlockedEntry where
  id : String
  location : String
  attempts : Nat
  lastFailure : Option String
  message : String
  deriving DecidableEq, Repr

/-- The status of a repository. -/
structure StatusReport where
  generatedAt : Timestamp
  defects : Ledger.Statistics
  /-- The number of open defects of critical or high severity. -/
  urgentOpen : Nat
  history : History.Statistics
  queue : List QueueEntry
  blocked : List BlockedEntry

namespace StatusReport

open Json Number Text

/-- A ranked defect as it is listed. -/
def queued? (ledger : Ledger) (ranked : Priority.Ranked) : Option QueueEntry :=
  (ledger.get? ranked.id).map fun d =>
    { id := d.id, location := d.location, kind := d.kind, severity := d.severity, score := ranked.score
      attempts := d.attempts, message := d.message }

def blockedEntry (d : Defect) : BlockedEntry :=
  { id := d.id, location := d.location, attempts := d.attempts, lastFailure := d.lastFailure, message := d.message }

def build (ledger : Ledger) (history : History) (batch : Nat) (now : Timestamp) : StatusReport where
  generatedAt := now
  defects := ledger.statistics
  urgentOpen := ledger.openCount .critical + ledger.openCount .high
  history := history.statistics
  queue := (Priority.select batch ledger history.rates).filterMap (queued? ledger)
  blocked := ledger.blocked.map blockedEntry

def QueueEntry.toJson (e : QueueEntry) : Json :=
  record [("id", .text e.id), ("location", .text e.location), ("kind", .text e.kind.name),
    ("severity", .text e.severity.name), ("score", .float (Binary64.nearest e.score)), ("attempts", .nat e.attempts),
    ("message", .text e.message)]

def BlockedEntry.toJson (e : BlockedEntry) : Json :=
  record [("id", .text e.id), ("location", .text e.location), ("attempts", .nat e.attempts),
    ("lastFailure", ofOption .text e.lastFailure), ("message", .text e.message)]

def toJson (r : StatusReport) : Json :=
  record [("generatedAt", .timestamp r.generatedAt), ("defects", r.defects.toJson), ("urgentOpen", .nat r.urgentOpen),
    ("history", r.history.toJson), ("queue", ofList QueueEntry.toJson r.queue),
    ("blocked", ofList BlockedEntry.toJson r.blocked)]

/-- A text with blanks in front of it up to a width. -/
def alignedRight (width : Nat) (text : String) : String :=
  String.ofList (List.replicate (width - text.length) ' ') ++ text

/-- Counts in a row. -/
def countsText (label : String) (rows : List (String × Nat)) : String :=
  if rows.isEmpty then ""
  else "  " ++ label ++ ": " ++ ", ".intercalate (rows.map fun (name, n) => n.repr ++ " " ++ name) ++ "\n"

def queueText (e : QueueEntry) : String :=
  "  " ++ alignedRight 8 (fixedPlaces 1 e.score) ++ "  [" ++ e.severity.name ++ "] " ++ e.location ++ " "
    ++ truncate e.message 80 ++ "\n"

def blockedText (e : BlockedEntry) : String :=
  let reason := e.lastFailure.elim "" fun text => "      last failure: " ++ truncate text 120 ++ "\n"
  "  " ++ e.id ++ "  " ++ e.location ++ " after " ++ e.attempts.repr ++ " attempts\n" ++ reason

/-- Lines below a heading, if there are any. -/
def section? (heading : String) (lines : List String) : String :=
  if lines.isEmpty then "" else "\n" ++ heading ++ "\n" ++ String.join lines

/-- The report for people to read. -/
def text (r : StatusReport) : String :=
  let s := r.defects
  let urgent := if r.urgentOpen = 0 then ""
    else "  " ++ r.urgentOpen.repr ++ " open at critical or high severity\n"
  "Defects: " ++ s.total.repr ++ " total, " ++ s.unfixed.repr ++ " open, " ++ s.fixed.repr ++ " fixed, "
    ++ s.blocked.repr ++ " blocked\n" ++ urgent ++ countsText "by severity" s.bySeverity ++ countsText "by type" s.byType
    ++ "\n" ++ r.history.text ++ section? "Next up:" (r.queue.map queueText)
    ++ section? "Blocked (run `remedy unblock <id>` after a manual look):" (r.blocked.map blockedText)

end StatusReport

end GatedRepair
