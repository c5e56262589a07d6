import GatedRepair.Defect
import GatedRepair.Json.Reader
import GatedRepair.State

/-!
# The ledger of defects

All the defects of a repository in the order in which they were first seen, and the changes that repair makes to it.
-/

namespace GatedRepair

/-! ## Rows by name -/

/-- Something for each of some names, in the order of the names. -/
abbrev Rows (α : Type) := List (String × α)

/-- The rows with that of a name changed. A name without a row gets one first. -/
def Rows.change {α : Type} (name : String) (first : α) (f : α → α) : Rows α → Rows α
  | [] => [(name, f first)]
  | row :: rows =>
    if name = row.1 then (name, f row.2) :: rows
    else if name < row.1 then (name, f first) :: row :: rows
    else row :: Rows.change name first f rows

/-- The rows with one more for a name. -/
def Rows.counting (name : String) (rows : Rows Nat) : Rows Nat := rows.change name 0 (· + 1)

/-! ## Entries and changes -/

/-- The defects of a repository. -/
abbrev Ledger := List Defect

namespace Ledger

/-- The defect with an identifier; the first one, if several bear it. -/
def get? (ledger : Ledger) (id : String) : Option Defect := ledger.find? (·.id == id)

/-- Changes the first defect with an identifier. -/
def update (ledger : Ledger) (id : String) (change : Defect → Defect) : Ledger :=
  match ledger with
  | [] => []
  | d :: more => if d.id = id then change d :: more else d :: update more id change

/-- The defects that wait for a human. -/
def blocked (ledger : Ledger) : List Defect := ledger.filter (·.status == .blocked)

/-- A defect with a verified fix. -/
def withFix (details : FixDetails) (now : Timestamp) (d : Defect) : Defect :=
  { d with status := .fixed, resolution := some .verified, fix := some details, lastFailure := none, updatedAt := now }

/-- Records a verified fix. -/
def markFixed (ledger : Ledger) (id : String) (details : FixDetails) (now : Timestamp) : Ledger :=
  ledger.update id (withFix details now)

/-- A defect with one more failed attempt. It is blocked once it has had all its attempts, of which there is at
least one. -/
def withFailure (reason : String) (maxAttempts : Nat) (now : Timestamp) (d : Defect) : Defect :=
  let attempts := Number.saturatingAdd Number.bound32 d.attempts 1
  { d with
    attempts, lastFailure := some reason, updatedAt := now
    status := if max maxAttempts 1 ≤ attempts then .blocked else d.status }

/-- Records a failed attempt. -/
def recordFailure (ledger : Ledger) (id reason : String) (maxAttempts : Nat) (now : Timestamp) : Ledger :=
  ledger.update id (withFailure reason maxAttempts now)

/-- A blocked defect, open again with all its attempts before it. -/
def released (now : Timestamp) (d : Defect) : Defect :=
  if d.status = .blocked then { d with status := .unfixed, attempts := 0, updatedAt := now } else d

/-- The defect with an identifier is blocked. -/
def isBlocked (ledger : Ledger) (id : String) : Bool := (ledger.get? id).any (·.status == .blocked)

/-- Releases a blocked defect. -/
def unblock (ledger : Ledger) (id : String) (now : Timestamp) : Ledger := ledger.update id (released now)

/-- Releases all blocked defects. -/
def unblockAll (ledger : Ledger) (now : Timestamp) : Ledger := ledger.map (released now)

/-- The number of open defects with a severity. -/
def openCount (ledger : Ledger) (severity : Severity) : Nat :=
  (ledger.filter fun d => d.isOpen && d.severity == severity).length

/-- Counts over a ledger. -/
structure Statistics where
  total : Nat
  unfixed : Nat := 0
  fixed : Nat := 0
  blocked : Nat := 0
  byType : Rows Nat := []
  bySeverity : Rows Nat := []
  deriving DecidableEq, Repr

/-- The counts with one more in a state of repair. -/
def Statistics.inState (s : Statistics) : Status → Statistics
  | .unfixed => { s with unfixed := s.unfixed + 1 }
  | .fixed => { s with fixed := s.fixed + 1 }
  | .blocked => { s with blocked := s.blocked + 1 }

/-- The counts with a defect counted. -/
def Statistics.counting (s : Statistics) (d : Defect) : Statistics :=
  { s.inState d.status with
    byType := s.byType.counting d.typeName
    bySeverity := s.bySeverity.counting d.severity.name }

def statistics (ledger : Ledger) : Statistics := ledger.foldl .counting { total := ledger.length }

/-- What becomes of a defect that is found after an update. -/
theorem get?_update {change : Defect → Defect} (keeps : ∀ d, (change d).id = d.id) (ledger : Ledger) (id other : String) :
    (ledger.update id change).get? other
      = if other = id then (ledger.get? id).map change else ledger.get? other := by
  induction ledger with
  | nil => simp [update, get?]
  | cons d more ih =>
    unfold update
    by_cases h : d.id = id
    · by_cases h2 : other = id
      · simp [h, h2, get?, keeps]
      · simp [h, h2, get?, keeps, Ne.symm h2]
    · by_cases h2 : other = id
      · subst h2
        simp_all [get?]
      · by_cases h3 : d.id = other <;> simp_all [get?]

end Ledger

end GatedRepair

/-!
## Folding a collection into the ledger

A reported defect that is known is brought up to date, and opened again if it counted as fixed. A reported defect that
is not known is added. An open defect that is not reported any more counts as fixed, if its kind of tool ran cleanly.
-/

namespace GatedRepair.Ledger

/-- What a merge did to a defect that was in the ledger. -/
inductive Effect where
  | untouched
  | unchanged
  | refreshed
  | reopened
  | resolved
  deriving DecidableEq, Repr

/-- Counts of what a merge did. -/
structure MergeCounts where
  added : Nat
  refreshed : Nat
  reopened : Nat
  resolved : Nat
  unchanged : Nat
  deriving DecidableEq, Repr

/-- The merge did something. -/
def MergeCounts.changed (counts : MergeCounts) : Bool :=
  0 < counts.added + counts.refreshed + counts.reopened + counts.resolved

def MergeCounts.toJson (counts : MergeCounts) : Json :=
  .record [("added", .nat counts.added), ("refreshed", .nat counts.refreshed), ("reopened", .nat counts.reopened),
    ("resolved", .nat counts.resolved), ("unchanged", .nat counts.unchanged), ("changed", .bool counts.changed)]

/-- The defects without those whose identifier occurred before. -/
def firsts : List Defect → List Defect
  | [] => []
  | d :: more => d :: (firsts more).filter (·.id ≠ d.id)

/-- A report tells something new about a defect. -/
def differs (current fresh : Defect) : Bool :=
  current.message ≠ fresh.message || current.severity ≠ fresh.severity || current.column ≠ fresh.column

/-- A defect with what a report tells about it. -/
def refresh (now : Timestamp) (current fresh : Defect) : Defect :=
  if differs current fresh then
    { current with message := fresh.message, severity := fresh.severity, column := fresh.column, updatedAt := now }
  else current

/-- A known defect that is reported. A blocked one stays blocked. -/
def receive (now : Timestamp) (current fresh : Defect) : Defect × Effect :=
  match current.status with
  | .fixed =>
    ({ refresh now current fresh with
        status := .unfixed, resolution := none, updatedAt := now
        regressions := Number.saturatingAdd Number.bound32 current.regressions 1 }, .reopened)
  | _ => (refresh now current fresh, if differs current fresh then .refreshed else .unchanged)

/-- A known defect that is not reported. -/
def miss (scope : List DefectKind) (now : Timestamp) (current : Defect) : Defect × Effect :=
  if current.isOpen && scope.contains current.kind then
    ({ current with status := .fixed, resolution := some .inferred, updatedAt := now }, .resolved)
  else (current, .untouched)

/-- What becomes of the known defects. A report is about the last defect that bears its identifier. -/
def reconcile (fresh : List Defect) (scope : List DefectKind) (now : Timestamp) : Ledger → List (Defect × Effect)
  | [] => []
  | d :: more =>
    let outcome := match fresh.find? (·.id == d.id) with
      | none => miss scope now d
      | some f => if more.any (·.id == d.id) then (d, .untouched) else receive now d f
    outcome :: reconcile fresh scope now more

/-- A defect that was not known. -/
def opened (now : Timestamp) (d : Defect) : Defect := { d with status := .unfixed, createdAt := now, updatedAt := now }

/-- The reported defects that are not known. -/
def unknown (ledger : Ledger) (fresh : List Defect) : List Defect :=
  fresh.filter fun f => !ledger.any (·.id == f.id)

/-- The ledger with a collection folded in, and counts of what that did. -/
def merge (ledger : Ledger) (incoming : List Defect) (scope : List DefectKind) (now : Timestamp) :
    Ledger × MergeCounts :=
  let fresh := firsts incoming
  let known := reconcile fresh scope now ledger
  let new := (unknown ledger fresh).map (opened now)
  let count := fun effect => (known.filter (·.2 == effect)).length
  (known.map Prod.fst ++ new,
    ⟨new.length, count .refreshed, count .reopened, count .resolved, count .unchanged⟩)

/-!
## The ledger as a document
-/

open Json Number Files State

def Statistics.toJson (s : Statistics) : Json :=
  let counts := fun (rows : List (String × Nat)) => record (rows.map fun (name, n) => (name, .nat n))
  record [("total", .nat s.total), ("open", .nat s.unfixed), ("fixed", .nat s.fixed), ("blocked", .nat s.blocked),
    ("byType", counts s.byType), ("bySeverity", counts s.bySeverity)]

def Statistics.ofJson? (value : Json) : Option Statistics := do
  let m ← members? ["total", "open", "fixed", "blocked", "byType", "bySeverity"] value
  return {
    total := ← m.required "total" (natural? bound64)
    unfixed := ← m.required "open" (natural? bound64)
    fixed := ← m.required "fixed" (natural? bound64)
    blocked := ← m.required "blocked" (natural? bound64)
    byType := ← m.defaulted "byType" [] (dictionary? (natural? bound64))
    bySeverity := ← m.defaulted "bySeverity" [] (dictionary? (natural? bound64)) }

/-- The document that holds a ledger. -/
def document (ledger : Ledger) (now : Timestamp) : Json :=
  record [("version", .nat State.version), ("lastUpdated", .timestamp now), ("defects", ofList Defect.toJson ledger),
    ("stats", ledger.statistics.toJson)]

/-- The ledger that a document holds. The statistics have to be well formed, but are not used. -/
def ofDocument? (value : Json) : Option Ledger := do
  let m ← members? ["version", "lastUpdated", "defects", "stats"] value
  let _ ← m.required "version" (natural? bound32)
  let _ ← m.required "lastUpdated" timestamp?
  let defects ← m.defaulted "defects" [] (list? Defect.ofJson?)
  let _ ← m.defaulted "stats" (statistics []) Statistics.ofJson?
  return defects

/-- The ledger at a path. A missing or unreadable document counts as an empty ledger. -/
def load (disk : Disk) (path : String) (now : Timestamp) : Except StateError Ledger × Disk :=
  match State.load ofDocument? disk path now with
  | (.ok ledger, disk) => (.ok (ledger.getD []), disk)
  | (.error e, disk) => (.error e, disk)

def save (ledger : Ledger) (disk : Disk) (path : String) (now : Timestamp) : Except StateError Unit × Disk :=
  State.save (ledger.document now) disk path

end GatedRepair.Ledger
