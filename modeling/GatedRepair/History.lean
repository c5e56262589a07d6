import GatedRepair.Defect
import GatedRepair.Ledger
import GatedRepair.Number
import GatedRepair.Priority
import GatedRepair.State
import GatedRepair.Text.Character

/-!
# Universally unique identifiers

Written as five groups of hexadecimal digits; read with or without the hyphens, in braces or as a name of the
`urn:uuid:` space, in letters of any case.
-/

namespace GatedRepair

/-- An identifier of 128 bits. -/
structure Uuid where
  bits : BitVec 128
  deriving DecidableEq, Inhabited, Repr

namespace Uuid

open GatedRepair.Number

/-- The identifier whose bits are a number. -/
def ofNat (n : Nat) : Uuid := ⟨BitVec.ofNat 128 n⟩

/-- The digits in groups of 8, 4, 4, 4 and 12 between hyphens. -/
def text (id : Uuid) : String :=
  let digits := padded 16 32 id.bits.toNat
  String.ofList (digits.take 8 ++ '-' :: (digits.drop 8).take 4 ++ '-' :: (digits.drop 12).take 4
    ++ '-' :: (digits.drop 16).take 4 ++ '-' :: digits.drop 20)

/-- The digits without the hyphens between their groups, if these stand where they have to. -/
def withoutHyphens? (text : List Char) : Option (List Char) :=
  if text.length = 36 ∧ text[8]? = some '-' ∧ text[13]? = some '-' ∧ text[18]? = some '-' ∧ text[23]? = some '-' then
    some (text.take 8 ++ (text.drop 9).take 4 ++ (text.drop 14).take 4 ++ (text.drop 19).take 4 ++ text.drop 24)
  else none

/-- The 32 digits of a text in any of its forms. -/
def digits? (text : List Char) : Option (List Char) :=
  if text.length = 32 then some text
  else if text.length = 36 then withoutHyphens? text
  else if text.length = 38 ∧ text.head? = some '\x7b' ∧ text.getLast? = some '\x7d' then
    withoutHyphens? ((text.drop 1).take 36)
  else if text.length = 45 ∧ (text.take 9).map Text.asciiLower = "urn:uuid:".toList then withoutHyphens? (text.drop 9)
  else none

/-- The identifier that a text names. -/
def ofText? (text : String) : Option Uuid := do
  let n ← ofHexDigits? (Nat.pow 2 128) (← digits? text.toList)
  return ofNat n

end Uuid

/-!
## The history of attempts

Every attempt to fix a defect is recorded once, and no record is ever changed. The order of repair asks the history
how often attempts of a kind succeeded.
-/

/-- One attempt to fix a defect. -/
structure Attempt where
  id : Uuid
  run : Uuid
  defect : String
  typeName : String
  category : String
  strategy : String
  success : Bool
  failureReason : Option String
  time : Timestamp
  deriving DecidableEq, Repr

/-- The attempt on a defect; without a reason for failure it succeeded. -/
def Attempt.on (id run : Uuid) (d : Defect) (strategy : String) (failureReason : Option String) (time : Timestamp) :
    Attempt :=
  { id, run, defect := d.id, typeName := d.typeName, category := d.category, strategy
    success := failureReason.isNone, failureReason, time }

/-- All attempts, in the order in which they were made. -/
abbrev History := List Attempt

namespace History

open Number

/-- The share of successes, where `round` is what becomes of an exact number; a half, if there are no attempts. -/
def shareWith (round : Rat → Rat) (successes attempts : Nat) : Rat :=
  if attempts = 0 then Priority.neutralRate else round ((successes : Rat) / (attempts : Rat))

/-- The share of successes, as a number of 53 bits. -/
def share (successes attempts : Nat) : Rat := shareWith Binary64.rounded successes attempts

/-- Counts over attempts, all or those with one strategy. -/
structure StrategyCount where
  attempts : Nat := 0
  successes : Nat := 0
  deriving DecidableEq, Repr

/-- The counts with an attempt counted. -/
def StrategyCount.counting (a : Attempt) (c : StrategyCount) : StrategyCount :=
  ⟨c.attempts + 1, c.successes + if a.success then 1 else 0⟩

/-- The share of successes among the attempts on a type and category of defects. -/
def ratesWith (round : Rat → Rat) (history : History) : Priority.Rates := fun typeName category =>
  let about := history.filter fun a => a.typeName == typeName && a.category == category
  let counts := about.foldl (fun c a => c.counting a) ({} : StrategyCount)
  shareWith round counts.successes counts.attempts

/-- The shares that the order of repair goes by, as numbers of 53 bits. -/
def rates (history : History) : Priority.Rates := history.ratesWith Binary64.rounded

/-- Counts over all attempts. -/
structure Statistics where
  total : Nat
  successes : Nat := 0
  failures : Nat := 0
  byStrategy : Rows StrategyCount := []
  deriving DecidableEq, Repr

/-- The counts with an attempt counted. -/
def Statistics.counting (s : Statistics) (a : Attempt) : Statistics :=
  { s with
    byStrategy := s.byStrategy.change a.strategy {} (·.counting a)
    successes := if a.success then s.successes + 1 else s.successes
    failures := if a.success then s.failures else s.failures + 1 }

def statistics (history : History) : Statistics := history.foldl .counting { total := history.length }

def StrategyCount.rate (c : StrategyCount) : Rat := share c.successes c.attempts

def Statistics.rate (s : Statistics) : Rat := share s.successes s.total

/-- A share in percent, with a fixed number of places. -/
def percent (places : Nat) (rate : Rat) : String := fixedPlaces places (Binary64.rounded (rate * 100)) ++ "%"

/-- The statistics for people to read. -/
def Statistics.text (s : Statistics) : String :=
  let rows := s.byStrategy.map fun (name, c) =>
    "  " ++ name ++ ": " ++ c.successes.repr ++ "/" ++ c.attempts.repr ++ " (" ++ percent 0 c.rate ++ ")\n"
  "Fix attempts: " ++ s.total.repr ++ "\nSucceeded: " ++ s.successes.repr ++ " (" ++ percent 1 s.rate ++ ")\nFailed: "
    ++ s.failures.repr ++ "\n" ++ (if rows.isEmpty then "" else "\nBy strategy:\n" ++ String.join rows)

end History

/-!
## The history as a document
-/

open Json Number

namespace Attempt

def members : List String :=
  ["id", "runId", "defectId", "defectType", "category", "strategyUsed", "success", "failureReason", "timestamp"]

def toJson (a : Attempt) : Json :=
  record [("id", .text a.id.text), ("runId", .text a.run.text), ("defectId", .text a.defect),
    ("defectType", .text a.typeName), ("category", .text a.category), ("strategyUsed", .text a.strategy),
    ("success", .bool a.success), ("failureReason", ofOption .text a.failureReason), ("timestamp", .timestamp a.time)]

def ofJson? (value : Json) : Option Attempt := do
  let m ← members? members value
  return {
    id := ← m.required "id" fun v => v.text?.bind Uuid.ofText?
    run := ← m.required "runId" fun v => v.text?.bind Uuid.ofText?
    defect := ← m.required "defectId" text?
    typeName := ← m.required "defectType" text?
    category := ← m.required "category" text?
    strategy := ← m.required "strategyUsed" text?
    success := ← m.required "success" bool?
    failureReason := ← m.defaulted "failureReason" none (option? text?)
    time := ← m.required "timestamp" timestamp? }

end Attempt

namespace History

def StrategyCount.toJson (c : StrategyCount) : Json :=
  record [("attempts", .nat c.attempts), ("successes", .nat c.successes)]

def StrategyCount.ofJson? (value : Json) : Option StrategyCount := do
  let m ← members? ["attempts", "successes"] value
  return ⟨← m.required "attempts" (natural? bound64), ← m.required "successes" (natural? bound64)⟩

def Statistics.toJson (s : Statistics) : Json :=
  record [("totalAttempts", .nat s.total), ("successes", .nat s.successes), ("failures", .nat s.failures),
    ("byStrategy", record (s.byStrategy.map fun (name, c) => (name, c.toJson)))]

def Statistics.ofJson? (value : Json) : Option Statistics := do
  let m ← members? ["totalAttempts", "successes", "failures", "byStrategy"] value
  return {
    total := ← m.required "totalAttempts" (natural? bound64)
    successes := ← m.required "successes" (natural? bound64)
    failures := ← m.required "failures" (natural? bound64)
    byStrategy := ← m.defaulted "byStrategy" [] (dictionary? StrategyCount.ofJson?) }

/-- The document that holds a history. -/
def document (history : History) (now : Timestamp) : Json :=
  record [("version", .nat State.version), ("lastUpdated", .timestamp now), ("records", ofList Attempt.toJson history),
    ("stats", history.statistics.toJson)]

/-- The history that a document holds. The statistics have to be well formed, but are not used. -/
def ofDocument? (value : Json) : Option History := do
  let m ← members? ["version", "lastUpdated", "records", "stats"] value
  let _ ← m.required "version" (natural? bound32)
  let _ ← m.required "lastUpdated" timestamp?
  let records ← m.defaulted "records" [] (list? Attempt.ofJson?)
  let _ ← m.defaulted "stats" (statistics []) Statistics.ofJson?
  return records

open Files State

/-- The history at a path. A missing or unreadable document counts as an empty history. -/
def load (disk : Disk) (path : String) (now : Timestamp) : Except StateError History × Disk :=
  match State.load ofDocument? disk path now with
  | (.ok history, disk) => (.ok (history.getD []), disk)
  | (.error e, disk) => (.error e, disk)

def save (history : History) (disk : Disk) (path : String) (now : Timestamp) : Except StateError Unit × Disk :=
  State.save (history.document now) disk path

end History

end GatedRepair
