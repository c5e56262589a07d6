import GatedRepair.Files.Tree
import GatedRepair.Json.Document
import GatedRepair.Number
import GatedRepair.Text.Character
import GatedRepair.Text.Lines
import GatedRepair.Time

/-!
# Kinds and severities of defects

A defect's kind is the kind of tool that reported it.
-/

namespace GatedRepair

/-- The kind of tool that reports a defect. -/
inductive DefectKind where
  | typeCheck
  | staticAnalysis
  | testFailure
  deriving DecidableEq, Repr, Inhabited

namespace DefectKind

/-- The kinds in the order of their rank. -/
def all : List DefectKind := [.typeCheck, .staticAnalysis, .testFailure]

def name : DefectKind → String
  | .typeCheck => "type_check"
  | .staticAnalysis => "static_analysis"
  | .testFailure => "test_failure"

/-- The mark at the start of the identifiers of a kind. -/
def mark : DefectKind → String
  | .typeCheck => "ts"
  | .staticAnalysis => "lint"
  | .testFailure => "test"

/-- The place in the order of repair: types first, tests last. -/
def rank : DefectKind → Nat
  | .typeCheck => 0
  | .staticAnalysis => 1
  | .testFailure => 2

/-- The kind with exactly this name. -/
def ofName? (text : String) : Option DefectKind := all.find? (·.name == text)

/-- The kind that a user means by a word. Case and surrounding blanks do not count, and a hyphen is as good as a
low line. -/
def ofWord? (text : String) : Option DefectKind :=
  let word := String.ofList ((Text.trim text.toList).map fun c => if c = '-' then '_' else Text.asciiLower c)
  if ["type_check", "typecheck", "types"].contains word then some .typeCheck
  else if ["static_analysis", "lint", "analysis"].contains word then some .staticAnalysis
  else if ["test_failure", "test", "tests"].contains word then some .testFailure
  else none

theorem ofName?_name (kind : DefectKind) : ofName? kind.name = some kind := by cases kind <;> decide

theorem name_injective {left right : DefectKind} (h : left.name = right.name) : left = right := by
  cases left <;> cases right <;> simp_all [name]

end DefectKind

/-! ## Severities -/

/-- How bad a defect is, the worst first. -/
inductive Severity where
  | critical
  | high
  | medium
  | low
  deriving DecidableEq, Repr, Inhabited

namespace Severity

def all : List Severity := [.critical, .high, .medium, .low]

def name : Severity → String
  | .critical => "critical"
  | .high => "high"
  | .medium => "medium"
  | .low => "low"

/-- The place in the order of repair. -/
def rank : Severity → Nat
  | .critical => 0
  | .high => 1
  | .medium => 2
  | .low => 3

/-- The severity with exactly this name. -/
def ofName? (text : String) : Option Severity := all.find? (·.name == text)

/-- The severity that a tool means by a word. Case and surrounding blanks do not count, and an unknown word
means the least severity. -/
def ofWord (text : String) : Severity :=
  let word := Text.asciiLowered (Text.trimmed text)
  if ["fatal", "critical", "blocker"].contains word then .critical
  else if ["error", "high", "major"].contains word then .high
  else if ["warning", "warn", "medium"].contains word then .medium
  else .low

theorem ofName?_name (severity : Severity) : ofName? severity.name = some severity := by cases severity <;> decide

end Severity

/-!
## Defects

A defect is one problem that a tool reported, with its place, its state of repair and what became of the
attempts to fix it.
-/

/-!
### Identity of defects

Two reports are about the same defect when they come from the same kind of tool and point at the same line of
the same file. A report without a line is told apart by its anchor, the rule or message that it gives.
-/

/-- The identifier of a defect, from its kind, its place and its anchor. -/
def defectId (kind : DefectKind) (file : Option String) (line : Option Nat) (anchor : String) : String :=
  let mark := kind.mark.toList ++ ['-']
  String.ofList <| match file, line with
    | some file, some line => mark ++ Text.segment file ++ '-' :: 'L' :: Nat.toDigits 10 line
    | some file, none => mark ++ Text.segment file ++ '-' :: Text.segment anchor
    | none, _ => mark ++ Text.segment anchor

/-! ### States of repair -/

/-- The state of repair. A blocked defect waits for a human. -/
inductive Status where
  | unfixed
  | fixed
  | blocked
  deriving DecidableEq, Repr, Inhabited

/-- How a defect came to be fixed: a fix passed its verification, or the tool no longer reports it. -/
inductive Resolution where
  | verified
  | inferred
  deriving DecidableEq, Repr, Inhabited

namespace Status

def all : List Status := [.unfixed, .fixed, .blocked]

def name : Status → String
  | .unfixed => "open"
  | .fixed => "fixed"
  | .blocked => "blocked"

def ofName? (text : String) : Option Status := all.find? (·.name == text)

end Status

namespace Resolution

def all : List Resolution := [.verified, .inferred]

def name : Resolution → String
  | .verified => "verified"
  | .inferred => "inferred"

def ofName? (text : String) : Option Resolution := all.find? (·.name == text)

end Resolution

/-- The fix that was accepted for a defect. `agreement` counts the candidates with the same approach. -/
structure FixDetails where
  strategy : String
  approach : String
  confidence : Number.Binary64
  agreement : Nat
  fixedAt : Timestamp
  deriving DecidableEq, Repr

/-- A problem that a tool reported. -/
structure Defect where
  id : String
  kind : DefectKind
  severity : Severity
  file : Option String
  line : Option Nat
  column : Option Nat
  rule : Option String
  message : String
  status : Status
  attempts : Nat
  createdAt : Timestamp
  updatedAt : Timestamp
  fix : Option FixDetails
  resolution : Option Resolution
  regressions : Nat
  lastFailure : Option String
  deriving DecidableEq, Repr

namespace Defect

/-- What tells a defect without a line apart: its rule, or else its message. -/
def anchor (d : Defect) : String := d.rule.getD d.message

/-- The defect with the identifier that its fields give. -/
def identified (d : Defect) : Defect := { d with id := defectId d.kind d.file d.line d.anchor }

/-- A new open defect. -/
def new (kind : DefectKind) (severity : Severity) (file : Option String) (line : Option Nat) (message : String)
    (now : Timestamp) : Defect :=
  identified
    { id := "", kind, severity, file, line, column := none, rule := none, message, status := .unfixed, attempts := 0,
      createdAt := now, updatedAt := now, fix := none, resolution := none, regressions := 0, lastFailure := none }

/-- The defect with a column. -/
def withColumn (d : Defect) (column : Option Nat) : Defect := { d with column }

/-- The defect with the rule that was broken. A blank rule is none. -/
def withRule (d : Defect) (rule : Option String) : Defect :=
  identified { d with rule := rule.filter fun text => !Text.allBlank text.toList }

/-- What an absolute path is below the root: by its own text, or else by its canonical form, if it has one. -/
def pathBelow? (root : String) (canonical : String → Option String) (path : String) : Option String :=
  let below := fun (text : String) => (Path.below? root.toList text.toList).map String.ofList
  match below path with
  | some found => some found
  | none => (canonical path).bind below

/-- The defect with its absolute path below the root made relative. Any other path is kept. -/
def relativeTo (d : Defect) (root : String) (canonical : String → Option String) : Defect :=
  match d.file with
  | none => d
  | some path =>
    if Path.isAbsolute path.toList then
      match (pathBelow? root canonical path).filter (· ≠ "") with
      | some found => identified { d with file := some found }
      | none => d
    else d

/-- The type under which attempts are counted. -/
def typeName (d : Defect) : String := d.kind.name

/-- The category under which attempts are counted. -/
def category (d : Defect) : String := d.rule.getD "general"

def isOpen (d : Defect) : Bool := d.status == .unfixed

/-- The place for people to read. -/
def location (d : Defect) : String :=
  match d.file, d.line with
  | some file, some line => file ++ ":" ++ line.repr
  | some file, none => file
  | none, _ => "(no file)"

theorem isOpen_iff (d : Defect) : d.isOpen = true ↔ d.status = .unfixed := by simp [isOpen]

/-- Making a path relative touches nothing but the path and the identifier. -/
theorem relativeTo_keeps (d : Defect) (root : String) (canonical : String → Option String) :
    d.relativeTo root canonical =
      { d with file := (d.relativeTo root canonical).file, id := (d.relativeTo root canonical).id } := by
  unfold relativeTo
  split
  · rfl
  · split
    · split <;> rfl
    · rfl

end Defect

/-!
## Defects as JSON

Every member is written, null for what is missing. A reader may leave out members that have a value of their own.
-/

namespace Json

def timestamp (t : Timestamp) : Json := text t.text

def timestamp? (value : Json) : Option Timestamp := value.text?.bind Timestamp.ofText?

end Json

open GatedRepair.Number Json

namespace FixDetails

def members : List String := ["strategy", "approach", "confidence", "agreement", "fixedAt"]

def toJson (d : FixDetails) : Json :=
  record [("strategy", .text d.strategy), ("approach", .text d.approach), ("confidence", .float d.confidence),
    ("agreement", .nat d.agreement), ("fixedAt", .timestamp d.fixedAt)]

def ofJson? (value : Json) : Option FixDetails := do
  let m ← members? members value
  return {
    strategy := ← m.required "strategy" text?
    approach := ← m.required "approach" text?
    confidence := ← m.required "confidence" float?
    agreement := ← m.defaulted "agreement" 0 (natural? bound64)
    fixedAt := ← m.required "fixedAt" timestamp? }

end FixDetails

namespace Defect

def members : List String :=
  ["id", "producerKind", "severity", "filePath", "line", "column", "rule", "message", "status", "attempts", "createdAt",
    "updatedAt", "fixDetails", "resolution", "regressions", "lastFailure"]

def toJson (d : Defect) : Json :=
  record [("id", .text d.id), ("producerKind", .text d.kind.name), ("severity", .text d.severity.name),
    ("filePath", ofOption .text d.file), ("line", ofOption .nat d.line), ("column", ofOption .nat d.column),
    ("rule", ofOption .text d.rule), ("message", .text d.message), ("status", .text d.status.name),
    ("attempts", .nat d.attempts), ("createdAt", .timestamp d.createdAt), ("updatedAt", .timestamp d.updatedAt),
    ("fixDetails", ofOption FixDetails.toJson d.fix), ("resolution", ofOption (fun r => .text r.name) d.resolution),
    ("regressions", .nat d.regressions), ("lastFailure", ofOption .text d.lastFailure)]

def ofJson? (value : Json) : Option Defect := do
  let m ← members? members value
  return {
    id := ← m.required "id" text?
    kind := ← m.required "producerKind" (oneOf? DefectKind.ofName? isNull)
    severity := ← m.required "severity" (oneOf? Severity.ofName? isNull)
    file := ← m.defaulted "filePath" none (option? text?)
    line := ← m.defaulted "line" none (option? (natural? bound64))
    column := ← m.defaulted "column" none (option? (natural? bound64))
    rule := ← m.defaulted "rule" none (option? text?)
    message := ← m.required "message" text?
    status := ← m.required "status" (oneOf? Status.ofName? isNull)
    attempts := ← m.defaulted "attempts" 0 (natural? bound32)
    createdAt := ← m.required "createdAt" timestamp?
    updatedAt := ← m.required "updatedAt" timestamp?
    fix := ← m.defaulted "fixDetails" none (option? FixDetails.ofJson?)
    resolution := ← m.defaulted "resolution" none (option? (oneOf? Resolution.ofName? isNull))
    regressions := ← m.defaulted "regressions" 0 (natural? bound32)
    lastFailure := ← m.defaulted "lastFailure" none (option? text?) }

end Defect

end GatedRepair
