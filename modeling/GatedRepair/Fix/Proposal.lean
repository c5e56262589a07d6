import GatedRepair.Defect
import GatedRepair.Files.Tree
import GatedRepair.Fix.Consensus
import GatedRepair.Pattern.Search
import GatedRepair.Text.Lines

/-!
# From a defect to a proposal

What a request shows is a summary of the defect and a part of its file, and what a fix replaces is the part that was shown.
-/

/-!
## Parts of a file

A region is a range of lines, counted from one, with both its ends. What a fix replaces is a region or the whole
file.
-/

namespace GatedRepair

/-- The lines from `start` to `stop`, both included. -/
structure Region where
  start : Nat
  stop : Nat
  deriving DecidableEq, Repr

namespace Region

/-- The lines at most `radius` away from a line, in a file of `total` lines. A line outside the file counts as the
nearest one inside. -/
def around (line radius total : Nat) : Region :=
  if total = 0 then ⟨1, 0⟩
  else
    let line := max 1 (min line total)
    ⟨max (line - radius) 1, min (line + radius) total⟩

/-- The number of lines. -/
def size (r : Region) : Nat := r.stop + 1 - r.start

/-- The region holds every line of a file of `total` lines. -/
def isWhole (r : Region) (total : Nat) : Bool := r.start = 1 && r.stop = total

/-- The region is not empty and lies inside a file of `total` lines. -/
def fits (r : Region) (total : Nat) : Bool := 1 ≤ r.start && r.start ≤ r.stop && r.stop ≤ total

/-- The lines of a file that lie in the region. -/
def select {α : Type} (r : Region) (lines : List α) : List α := (lines.drop (r.start - 1)).take r.size

theorem fits_iff {r : Region} {total : Nat} :
    r.fits total = true ↔ 1 ≤ r.start ∧ r.start ≤ r.stop ∧ r.stop ≤ total := by
  simp [fits, and_assoc]

theorem fits_around (line radius : Nat) {total : Nat} (h : 0 < total) : (around line radius total).fits total = true := by
  have h0 : total ≠ 0 := by omega
  simp only [around, fits, h0, if_false, Bool.and_eq_true, decide_eq_true_eq]
  omega

end Region

/-- What a fix replaces. -/
inductive EditTarget where
  | wholeFile
  | region (r : Region)
  deriving DecidableEq, Repr

/-!
### Windows

The part of a file that is shown, and that a fix replaces. A window around a line shrinks until it is small enough;
a window at the head of a file grows while it is.
-/

/-- The lines of a region as they are shown. -/
structure Window where
  region : Region
  text : String
  wholeFile : Bool
  deriving DecidableEq, Repr

namespace Window

/-- The most characters that a window shows, unless it is a single line. -/
def limit : Nat := 24000

/-- What a fix that was made for the window replaces. -/
def editTarget (w : Window) : EditTarget := if w.wholeFile then .wholeFile else .region w.region

/-- The window that shows a region. -/
def ofRegion (lines : List (List Char)) (region : Region) : Window :=
  ⟨region, String.ofList (Text.join ['\n'] (region.select lines)), region.isWhole lines.length⟩

/-- The number of characters that a region shows. -/
def shownLength (lines : List (List Char)) (region : Region) : Nat :=
  (Text.join ['\n'] (region.select lines)).length

/-- The window around a line, with the radius halved until the window is small enough. -/
def around (lines : List (List Char)) (line radius : Nat) : Window :=
  let region := Region.around line radius lines.length
  if _h : radius = 0 ∨ shownLength lines region ≤ limit then ofRegion lines region
  else around lines line (radius / 2)
termination_by radius
decreasing_by omega

/-- The number of lines at the head that fit into what is left of the limit, when `taken` lines have been taken. -/
def headCount (lines : List (List Char)) (used taken : Nat) : Nat :=
  match lines with
  | [] => taken
  | line :: more =>
    let used := used + line.length + 1
    if limit < used ∧ 0 < taken then taken else headCount more used (taken + 1)

/-- The window at the head of a file: as many lines as fit, and the first one in any case. -/
def head (lines : List (List Char)) : Window := ofRegion lines ⟨1, headCount lines 0 0⟩

end Window

end GatedRepair

/-!
## What a request tells about a defect

A summary of the defect and, when its file can be read, the code around it and the file's imports.
-/

namespace GatedRepair

/-- The file that a request shows: its path, a window and the imports. -/
structure Excerpt where
  path : String
  window : Window
  deriving DecidableEq, Repr

/-- What a request tells about a defect. Without an excerpt there is nothing to edit. -/
structure FixContext where
  summary : String
  excerpt : Option Excerpt
  references : List String
  deriving DecidableEq, Repr

namespace FixContext

open Pattern Text

def defaultRadius : Nat := 10

/-- The most imports that are shown. -/
def referenceLimit : Nat := 20

/-- A line that imports something or declares a module. -/
def referenceLine : Pattern :=
  let toEnd := run inLine
  let visible := maybe (.seq (text "pub") blanks1)
  let quote := one fun c => c == '\'' || c == '"'
  all [atStart, blanks, first [
    all [visible, text "use", blanks1, one notBlank, toEnd, char ';'],
    all [visible, text "mod", blanks1, some1 isWordChar, blanks, char ';'],
    all [text "import", blanks1, one notBlank, toEnd],
    all [text "from", blanks1, some1 notBlank, blanks1, text "import", blanks1, one notBlank, toEnd],
    all [text "#include", blanks, one fun c => c == '<' || c == '"', some1 inLine, one fun c => c == '>' || c == '"'],
    all [toEnd, atWordEdge, text "require(", blanks, quote, some1 fun c => c != '\'' && c != '"', quote, blanks, char ')',
      toEnd]], atEnd]

/-- Adds an element at the end of a list that does not hold it yet and has room. -/
def addReference (found : List String) (line : List Char) : List String :=
  if found.length < referenceLimit && referenceLine.matches? line then
    let text := String.ofList (trim line)
    if found.contains text then found else found ++ [text]
  else found

/-- The imports in the lines of a file, each once. -/
def referencesOf (lines : List (List Char)) : List String := lines.foldl addReference []

/-- The summary of a defect: where and what it is, and how the last attempt to fix it failed. -/
def summarize (d : Defect) : String :=
  let column := d.column.elim "" fun n => ", column " ++ n.repr
  let rule := d.rule.elim "" fun r => " [" ++ r ++ "]"
  let reason := d.lastFailure.elim "" fun r => " Last one failed with: " ++ truncate r 500
  let attempts := if d.attempts = 0 then "" else "\nPrevious fix attempts: " ++ d.attempts.repr ++ "." ++ reason
  d.severity.name ++ " " ++ d.kind.name ++ " defect at " ++ d.location ++ column ++ rule ++ ": "
    ++ truncate d.message 1000 ++ attempts

/-- What is told about a defect whose file cannot be read. -/
def textOnly (d : Defect) : FixContext := ⟨summarize d, none, []⟩

/-- The window that a defect's place asks for. -/
def windowOf (d : Defect) (radius : Nat) (lines : List (List Char)) : Window :=
  match d.line with
  | some line => Window.around lines line radius
  | none => Window.head lines

/-- What is told about a defect in a file with the given path and content. -/
def ofContent (d : Defect) (radius : Nat) (path content : String) : FixContext :=
  let lines := lines content.toList
  ⟨summarize d, some ⟨path, windowOf d radius lines⟩, referencesOf lines⟩

/-- What a fix replaces. -/
def editTarget? (c : FixContext) : Option EditTarget := c.excerpt.map (·.window.editTarget)

/-- The task as it is put to the language model. -/
def userPrompt (c : FixContext) : String :=
  let imports :=
    if c.references.isEmpty then "" else "\nIMPORTS IN THIS FILE:\n" ++ String.join (c.references.map (· ++ "\n"))
  let code := match c.excerpt with
    | some e =>
      let scope := if e.window.wholeFile then "entire file"
        else "lines " ++ e.window.region.start.repr ++ "-" ++ e.window.region.stop.repr
      "\nFILE: " ++ e.path ++ " (" ++ scope ++ ")\n<<<BEGIN>>>\n" ++ e.window.text ++ "\n<<<END>>>\n"
    | none =>
      "\nThe source file could not be read. Propose the corrected code based on the message alone.\n"
  "DEFECT:\n" ++ c.summary ++ "\n" ++ imports ++ code

end FixContext

end GatedRepair

/-!
### The code around a defect

A defect's file is shown if it is a file of the repository that holds text. Otherwise the message has to do.
-/

namespace GatedRepair.FixContext

open Files

/-- The file of a repository that a defect is about, with its text. -/
def source? (tree : Tree) (root : String) (d : Defect) : Option (RepositoryFile × String) := do
  let path ← d.file
  let file ← (tree.resolve root path).toOption
  let content ← (tree.readText file.absolute).toOption
  return (file, content)

/-- What is told about a defect of a repository. -/
def build (tree : Tree) (root : String) (d : Defect) (radius : Nat) : FixContext :=
  match source? tree root d with
  | some (file, content) => ofContent d radius file.relative content
  | none => textOnly d

end GatedRepair.FixContext

/-!
## Proposing a fix

Each strategy asks the backend for a candidate, with the same account of the defect, and one of the candidates is
chosen. A request that takes too long counts as unanswered.
-/

namespace GatedRepair

/-- How fixes are sought. The time limit of a request is in milliseconds. -/
structure Generator where
  strategies : List Strategy
  radius : Nat
  callLimit : Nat
  maxTokens : Nat
  policy : Policy
  deriving DecidableEq, Repr

namespace Generator

def standard : Generator :=
  { strategies := Strategy.all, radius := FixContext.defaultRadius, callLimit := 120000, maxTokens := 4096
    policy := .highestConfidence }

/-- The generator with other strategies, unless there are none. -/
def withStrategies (g : Generator) (strategies : List Strategy) : Generator :=
  if strategies.isEmpty then g else { g with strategies }

/-- The generator with another limit on the length of answers, which is at least one. -/
def withMaxTokens (g : Generator) (maxTokens : Nat) : Generator := { g with maxTokens := max maxTokens 1 }

/-- The answer within the time limit. An answer that is there at once is always in time. -/
def inTime (g : Generator) (reply : Reply) : Response :=
  if 0 < reply.delay && g.callLimit ≤ reply.delay then .error (.timeout (g.callLimit / 1000)) else reply.response

/-- The candidates of some strategies, in their order. -/
def candidates {σ : Type} (g : Generator) (backend : Backend σ) (kind : DefectKind) (user : String) :
    List Strategy → σ → List Candidate × σ
  | [], s => ([], s)
  | strategy :: more, s =>
    let (reply, s) := backend.ask s ⟨strategy.systemPrompt kind, user, g.maxTokens⟩
    let (rest, s) := candidates g backend kind user more s
    (.ofResponse strategy (g.inTime reply) :: rest, s)

end Generator

/-- What is proposed for a defect. -/
structure Proposal where
  context : FixContext
  consensus : Consensus

/-- Proposes a fix for a defect of a repository. -/
def Generator.propose {σ : Type} (g : Generator) (backend : Backend σ) (s : σ) (tree : Files.Tree) (root : String)
    (d : Defect) : Proposal × σ :=
  let context := FixContext.build tree root d g.radius
  let (candidates, s) := g.candidates backend d.kind context.userPrompt g.strategies s
  (⟨context, .select g.policy candidates⟩, s)

end GatedRepair
