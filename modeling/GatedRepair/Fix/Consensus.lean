import GatedRepair.Backend
import GatedRepair.Defect
import GatedRepair.Number
import GatedRepair.Pattern.Search
import GatedRepair.Text.Character
import GatedRepair.Text.Lines

/-!
# From responses to a choice

Each strategy asks for a fix in its own way. What a response amounts to is a candidate, and one of the candidates is
chosen.
-/

/-!
## Strategies

A strategy is one way of asking for a fix: the rules are the same, the guidance differs.
-/

namespace GatedRepair

/-- One way of asking for a fix. A specialized request has guidance for the kind of tool. -/
inductive Strategy where
  | conservative
  | creative
  | specialized
  deriving DecidableEq, Repr

namespace Strategy

/-- All strategies, in the order in which they are asked. -/
def all : List Strategy := [.conservative, .creative, .specialized]

def name : Strategy → String
  | .conservative => "conservative"
  | .creative => "creative"
  | .specialized => "specialized"

def ofName? (text : String) : Option Strategy := all.find? (·.name == text)

/-- The label of an approach that a response does not name. -/
def standardApproach : Strategy → String
  | .conservative => "minimal edit"
  | .creative => "restructure"
  | .specialized => "targeted fix"

/-- The rules for every response. -/
def rules : String := String.intercalate "\n" [
  "You are a senior engineer repairing one defect reported by an automated tool (type checker, linter or test runner). " ++
    "Your change is applied without review and then checked by the project's regression suite, so it must be correct " ++
    "and complete on its own.",
  "",
  "OUTPUT FORMAT:",
  "APPROACH: <2-6 word lowercase label naming the kind of fix, e.g. \"add null guard\", \"narrow union type\">",
  "```<language>",
  "<the full replacement for the code shown between the BEGIN/END markers>",
  "```",
  "",
  "RULES:",
  "- Output the WHOLE region between the markers, with your fix applied. Lines you return replace exactly those lines.",
  "- Keep indentation, naming and formatting exactly as in the original.",
  "- Do not add line numbers, markers or commentary inside the code block.",
  "- Do not disable the check (no suppression comments, no `any`, no skipped tests).",
  "- Only one code block."]

/-- What a strategy asks for beyond the rules. -/
def guidance : Strategy → DefectKind → String
  | .conservative, _ =>
    "STRATEGY: conservative.\nMake the smallest possible edit that removes the defect. Touch as few lines as you can and " ++
      "prefer local fixes over structural ones."
  | .creative, _ =>
    "STRATEGY: creative.\nLook past the reported line for the underlying cause. You may restructure the code shown if " ++
      "that is the cleaner fix, as long as behavior elsewhere is preserved."
  | .specialized, .typeCheck =>
    "STRATEGY: specialized (type check).\nFix the types precisely: correct the annotation, add the missing conversion or " ++
      "narrow the value. Never widen types to silence the checker and never add casts that hide a real mismatch."
  | .specialized, .staticAnalysis =>
    "STRATEGY: specialized (static analysis).\nSatisfy the named rule the way the rule's documentation recommends. Never " ++
      "add disable or ignore comments."
  | .specialized, .testFailure =>
    "STRATEGY: specialized (test failure).\nFix the code under test so the failing test passes. Change the test only when " ++
      "the assertion itself is clearly wrong."

/-- The system prompt for a kind of defect. -/
def systemPrompt (strategy : Strategy) (kind : DefectKind) : String := rules ++ "\n\n" ++ strategy.guidance kind

theorem ofName?_name (strategy : Strategy) : ofName? strategy.name = some strategy := by cases strategy <;> decide

end Strategy

/-!
## Code and label in a response

Code is looked for between fences first. Without any, the longest run of lines that look like code is taken. The
label of the approach stands on a line of its own.
-/

/-- How code was found in a response. -/
inductive CodeSource where
  | fenced
  | heuristic
  deriving DecidableEq, Repr

def CodeSource.name : CodeSource → String
  | .fenced => "fenced"
  | .heuristic => "heuristic"

/-- Code from a response, and how far it can be trusted. -/
structure ExtractedCode where
  code : String
  source : CodeSource
  confidence : Number.Binary64
  deriving DecidableEq, Repr

namespace Extraction

open Pattern Text Number

/-- The confidence in code from between fences. -/
def fencedConfidence : Binary64 := .nearest (85 / 100)

/-- The confidence in a response that holds no code. -/
def noCodeConfidence : Binary64 := .nearest (2 / 10)

/-- The confidence in a run of lines that make up a share of the response, between 0.6 and 0.75. -/
def heuristicConfidence (share : Rat) : Binary64 :=
  let least := Binary64.rounded (60 / 100)
  let span := Binary64.rounded (Binary64.rounded (75 / 100) - least)
  .nearest (least + Binary64.rounded (span * share))

/-- The most characters that are kept of a label. -/
def labelLimit : Nat := 60

/-- Three backquotes, perhaps with the name of a language, a new line, and the code up to the next three. -/
def fence : Pattern :=
  all [text "```", run fun c => c != '\n' && c != '`', char '\n', group "body" (few fun _ => true), text "```"]

/-- White space and the marks of emphasis. -/
def isEmphasis (c : Char) : Bool := isBlank c || c == '*' || c == '_'

/-- A character that may stand before the word on a label's line. -/
def isLead (c : Char) : Bool := isEmphasis c || c == '#' || c == '>' || c == '-'

/-- A line with the word `approach`, a colon and a label. -/
def approachLine : Pattern :=
  all [atLineStart, run isLead, anyCase "approach", run isEmphasis, char ':', run isEmphasis,
    group "label" (few1 inLine), run isEmphasis, atLineEnd]

/-- The last of the longest among several texts, measured in bytes. -/
def longest? (texts : List String) : Option String :=
  texts.foldl
    (fun best text => match best with
      | none => some text
      | some other => if other.utf8ByteSize ≤ text.utf8ByteSize then some text else some other)
    none

def isLineEnd (c : Char) : Bool := c == '\n' || c == '\r'

/-- The longest code between fences that is not blank, without the line endings after it. -/
def fenced? (response : List Char) : Option ExtractedCode :=
  let bodies := (fence.findAll response).filterMap (·.group? "body")
  (longest? ((bodies.filter (!allBlank ·)).map String.ofList)).map fun body =>
    ⟨String.ofList (dropEndWhile isLineEnd body.toList), .fenced, fencedConfidence⟩

/-- The beginnings that mark a line as code. -/
def codeStarts : List String :=
  ["fn ", "pub ", "let ", "const ", "var ", "def ", "class ", "import ", "from ", "return", "if ", "if(", "for ",
    "while ", "use ", "export ", "function ", "async ", "#include", "struct ", "impl ", "type ", "interface ", "\x7d",
    "\x7b", "//", "#["]

/-- The characters that end a line of code. -/
def codeEnds : List Char := [';', '\x7b', '\x7d', ')', ',', ':', ']']

/-- The line looks like code: by how it begins, by how it ends or by being indented. A sentence does not. -/
def looksLikeCode (line : List Char) : Bool :=
  let trimmed := trim line
  if trimmed.isEmpty then false
  else if codeStarts.any fun start => start.toList.isPrefixOf trimmed then true
  else
    let indented := [' ', ' ', ' ', ' '].isPrefixOf line || ['\t'].isPrefixOf line
    let endsLikeCode := (trimmed.getLast?.map codeEnds.contains).getD false
    let prose := trimmed.getLast? == some '.' && trimmed.contains ' '
    (endsLikeCode || indented) && !prose

/-- A run of lines, the last one first, and how many of them look like code. -/
structure CodeRun where
  back : List (List Char)
  count : Nat

/-- The run that is being read, and the best that has been read: the first with the most lines of code. -/
structure RunSearch where
  current : CodeRun
  best : Option CodeRun

def RunSearch.start : RunSearch := ⟨⟨[], 0⟩, none⟩

/-- The search after one more line. A blank line stays in a run; any other line that is no code ends it. -/
def RunSearch.step (search : RunSearch) (line : List Char) : RunSearch :=
  if looksLikeCode line then
    let run : CodeRun := ⟨line :: search.current.back, search.current.count + 1⟩
    ⟨run, if search.best.all (·.count < run.count) then some run else search.best⟩
  else if allBlank line then
    if search.current.back.isEmpty then search else { search with current := { search.current with back := line :: search.current.back } }
  else { search with current := ⟨[], 0⟩ }

/-- The longest run of lines that look like code, among the lines that are not the label's. -/
def heuristic? (response : List Char) : Option ExtractedCode :=
  let considered := (lines response).filter (!approachLine.matches? ·)
  let spoken := (considered.filter (!allBlank ·)).length
  ((considered.foldl RunSearch.step .start).best).map fun run =>
    ⟨String.ofList (join ['\n'] run.back.reverse), .heuristic,
      heuristicConfidence (Binary64.rounded ((run.count : Rat) / (spoken : Rat)))⟩

/-- The code in a response. -/
def code? (response : String) : Option ExtractedCode :=
  match fenced? response.toList with
  | some found => some found
  | none => heuristic? response.toList

/-- A label in small letters without blanks and quotes around it, cut to its limit. A blank label is none. -/
def cleanLabel? (label : List Char) : Option String :=
  let isQuote := fun c => c == '"'
  let bare := trim (dropEndWhile isQuote ((trim label).dropWhile isQuote))
  if bare.isEmpty then none else some (String.ofList ((lowercase bare).take labelLimit))

/-- The label of the approach that a response takes. -/
def approach? (response : String) : Option String :=
  (approachLine.find? response.toList).bind fun found => (found.group? "label").bind cleanLabel?

end Extraction

/-!
## Candidates

What a response to one strategy amounts to.
-/

/-- A candidate fix. -/
structure Candidate where
  strategy : Strategy
  approach : String
  extracted : Option ExtractedCode
  confidence : Number.Binary64
  error : Option BackendError
  deriving DecidableEq, Repr

namespace Candidate

/-- The candidate that a response makes. -/
def ofResponse (strategy : Strategy) : Response → Candidate
  | .ok text =>
    let extracted := Extraction.code? text
    { strategy, approach := (Extraction.approach? text).getD strategy.standardApproach, extracted
      confidence := (extracted.map (·.confidence)).getD Extraction.noCodeConfidence, error := none }
  | .error e =>
    { strategy, approach := strategy.standardApproach, extracted := none, confidence := .zero, error := some e }

/-- The candidate has code. -/
def isUsable (c : Candidate) : Bool := c.error.isNone && c.extracted.isSome

/-- Why the candidate cannot be used. -/
def rejection? (c : Candidate) : Option String :=
  match c.error, c.extracted with
  | some e, _ => some (c.strategy.name ++ ": " ++ e.message)
  | none, none => some (c.strategy.name ++ ": no code in response")
  | none, some _ => none

theorem rejection?_isSome (c : Candidate) : c.rejection?.isSome = !c.isUsable := by
  unfold rejection? isUsable
  cases c.error <;> cases c.extracted <;> rfl

end Candidate

/-!
### Choosing among candidates

The most confident usable candidate wins, or the most confident of those whose approach most candidates share. Ties
go to the earlier one.
-/

/-- How the winner is chosen. -/
inductive Policy where
  | highestConfidence
  | majorityApproach
  deriving DecidableEq, Repr

namespace Policy

def all : List Policy := [.highestConfidence, .majorityApproach]

def name : Policy → String
  | .highestConfidence => "highest_confidence"
  | .majorityApproach => "majority_approach"

def ofName? (text : String) : Option Policy := all.find? (·.name == text)

end Policy

/-- The winner with the number of usable candidates that share its approach, or why there is none. -/
inductive Consensus where
  | selected (candidate : Candidate) (agreement : Nat)
  | failed (reasons : List String)
  deriving DecidableEq, Repr

namespace Consensus

/-- The first of the elements with the greatest value. -/
def firstGreatest? {α : Type} (exceeds : α → α → Bool) (elements : List α) : Option α :=
  elements.foldl
    (fun best x => match best with
      | none => some x
      | some y => if exceeds x y then some x else some y)
    none

/-- The first of the most confident candidates. -/
def mostConfident? (candidates : List Candidate) : Option Candidate :=
  firstGreatest? (fun x y => decide (y.confidence.toRat < x.confidence.toRat)) candidates

/-- The number of candidates with an approach. -/
def bearers (candidates : List Candidate) (approach : String) : Nat :=
  (candidates.filter (·.approach == approach)).length

/-- The first of the approaches that most candidates share. -/
def majority? (candidates : List Candidate) : Option String :=
  firstGreatest? (fun x y => decide (bearers candidates y < bearers candidates x)) (candidates.map (·.approach))

/-- The candidates that can win. -/
def eligible (policy : Policy) (usable : List Candidate) : List Candidate :=
  match policy with
  | .highestConfidence => usable
  | .majorityApproach => usable.filter fun c => some c.approach == majority? usable

/-- The choice among candidates. -/
def select (policy : Policy) (candidates : List Candidate) : Consensus :=
  let usable := candidates.filter Candidate.isUsable
  match mostConfident? (eligible policy usable) with
  | some winner => .selected winner (bearers usable winner.approach)
  | none => .failed (candidates.filterMap Candidate.rejection?)

end Consensus

end GatedRepair
