import GatedRepair.Defect
import GatedRepair.Pattern.Search
import GatedRepair.Text.Lines

/-!
# What a line of a tool's output means

A row reads the lines of one form. It may begin a diagnostic, name the file that the next diagnostics are about, or
end what came before.
-/

namespace GatedRepair

/-- A problem as a line reports it. -/
structure Diagnostic where
  file : Option String
  line : Option Nat
  column : Option Nat
  severity : Severity
  rule : Option String
  message : String
  deriving DecidableEq, Repr

/-- What a recognised line means. -/
inductive LineMeaning where
  /-- A diagnostic begins. -/
  | diagnostic (d : Diagnostic)
  /-- The following diagnostics without a file are about this one. -/
  | heading (file : String)
  /-- The diagnostic before ends here. -/
  | ending
  deriving DecidableEq, Repr

/-- A form of lines: its name, and the meaning of the lines that have it. -/
structure Row where
  name : String
  read : List Char → Option LineMeaning

namespace Row

open Pattern Number

/-- What a group matched, without surrounding blanks, unless nothing is left. -/
def textOf (found : Found) (name : String) : Option String :=
  ((found.group? name).map Text.trim).bind fun chars => if chars.isEmpty then none else some (String.ofList chars)

/-- What a group matched, as a number of 64 bits. -/
def numberOf (found : Found) (name : String) : Option Nat := (textOf found name).bind fun s => ofDigits? bound64 s.toList

/-- A row for the lines that a pattern matches and `meaning` accepts. -/
def ofPattern (name : String) (pattern : Pattern) (meaning : Found → Option LineMeaning) : Row :=
  ⟨name, fun line => (pattern.find? line).bind meaning⟩

/-- A row for lines that end what came before. -/
def ending (name : String) (pattern : Pattern) : Row := ofPattern name pattern fun _ => some .ending

/-- A diagnostic with a place and, it may be, a severity. Without one it counts as medium. -/
def located (found : Found) : Option LineMeaning :=
  let severity := match textOf found "sev" with
    | none => .medium
    | some word =>
      if Text.equalIgnoringAsciiCase word.toList "fatal error".toList then .critical else Severity.ofWord word
  some <| .diagnostic {
    file := textOf found "file", line := numberOf found "line", column := numberOf found "col", severity
    rule := textOf found "code", message := (textOf found "msg").getD "" }

/-- A diagnostic whose code alone tells how bad it is: what begins with `F` or `E9` is an error. -/
def coded (found : Found) : Option LineMeaning :=
  (textOf found "code").map fun code =>
    .diagnostic {
      file := textOf found "file", line := numberOf found "line", column := numberOf found "col"
      severity := if code.startsWith "F" || code.startsWith "E9" then .high else .medium
      rule := some code, message := (textOf found "msg").getD "" }

/-- The file that the next diagnostics are about. -/
def headed (found : Found) : Option LineMeaning := (textOf found "file").map .heading

/-- A test that failed. -/
def failedTest (found : Found) : Option LineMeaning :=
  (textOf found "test").map fun test =>
    .diagnostic {
      file := textOf found "file", line := none, column := none, severity := .high, rule := some test
      message := (textOf found "msg").getD ("test " ++ test ++ " failed") }

end Row

end GatedRepair

/-!
## The tables of rows

For each kind of tool, the forms of lines that are known, in the order in which they are tried.
-/

namespace GatedRepair.Row

open Pattern Text

/-- A file name without blanks and colons. -/
def fileName : Pattern := group "file" (some1 fun c => !isBlank c && c != ':')

def colon : Pattern := char ':'

/-- A file, a line and a column, each followed by a colon, but the last. -/
def place : Pattern := all [atStart, fileName, colon, group "line" digits, colon, group "col" digits]

def errorOrWarning : Pattern := first [text "error", text "warning"]

/-- A code in square brackets. -/
def bracketed : Pattern := all [char '[', group "code" (some1 (· != ']')), char ']']

def restOfLine : Pattern := group "msg" (some1 inLine)

/-- The lines with which compilers sum up or show what they do. -/
def chatter : List Pattern := [
  all [errorOrWarning, maybe (all [char '[', some1 isWordChar, char ']']), text ": "],
  all [blanks, first [text "Compiling", text "Checking", text "Finished", text "Blocking"], one isBlank]]

def foundErrors : Pattern := all [text "Found ", digits, text " error", maybe (char 's')]

/-- The rows for type checkers. -/
def typeCheckRows : List Row := [
  ofPattern "tsc"
    (all [atStart, group "file" (.seq (one fun c => !isBlank c && c != '(') (run (· != '('))), char '(',
      group "line" digits, char ',', group "col" digits, text "):", blanks, group "sev" errorOrWarning, blanks1,
      group "code" (.seq (text "TS") digits), colon, blanks, group "msg" (run inLine), atEnd])
    located,
  ofPattern "tsc-pretty"
    (all [place, blanks1, char '-', blanks1, group "sev" errorOrWarning, blanks1,
      group "code" (.seq (text "TS") digits), colon, blanks, group "msg" (run inLine), atEnd])
    located,
  ofPattern "mypy"
    (all [atStart, fileName, colon, group "line" digits, colon, maybe (.seq (group "col" digits) colon), blanks,
      group "sev" (first [text "error", text "warning", text "note"]), colon, blanks, group "msg" (few inLine),
      maybe (all [blanks1, char '[', group "code" (some1 fun c => isWordChar c || c == '-'), char ']']), atEnd])
    located,
  ofPattern "rustc-short"
    (all [place, colon, blanks1, group "sev" errorOrWarning, maybe bracketed, colon, blanks1, restOfLine, atEnd])
    located,
  ending "summary" (.seq atStart (first (foundErrors :: text "Success: no issues found" :: chatter)))]

/-- The rows for static analysers. -/
def staticAnalysisRows : List Row := [
  ofPattern "eslint-unix"
    (all [place, colon, blanks, group "msg" (few inLine), blanks, char '[',
      group "sev" (first [text "Error", text "Warning"]), char '/', group "code" (some1 (· != ']')), char ']', atEnd])
    located,
  ofPattern "generic"
    (all [place, maybe colon, blanks1,
      group "sev" (first (["critical", "fatal", "error", "warning", "info", "note", "hint"].map anyCase)), blanks1,
      group "code" (some1 fun c => isWordChar c || c == '.' || c == '/' || c == '@' || c == '-'), blanks1, restOfLine,
      atEnd])
    located,
  ofPattern "compiler"
    (all [place, colon, blanks1, group "sev" (first [text "fatal error", text "error", text "warning", text "note"]),
      maybe bracketed, colon, blanks1, restOfLine, atEnd])
    located,
  ofPattern "ruff"
    (all [place, colon, blanks1, group "code" (.seq (some1 isAsciiUpper) digits), blanks1, restOfLine, atEnd])
    coded,
  ofPattern "go-vet"
    (all [atStart, group "file" (.seq (some1 fun c => !isBlank c && c != ':') (text ".go")), colon,
      group "line" digits, colon, group "col" digits, colon, blanks1, restOfLine, atEnd])
    located,
  ofPattern "stylish-row"
    (all [atStart, blanks1, group "line" digits, colon, group "col" digits, blanks1, group "sev" errorOrWarning, blanks1,
      group "msg" (few1 inLine), one isBlank, blanks1, group "code" (some1 notBlank), atEnd])
    located,
  ofPattern "stylish-file"
    (all [atStart, group "file" (all [some1 fun c => !isBlank c && c != ':', char '.', some1 isAsciiAlphanumeric]), atEnd])
    headed,
  ending "summary" (.seq atStart (first ([
    all [one fun c => c == '✖' || c == 'x', blanks1, digits, blanks1, text "problem", maybe (char 's')],
    foundErrors,
    text "All checks passed",
    all [char '#', blanks1, some1 notBlank, atEnd]] ++ chatter)))]

/-- The rows for test runners. -/
def testFailureRows : List Row := [
  ofPattern "pytest"
    (all [atStart, text "FAILED", blanks1, fileName, text "::", group "test" (some1 notBlank),
      maybe (all [blanks1, char '-', blanks1, group "msg" (run inLine)]), atEnd])
    failedTest,
  ofPattern "cargo"
    (all [atStart, text "test", blanks1, group "test" (some1 notBlank), blanks1, text "...", blanks1, text "FAILED", atEnd])
    failedTest,
  ofPattern "go"
    (all [atStart, blanks, text "--- FAIL:", blanks1, group "test" (some1 notBlank)])
    failedTest,
  ofPattern "jest"
    (all [atStart, blanks, char '●', blanks1, group "test" (few1 inLine), blanks, atEnd])
    failedTest,
  ending "progress" (.seq atStart (first [
    all [text "running ", digits, text " test", maybe (char 's'), atEnd],
    all [text "test", blanks1, some1 notBlank, blanks1, text "...", blanks1, first [text "ok", text "ignored"]],
    all [text "failures:", atEnd],
    text "test result:",
    all [some1 (· == '='), run inLine, some1 (· == '='), atEnd],
    all [text "FAIL", atEnd],
    all [text "ok", blanks1, some1 notBlank],
    all [text "FAIL", blanks1, some1 notBlank, blanks1, some1 fun c => isDigit c || c == '.', char 's', atEnd],
    all [text "Test", maybe (char 's'), colon, blanks1, digits]]))]

end GatedRepair.Row

namespace GatedRepair

/-- For each kind of tool, the rows that are tried in order. -/
abbrev Tables := DefectKind → List Row

namespace Tables

/-- The tables that are always there. -/
def standard : Tables
  | .typeCheck => Row.typeCheckRows
  | .staticAnalysis => Row.staticAnalysisRows
  | .testFailure => Row.testFailureRows

/-- The tables with one more row at the end of a kind's table. -/
def push (tables : Tables) (kind : DefectKind) (row : Row) : Tables :=
  fun other => if other = kind then tables other ++ [row] else tables other

end Tables

end GatedRepair

/-!
## From output to defects

The lines of a tool's output are read one after another. A line that some row recognises begins a diagnostic, names
a file or ends what came before; any other line goes on with the message of the diagnostic before it.
-/

namespace GatedRepair.Diagnostic

open Text

/-- What the first row that recognises a line makes of it. -/
def recognise (rows : List Row) (line : List Char) : Option LineMeaning := rows.findSome? (·.read line)

/-- The message that stands in a record: the diagnostic's own, or its rule when that is blank. -/
def finalMessage (d : Diagnostic) : String :=
  let message := trimmed d.message
  if message = "" then d.rule.getD "unspecified diagnostic" else message

/-- The open defect that a diagnostic tells of. -/
def toDefect (kind : DefectKind) (now : Timestamp) (d : Diagnostic) : Defect :=
  ((Defect.new kind d.severity d.file d.line d.finalMessage now).withColumn d.column).withRule d.rule

/-- A line added to a message. -/
def extend (d : Diagnostic) (line : List Char) : Diagnostic :=
  let more := String.ofList (trim line)
  { d with message := if d.message = "" then more else d.message ++ " " ++ more }

/-- How far the reading has come: the diagnostics that are complete, the last one first, the one that still grows,
and the file named last. -/
structure Reading where
  complete : List Diagnostic
  pending : Option Diagnostic
  heading : Option String

def Reading.start : Reading := ⟨[], none, none⟩

/-- The reading with nothing left to grow. -/
def Reading.flushed (r : Reading) : Reading :=
  match r.pending with
  | none => r
  | some d => ⟨d :: r.complete, none, r.heading⟩

/-- The diagnostic with the file named last, if it has none of its own. A failed test belongs to no such file. -/
def placed (kind : DefectKind) (heading : Option String) (d : Diagnostic) : Diagnostic :=
  if d.file.isNone && kind ≠ .testFailure then { d with file := heading } else d

/-- The reading after one more line. -/
def Reading.step (kind : DefectKind) (rows : List Row) (r : Reading) (line : List Char) : Reading :=
  match recognise rows line with
  | some (.diagnostic d) => { r.flushed with pending := some (placed kind r.heading d) }
  | some (.heading file) => { r.flushed with heading := some file }
  | some .ending => r.flushed
  | none => { r with pending := r.pending.map (extend · line) }

/-- The lines of an output that count: none of them is blank, nor ends in a blank. -/
def countedLines (output : List Char) : List (List Char) := ((lines output).map trimEnd).filter (!·.isEmpty)

/-- The diagnostics in the lines of an output. -/
def readLines (kind : DefectKind) (rows : List Row) (lines : List (List Char)) : List Diagnostic :=
  (lines.foldl (Reading.step kind rows) .start).flushed.complete.reverse

/-- The defects that the output of a tool reports. -/
def normalize (tables : Tables) (kind : DefectKind) (output : String) (now : Timestamp) : List Defect :=
  (readLines kind (tables kind) (countedLines output.toList)).map (toDefect kind now)

end GatedRepair.Diagnostic
