import GatedRepair.Machine.LinePattern
import GatedRepair.Machine.Program.Place
import GatedRepair.Machine.Shell.Arithmetic
import GatedRepair.Machine.Shell.Session

/-!
# What words stand for

Parameters, scripts and expressions in a word are replaced by texts. The texts that are not quoted are cut into fields,
and a field that is a pattern stands for the names that match it.
-/

namespace GatedRepair.Shell

open Files Text Running

/-- A part of an expanded word. -/
inductive Atom where
  /-- A character, which may part fields if it is one of those that do. -/
  | char (c : Char) (quoted parts : Bool)
  /-- Quotes make a field, even if nothing is in them. -/
  | quotes
  /-- Another field begins. -/
  | gap
  deriving DecidableEq, Repr

namespace Atom

def ofText (quoted : Bool) (text : List Char) : List Atom := text.map fun c => char c quoted (!quoted)

/-- Texts that are fields of their own. -/
def ofTexts (quoted : Bool) (texts : List String) : List Atom :=
  [gap].intercalate (texts.map fun text => (if quoted then [quotes] else []) ++ ofText quoted text.toList)

/-- The text of atoms that are not cut. -/
def text (atoms : List Atom) : List Char :=
  atoms.filterMap fun
    | char c _ _ => some c
    | quotes => none
    | gap => some ' '

/-- The characters of atoms that are not cut, with what is quoted. -/
def marks (atoms : List Atom) : List Mark :=
  atoms.filterMap fun
    | char c quoted _ => some (c, quoted)
    | quotes => none
    | gap => some (' ', false)

end Atom

/-- The fields that are finished and the one that is begun, both backwards, and whether a blank has ended a field
before. -/
structure Fields where
  done : List (List Mark)
  begun : Option (List Mark)
  afterBlank : Bool

namespace Fields

def close (f : Fields) (afterBlank : Bool) : Fields :=
  match f.begun with
  | none => f
  | some back => ⟨back.reverse :: f.done, none, afterBlank⟩

/-- Another atom. Blanks that part fields count as one, together with another character that does. -/
def add (separators : List Char) (f : Fields) (atom : Atom) : Fields :=
  match atom with
  | .gap => f.close false
  | .quotes => { f with begun := some (f.begun.getD []), afterBlank := false }
  | .char c quoted parts =>
    if parts && separators.contains c then
      if [' ', '\t', '\n'].contains c then f.close true
      else if f.begun.isSome then f.close false
      else if f.afterBlank then { f with afterBlank := false }
      else ⟨[] :: f.done, none, false⟩
    else ⟨f.done, some ((c, quoted) :: f.begun.getD []), false⟩

/-- The fields that atoms make. -/
def ofAtoms (separators : List Char) (atoms : List Atom) : List (List Mark) :=
  ((atoms.foldl (add separators) ⟨[], none, false⟩).close false).done.reverse

end Fields

/-- The names that match the parts of a pattern, each after a front that has been found. -/
def matching (tree : Tree) (directory : String) : List (List Mark) → String → List String
  | [], front => [front]
  | part :: more, front =>
    let pattern := globOf part
    let isLast := more.isEmpty
    let place := fun (name : String) => if name = "" then directory else Path.within directory (ofOctets name)
    if Glob.isOpen pattern then
      match tree.find? (place front) with
      | .ok (location, .directory) =>
        let dotted := part.head?.any (·.1 = '.')
        let names := (if dotted then [".", ".."] else []) ++ Program.namesIn tree location
        (names.filter fun name => (name.toList.head? ≠ some '.' || dotted) && Glob.fits pattern name.toList).flatMap fun name =>
          if isLast then [front ++ name]
          else if tree.isDirectory (place (front ++ name)) then matching tree directory more (front ++ name ++ "/")
          else []
      | _ => []
    else
      let path := front ++ String.ofList (pattern.filterMap fun
        | .exactly c => some c
        | _ => none)
      if isLast then match tree.locate false (place path) with
        | .ok (.found ..) => [path]
        | _ => []
      else matching tree directory more (path ++ "/")

/-- The parts of marked characters between slashes. -/
def markedParts (marks : List Mark) : List (List Mark) :=
  marks.foldr (fun m parts => match parts with
    | [] => []
    | part :: more => if m.1 = '/' then [] :: part :: more else (m :: part) :: more) [[]]

/-- The names that a field stands for: those that match it, or itself. -/
def pathnames (tree : Tree) (s : Interpreter) (field : List Mark) : List String :=
  let plain := String.ofList (field.map (·.1))
  if s.manner.literal || !Glob.isOpen (globOf field) then [plain]
  else match (matching tree s.directory (markedParts field) "").mergeSort fun a b => a ≤ b with
    | [] => [plain]
    | names => names

/-- The text of a parameter, if it has one. -/
def parameter? (s : Interpreter) (name : String) : Option String :=
  match name with
  | "#" => some s.parameters.length.repr
  | "?" => some s.status.repr
  | "-" => some s.optionLetters
  | "$" => some s.root.repr
  | "!" => some (s.beside.elim "" (·.repr))
  | "0" => some s.name
  | "@" => some (" ".intercalate s.parameters)
  | "*" => some ((String.ofList s.joint).intercalate s.parameters)
  | name => match name.toNat? with
    | some n => s.parameters[n - 1]?
    | none => s.text? name

/-- The name stands for all parameters, each of which is a field. -/
def isFields (name : String) (quoted : Bool) : Bool := name = "@" || name = "*" && !quoted

/-- The atoms of a parameter as it is. -/
def parameterAtoms (s : Interpreter) (name : String) (quoted : Bool) : List Atom :=
  if isFields name quoted then Atom.ofTexts quoted s.parameters
  else Atom.ofText quoted ((parameter? s name).getD "").toList

/-- How many characters at the start or the end of a text match a pattern. -/
def fitting? (atEnd longest : Bool) (pattern : List Glob) (text : List Char) : Option Nat :=
  let counts := List.range (text.length + 1)
  (if longest then counts.reverse else counts).find? fun count =>
    Glob.fits pattern (if atEnd then text.drop (text.length - count) else text.take count)

/-- A text with what matches a pattern cut off its start or end. -/
def trimmed (atEnd longest : Bool) (pattern : List Glob) (text : List Char) : List Char :=
  match fitting? atEnd longest pattern text with
  | some count => if atEnd then text.take (text.length - count) else text.drop count
  | none => text

/-- Texts up to the last place where the rest of a text matches a pattern. -/
def cutLast? (pattern : List Glob) : List (List Char) → Option (List (List Char))
  | [] => none
  | text :: more => match cutLast? pattern more with
    | some kept => some (text :: kept)
    | none => (fitting? true false pattern text).map fun count => [text.take (text.length - count)]

/-- Texts with what matches a pattern cut off their start or end. A cut at an end takes along the texts that follow, and so
does the longest start if it is a whole text. -/
def trimmedTexts (atEnd longest : Bool) (pattern : List Glob) (texts : List (List Char)) : List (List Char) :=
  match atEnd, texts with
  | _, [] => []
  | false, text :: more =>
    if longest && Glob.fits pattern text then [[]] else trimmed false longest pattern text :: more
  | true, text :: more =>
    if longest then if (fitting? true true pattern text).isSome then [trimmed true true pattern text] else text :: more
    else (cutLast? pattern texts).getD texts

/-- The value of an expression, which may change variables. -/
def arithmetic (text : List Char) : Running Int := do
  let s ← shell
  let shown := ": \"" ++ String.ofList text ++ "\""
  match ((Expression.parse text).value s.text).run [] with
  | .error (.illFormed message) => refuse ("arithmetic expression: " ++ message ++ shown)
  | .error .divisionByZero => refuse ("arithmetic expression: division by zero" ++ shown)
  | .error (.notNumber word) => refuse ("Illegal number: " ++ word)
  | .ok (n, given) =>
    for (name, value) in given.reverse do
      assign name (toString value)
    return n

/-- A word with the home directory in place of a tilde. -/
def withHome (s : Interpreter) (w : Word) : Word :=
  match w with
  | .text ('~' :: rest) false :: more =>
    if rest.head? = some '/' || rest.isEmpty && more.isEmpty then
      match s.text? "HOME" with
      | some home => .text home.toList true :: .text rest false :: more
      | none => w
    else w
  | _ => w

/-- The atoms of a parameter that is changed. `inner` gives the atoms of a word in the change. -/
def changedAtoms (inner : Word → Running (List Atom)) (name : String) (change : Change) (quoted : Bool) :
    Running (List Atom) := do
  let s ← shell
  let value := parameter? s name
  let demanded := fun (atoms : List Atom) => do
    if s.manner.demanding && value.isNone && name ≠ "@" && name ≠ "*" then refuse (name ++ ": parameter not set")
    else return atoms
  match change with
  | .none => demanded (parameterAtoms s name quoted)
  | .length => demanded (Atom.ofText quoted (value.getD "").length.repr.toList)
  | .trimmed atEnd longest pattern =>
    let _ ← demanded []
    let pattern := globOf (Atom.marks (← inner pattern))
    if isFields name quoted then
      return Atom.ofTexts quoted ((trimmedTexts atEnd longest pattern (s.parameters.map String.toList)).map String.ofList)
    else return Atom.ofText quoted (trimmed atEnd longest pattern (value.getD "").toList)
  | .substitute use colon word =>
    let missing := value.isNone || colon && value = some ""
    match use with
    | .default => if missing then inner word else return parameterAtoms s name quoted
    | .alternative => if missing then return [] else inner word
    | .assign =>
      if missing then
        if isName name.toList then
          let text := Atom.text (← inner word)
          assign name (String.ofList text)
          return Atom.ofText quoted text
        else refuse (name ++ ": bad variable name")
      else return parameterAtoms s name quoted
    | .demand =>
      if missing then
        let text := String.ofList (Atom.text (← inner word))
        refuse (name ++ ": " ++ (if word.isEmpty then "parameter not set" ++ (if colon then " or null" else "") else text))
      else return parameterAtoms s name quoted

/-- The atoms of a piece. `output` runs a script and gives what it writes; text that is not quoted parts fields if it
stands in the change of a parameter. -/
def pieceAtoms (output : Script → Running String) (inner : Word → Running (List Atom)) (nested : Bool) :
    Piece → Running (List Atom)
  | .text chars quoted =>
    return if chars.isEmpty && quoted then [.quotes] else chars.map fun c => .char c quoted (nested && !quoted)
  | .parameter name change quoted => changedAtoms inner name change quoted
  | .output body quoted => return Atom.ofText quoted (← output body).toList
  | .number expression quoted => return Atom.ofText quoted (toString (← arithmetic (Atom.text (← inner expression)))).toList
  | .senseless => refuse "Bad substitution"

/-- The atoms of a word. -/
def wordAtoms (output : Script → Running String) : Nat → Bool → Word → Running (List Atom)
  | 0, _, _ => refuse "Bad substitution"
  | depth + 1, nested, w => do return (← w.mapM (pieceAtoms output (wordAtoms output depth true) nested)).flatten

/-- How deep words can stand in words. -/
def wordDepth : Nat := 1000

/-- The one text that a word stands for. -/
def expandText (output : Script → Running String) (w : Word) : Running String := do
  return String.ofList (Atom.text (← wordAtoms output wordDepth false (withHome (← shell) w)))

/-- The pattern that a word stands for. -/
def expandPattern (output : Script → Running String) (w : Word) : Running (List Glob) := do
  return globOf (Atom.marks (← wordAtoms output wordDepth false (withHome (← shell) w)))

/-- The words that a word stands for. -/
def expandWord (output : Script → Running String) (w : Word) : Running (List String) := do
  let atoms ← wordAtoms output wordDepth false (withHome (← shell) w)
  let s ← get
  return (Fields.ofAtoms s.shell.separators atoms).flatMap (pathnames s.world.disk.tree s.shell)

end GatedRepair.Shell
