import GatedRepair.Machine.LineEdit.Reader
import GatedRepair.Machine.LineEdit.Run
import GatedRepair.Machine.LinePattern
import GatedRepair.Machine.Program.Bytes
import GatedRepair.Machine.Program.Content
import GatedRepair.Machine.Program.Format
import GatedRepair.Machine.Program.Place

/-!
# The programs that look through lines, and all programs by name
-/

/-!
## Looking for lines

The lines of files that a pattern is found in are written, or counted, or the files are named.
-/

namespace GatedRepair.Program

open Files Text

/-- What is looked for and where in a line it has to stand. -/
structure Quest where
  patterns : List LinePattern
  anyCase : Bool
  wholeWord : Bool
  wholeLine : Bool

/-- The places where something that is looked for ends, if it begins at a place. -/
def Quest.ends (q : Quest) (line : Array Char) (i : Nat) : List Nat :=
  if q.wholeLine && i ≠ 0 then []
  else
    (q.patterns.flatMap fun p => (p.ends q.anyCase line ⟨i, []⟩).map (·.stop)).filter fun j =>
      (!q.wholeLine || j = line.size) &&
        (!q.wholeWord || (!LinePattern.wordBefore line i && !LinePattern.wordAt line j))

/-- It stands in the line. -/
def Quest.isIn (q : Quest) (line : Array Char) : Bool := (List.range (line.size + 1)).any fun i => !(q.ends line i).isEmpty

/-- The longest parts of a line, from a place on, that are looked for, with the places where they begin. -/
def Quest.parts (q : Quest) (line : Array Char) : Nat → Nat → List (Nat × List Char)
  | 0, _ => []
  | fuel + 1, i =>
    match (q.ends line i).max? with
    | none => if line.size ≤ i then [] else q.parts line fuel (i + 1)
    | some j =>
      if j ≤ i then (if line.size ≤ i then [] else q.parts line fuel (i + 1))
      else (i, (line.extract i j).toList) :: q.parts line fuel j

/-- The letters under which options are kept that have only names. -/
def onlyNames : Char := '⊆'

def exceptNames : Char := '⊈'

def exceptDirectories : Char := '∖'

def colour : Char := '✎'

/-- The options of the program. -/
def grepOptions : Options.Known where
  letters := ['c', 'n', 'v', 'i', 'y', 'q', 'l', 'L', 'o', 'w', 'x', 'E', 'F', 'G', 'h', 'H', 's', 'r', 'R', 'a', 'b', 'z', 'Z', 'I', 'U',
    '0', '1', '2', '3', '4', '5', '6', '7', '8', '9']
  valued := ['e', 'f', 'm', 'A', 'B', 'C', 'd', onlyNames, exceptNames, exceptDirectories]
  names := [("basic-regexp", 'G'), ("extended-regexp", 'E'), ("fixed-regexp", 'F'), ("fixed-strings", 'F'), ("after-context", 'A'),
    ("before-context", 'B'), ("context", 'C'), ("color", colour), ("colour", colour), ("count", 'c'), ("directories", 'd'),
    ("exclude", exceptNames), ("exclude-dir", exceptDirectories), ("file", 'f'), ("files-with-matches", 'l'), ("files-without-match", 'L'),
    ("include", onlyNames), ("ignore-case", 'i'), ("line-number", 'n'), ("line-regexp", 'x'), ("max-count", 'm'), ("no-filename", 'h'),
    ("no-messages", 's'), ("null", 'Z'), ("null-data", 'z'), ("only-matching", 'o'), ("quiet", 'q'), ("recursive", 'r'),
    ("dereference-recursive", 'R'), ("regexp", 'e'), ("invert-match", 'v'), ("silent", 'q'), ("text", 'a'), ("binary", 'U'),
    ("with-filename", 'H'), ("word-regexp", 'w')]
  leading := false
  optional := [colour]

def grepHint : String := "Usage: grep [OPTION]... PATTERNS [FILE]...\nTry 'grep --help' for more information.\n"

/-- The whole number, with a sign if need be, that a text is. -/
def wholeNumber? (text : String) : Option Int :=
  let (negative, digits) := match text.toList.dropWhile fun c => c = ' ' || ('\t' ≤ c && c ≤ '\r') with
    | '-' :: digits => (true, digits)
    | '+' :: digits => (false, digits)
    | digits => (false, digits)
  if digits.isEmpty || !digits.all Char.isDigit then none
  else
    let n : Int := (digits.foldl (fun n c => 10 * n + (c.toNat - 48)) 0 : Nat)
    some (if negative then -n else n)

/-- What is wrong with the value of an option. -/
def grepComplaint? (option : Char × String) : Option String :=
  match option with
  | ('m', value) => if (wholeNumber? value).isNone then some "invalid max count" else none
  | (c, value) =>
    if c = 'A' || c = 'B' || c = 'C' then
      match wholeNumber? value with
      | some n => if n < 0 then some (value ++ ": invalid context length argument") else none
      | none => some (value ++ ": invalid context length argument")
    else none

/-- The parts of a text between its line ends. -/
def patternLines (text : String) : List (List Char) := Text.split '\n' text.toList

/-- How the lines that are found are shown. -/
structure GrepView where
  options : Options
  quest : Quest
  /-- The names of files stand in front of lines. -/
  named : Bool
  limit : Option Nat
  before : Nat
  after : Nat

/-- The files below a directory, with the names by which they are told. -/
def filesBelow (tree : Tree) (name : String) (location : Location) : List (String × ByteArray) :=
  ((tree.below location).filterMap fun (names, entry) => match entry with
    | .file content _ => some (toOctets ("/".intercalate names), content)
    | _ => none).mergeSort (fun a b => a.1 ≤ b.1) |>.map fun (path, content) =>
      (if name = "" then path else if name.toList.getLast? = some '/' then name ++ path else name ++ "/" ++ path, content)

/-- The options let a file of this name be read, whose path below the directory that is read has these names. -/
def isWanted (o : Options) (path : String) (below : Bool) : Bool :=
  let parts := Text.split '/' path.toList
  let fits := fun (option : Char) (name : List Char) => o.given.any fun (c, value) =>
    c = option && Shell.Glob.fits (Shell.globOf (value.toList.map fun c => (c, false))) name
  let last := parts.getLast?.getD []
  (!o.has onlyNames || fits onlyNames last) && !fits exceptNames last &&
    !(below && parts.dropLast.any (fits exceptDirectories))

/-- Lines that were passed over and may be shown yet, the last one first, how many are still to be shown after one that was
found, and where the next line begins. -/
structure GrepState where
  found : Nat
  passed : List (Nat × Nat × List Char)
  wanted : Nat
  lastShown : Nat
  start : Nat
  back : List String

/-- The sign after the name of a file. -/
def GrepView.nameEnd (v : GrepView) (sign : String) : String := if v.options.has 'Z' then "\x00" else sign

/-- The character that ends a line. -/
def GrepView.lineEnd (v : GrepView) : Char := if v.options.has 'z' then '\x00' else '\n'

/-- A line with what stands in front of it: its number and the place where it begins. -/
def GrepView.shown (v : GrepView) (name sign : String) (n start : Nat) (line : List Char) : String :=
  (if v.named then name ++ v.nameEnd sign else "") ++ (if v.options.has 'n' then n.repr ++ sign else "") ++
    (if v.options.has 'b' then start.repr ++ sign else "") ++ String.ofList line ++ String.singleton v.lineEnd

/-- One more line, with its number. -/
def GrepView.step (v : GrepView) (name : String) (s : GrepState) (numbered : Nat × List Char) : GrepState :=
  let (n, line) := numbered
  let marks := line.toArray
  let full := match v.limit with
    | some limit => limit ≤ s.found
    | none => false
  let context := 0 < v.before || 0 < v.after
  let next := s.start + marks.size + 1
  if !full && v.quest.isIn marks != v.options.has 'v' then
    if v.options.has 'o' then
      let parts := if v.options.has 'v' then [] else v.quest.parts marks (2 * marks.size + 2) 0
      let texts := parts.map fun (i, part) => v.shown name ":" n (s.start + i) part
      { s with found := s.found + 1, start := next, back := texts.reverse ++ s.back }
    else
      let earlier := (s.passed.take v.before).reverse
      let first := (earlier.head?.map (·.1)).getD n
      let rule := if context && 0 < s.lastShown && s.lastShown + 1 < first then ["--\n"] else []
      { found := s.found + 1
        passed := []
        wanted := v.after
        lastShown := n
        start := next
        back := v.shown name ":" n s.start line ::
          (earlier.map fun (m, start, other) => v.shown name "-" m start other).reverse ++ rule ++ s.back }
  else if 0 < s.wanted && !v.options.has 'o' then
    { s with wanted := s.wanted - 1, lastShown := n, start := next, back := v.shown name "-" n s.start line :: s.back }
  else { s with passed := ((n, s.start, line) :: s.passed).take v.before, start := next }

/-- What is written about one content, and whether something was found in it. -/
def GrepView.report (v : GrepView) (name : String) (content : String) : List (Stream × String) × Bool :=
  let o := v.options
  let lines := (endingIn v.lineEnd content).map fun line =>
    let chars := line.toList
    if chars.getLast? = some v.lineEnd then chars.dropLast else chars
  let s := (lines.zipIdx.map fun (line, i) => (i + 1, line)).foldl (v.step name) ⟨0, [], 0, 0, 0, []⟩
  let found := 0 < s.found
  let binary := !o.has 'a' && !o.has 'z' && content.toList.contains '\x00'
  let listed := [(Stream.out, name ++ v.nameEnd "\n")]
  if binary && o.has 'I' then ([], false)
  else
    (if o.has 'q' then []
    else if o.has 'l' || o.has 'L' then
      (if found != ((o.given.filter fun (c, _) => c = 'l' || c = 'L').getLast?.any (·.1 = 'L')) then listed else [])
    else if o.has 'c' then [(Stream.out, (if v.named then name ++ v.nameEnd ":" else "") ++ s.found.repr ++ "\n")]
    else if found && binary then [(Stream.err, "grep: " ++ name ++ ": binary file matches\n")]
    else [(Stream.out, String.join s.back.reverse)], found)

/-- A text that is looked for, and what is said in front of a complaint about it. -/
abbrev PatternText := String × List Char

/-- The patterns that the options and operands give, and the operands that are files. -/
def grepPatterns (o : Options) (start : Start) : Except (Option String) (List PatternText × List String) := do
  let given ← o.given.mapM fun (c, value) =>
    if c = 'e' then .ok ((patternLines value).map fun text => ("", text))
    else if c = 'f' then match start.content value with
      | .ok content => .ok ((linesOfOctets content).zipIdx.map fun (line, i) => (value ++ ":" ++ (i + 1).repr ++ ": ", bare line))
      | .error e => .error (some ("grep: " ++ value ++ ": " ++ e.words ++ "\n"))
    else .ok []
  if o.has 'e' || o.has 'f' then return (given.flatten, o.operands)
  else match o.operands with
    | [] => .error none
    | text :: files => return ((patternLines text).map fun text => ("", text), files)

/-- The patterns that are looked for with remarks about them, or the complaints. -/
def grepQuest (o : Options) (texts : List PatternText) : Except (List String) (List LinePattern × List String) :=
  let read := texts.map fun ((origin, text) : PatternText) =>
    if o.has 'F' then Except.ok (LinePattern.ofText text, ({} : LinePattern.Notes))
    else match LinePattern.parse (if o.has 'E' then .extended else .plain) text with
      | .ok found => .ok found
      | .error message => .error (origin ++ message)
  let wrong := read.filterMap fun
    | .error message => some message
    | .ok _ => none
  let found := read.filterMap Except.toOption
  if !wrong.isEmpty then .error wrong
  else if found.any (·.2.confusing) then .error ["character class syntax is [[:space:]], not [:space:]"]
  else .ok (found.map (·.1), found.flatMap (·.2.remarks.reverse))

/-- The number of lines around a line that is found which the digits among the options give. -/
def contextDigits? (o : Options) : Option Nat :=
  match o.given.filter (·.1.isDigit) with
  | [] => none
  | digits => some (digits.foldl (fun n (c, _) => 10 * n + (c.toNat - 48)) 0)

/-- Looks for the patterns in files. -/
def GrepView.search (v : GrepView) (files : List String) (remarks : List String) (start : Start) : Ran :=
  let o := v.options
  let skips := o.last? 'd' = some "skip"
  let recursive := o.has 'r' || o.has 'R' || o.last? 'd' = some "recurse"
  let below := fun (name : String) (location : Location) =>
    (filesBelow start.disk.tree name location).filterMap fun (path, content) =>
      let inner := String.ofList (path.toList.drop (name.length))
      if isWanted o inner true then some (path, Except.ok (octetsOfBytes content)) else none
  let contents : List (String × Except Failure String) :=
    if files.isEmpty && recursive then
      match start.disk.tree.find? (start.path ".") with
      | .ok (location, _) => below "" location
      | .error e => [(".", .error e)]
    else (if files.isEmpty then ["-"] else files).flatMap fun name =>
      match (if name = "" then Except.error Failure.notFound else start.disk.tree.find? (start.path name)) with
      | .ok (location, .directory) =>
        if recursive then below name location else if skips then [] else [(name, .error Failure.isDirectory)]
      | _ =>
        if name = "-" then [("(standard input)", start.content name)]
        else if isWanted o name false then [(name, start.content name)] else []
  let first : Ran := { start.ended 0 with
    written := remarks.map fun remark => (Stream.err, "grep: warning: " ++ remark ++ "\n")
    rest := if files.isEmpty || files.contains "-" then "" else start.input }
  let (ran, found) := contents.foldl (fun ((ran, found) : Ran × Bool) (name, content) => match content with
    | .ok content =>
      let (written, here) := v.report name content
      ({ ran with written := ran.written ++ written }, found || here)
    | .error e =>
      let told := if o.has 's' then { ran with status := 2 } else ran.complained ("grep: " ++ name ++ ": " ++ e.words ++ "\n") 2
      (if e = .isDirectory then { told with written := told.written ++ (v.report name "").1 } else told, found))
    (first, false)
  let ran := ran.buffered
  { ran with status := if found && o.has 'q' then 0 else if ran.status ≠ 0 then ran.status else if found then 0 else 1 }

/-- Looks for lines. -/
def grep : Program :=
  withOptions "grep" grepOptions 2 grepHint fun o start =>
    let styles := (o.given.filter fun (c, _) => c = 'E' || c = 'F' || c = 'G').map (·.1)
    let conflict := if styles.any fun c => some c ≠ styles.head? then some "conflicting matchers specified" else none
    match (o.given.findSome? grepComplaint?).or conflict with
    | some message => start.complained ("grep: " ++ message ++ "\n") 2
    | none =>
      match grepPatterns o start with
      | .error none => start.complained grepHint 2
      | .error (some message) => start.complained message 2
      | .ok (texts, files) =>
        let count := fun (c : Char) => ((o.last? c).bind wholeNumber?).map Int.toNat
        let limit := ((o.last? 'm').bind wholeNumber?).bind fun n => if n < 0 then none else some n.toNat
        if limit = some 0 && !o.has 'L' then start.ended 1
        else match grepQuest o texts with
          | .error messages => start.complained (String.join (messages.map fun message => "grep: " ++ message ++ "\n")) 2
          | .ok (patterns, remarks) =>
            let recursive := o.has 'r' || o.has 'R' || o.last? 'd' = some "recurse"
            let named := match (o.given.filter fun (c, _) => c = 'h' || c = 'H').getLast? with
              | some (c, _) => c = 'H'
              | none => 1 < files.length ||
                recursive && (files.isEmpty || files.any fun name => start.disk.tree.isDirectory (start.path name))
            let context := ((contextDigits? o).or (count 'C')).getD 0
            let view : GrepView :=
              ⟨o, ⟨patterns, o.has 'i' || o.has 'y', o.has 'w', o.has 'x'⟩, named, limit, (count 'B').getD context, (count 'A').getD context⟩
            view.search files remarks start

end GatedRepair.Program

/-!
## The program that edits lines
-/

namespace GatedRepair.Program

open Files Text LineEdit

/-- The options of the program. -/
def sedOptions : Options.Known where
  letters := ['n', 'r', 'E', 's', 'z', 'u', 'i']
  valued := ['e', 'f', 'l']
  names := [("expression", 'e'), ("file", 'f'), ("in-place", 'i'), ("line-length", 'l'), ("null-data", 'z'), ("quiet", 'n'),
    ("regexp-extended", 'E'), ("separate", 's'), ("silent", 'n'), ("unbuffered", 'u'), ("zero-terminated", 'z')]
  leading := false
  optional := ['i']

def sedHint : String := "Usage: sed [OPTION]... {script-only-if-no-other-script} [input-file]...\n\n"

/-- The files that a script writes to. -/
def writtenFiles (script : LineEdit.Script) : List String :=
  script.commands.toList.filterMap fun c => match c.action with
    | .write file => some file
    | .writeFirst file => some file
    | .substitute s => s.file
    | _ => none

/-- A text put into a file: in its place, or at its end. -/
def putText (start : Start) (ran : Ran) (name text : String) (atEnd : Bool) : Ran :=
  if name = "/dev/stdout" then ran.wrote text
  else if name = "/dev/stderr" then { ran with written := ran.written ++ [(.err, text)] }
  else
    let path := start.path name
    let (made, disk) := if atEnd then ran.disk.append path (bytesOfOctets text) else ran.disk.write path (bytesOfOctets text)
    match made with
    | .ok () => { ran with disk }
    | .error e => ran.complained ("sed: couldn't open file " ++ name ++ ": " ++ e.words ++ "\n") 4

/-- What the editing of files left: the output, the files that were edited in their places, and those that the script wrote. -/
def edited (start : Start) (ran : Ran) (inPlace : Bool) (files : List String) (script : LineEdit.Script) (s : State) : Ran :=
  let written := s.written.reverse
  let emptied := (writtenFiles script).foldl (fun ran name =>
    if name = "/dev/stdout" || name = "/dev/stderr" then ran else putText start ran name "" false) ran
  let placed := if !inPlace then emptied
    else files.foldl (fun ran name =>
      let texts := written.filterMap fun (target, file, text) => if target = .output && file = name then some text else none
      putText start ran name (String.join texts) false) emptied
  written.foldl (fun ran (target, _, text) => match target with
    | .output => if inPlace then ran else ran.wrote text
    | .file name => putText start ran name text true) placed

/-- The lines of the files that can be read, and what is said about the others. -/
def sedInputs (start : Start) (names : List String) (ending : Char) (inPlace : Bool) : List Unread × Ran :=
  names.foldl (fun ((inputs, ran) : List Unread × Ran) name =>
    if inPlace && start.disk.tree.isDirectory (start.path name) then
      (inputs, ran.complained ("sed: couldn't edit " ++ name ++ ": not a regular file\n") 4)
    else match start.content name with
      | .ok text => (inputs ++ [(name, endingIn ending text)], ran)
      | .error .isDirectory => (inputs, ran.complained ("sed: read error on " ++ name ++ ": Is a directory\n") ran.status)
      | .error e => (inputs, ran.complained ("sed: can't read " ++ name ++ ": " ++ e.words ++ "\n") 2))
    ([], { start.ended 0 with rest := if names.contains "-" then "" else start.input })

/-- Edits the lines of files with a script. -/
def sed : Program :=
  withOptions "sed" sedOptions 1 sedHint fun o start =>
    let pieces := o.given.filterMap fun (c, value) =>
      if c = 'e' then some (Except.ok value) else if c = 'f' then some ((start.content value).mapError fun e => (value, e)) else none
    let (scripts, names) := if pieces.isEmpty then ((o.operands.take 1).map Except.ok, o.operands.drop 1) else (pieces, o.operands)
    match scripts.mapM id with
    | .error (name, e) => start.complained ("sed: couldn't open file " ++ name ++ ": " ++ e.words ++ "\n") 1
    | .ok [] => start.complained sedHint 1
    | .ok texts =>
      let style := if o.has 'E' || o.has 'r' then LinePattern.Style.extended else .plain
      match LineEdit.Script.parse style (o.has 'n') ("\n".intercalate texts).toList with
      | .error message => start.complained ("sed: " ++ message ++ "\n") 1
      | .ok script =>
        let inPlace := o.has 'i'
        let ending := if o.has 'z' then '\x00' else '\n'
        let names := if names.isEmpty then ["-"] else names
        let (inputs, ran) := sedInputs start names ending inPlace
        let content := fun (name : String) => (start.content (if name = "/dev/stdin" then "-" else name)).toOption
        let (outcome, s) := edit ⟨script, inPlace || o.has 's', ending⟩ content inputs
        let done := edited start ran inPlace (inputs.map (·.1)) script s
        match outcome with
        | .ended status => { done with status := max status done.status }
        | .failed message => done.complained ("sed: " ++ message ++ "\n") 1
        | .endless => { done with wait := endlessTime }

end GatedRepair.Program

/-!
## The machine's programs

The programs stand in a directory of the machine, and a name leads to one of them by way of the places that are searched.
-/

namespace GatedRepair

open Files Text

namespace Program

def succeed : Program := fun start => start.ended 0

def fail : Program := fun start => start.ended 1

def pwd : Program := fun start => start.wrote (toOctets start.directory ++ "\n")

/-- The programs by their names. -/
def table : List (String × Program) :=
  [("basename", basename), ("cat", cat), ("chmod", chmod), ("cp", cp), ("cut", cut), ("dirname", dirname), ("echo", echo),
    ("false", fail), ("grep", grep), ("head", head), ("ln", ln), ("ls", ls), ("mkdir", mkdir), ("mv", mv), ("printf", printf),
    ("pwd", pwd), ("rev", rev), ("rm", rm), ("rmdir", rmdir), ("sed", sed), ("seq", seq), ("sleep", sleep), ("sort", sort), ("tac", tac),
    ("tail", tail), ("tee", tee), ("touch", touch), ("tr", tr), ("true", succeed), ("uniq", uniq), ("wc", wc), ("yes", yes)]

end Program

/-- What can be run: a program, or a shell. -/
inductive Executable where
  | program (run : Program)
  | shell

namespace Machine

/-- The directory of the programs. -/
def programs : Location := ["usr", "bin"]

/-- The names of the shell. -/
def shells : List String := ["sh", "dash"]

/-- The first process, as the system shows it: it runs under all users of the machine, and nothing changes that. -/
def firstProcess : List (Location × Entry) :=
  [(["proc"], .directory), (["proc", "1"], .directory),
    (["proc", "1", "uid_map"], .file "         0          0 4294967295\n".toUTF8 { Mode.shared with isFixed := true })]

/-- What stands on the machine besides the tree that a command is run in. -/
def entries : List (Location × Entry) :=
  [(["usr"], .directory), (programs, .directory), (["bin"], .link "usr/bin"), (["etc"], .directory), (["dev"], .directory),
    (["home"], .directory), (["root"], .directory), (["var"], .directory), (["tmp"], .directory)] ++ firstProcess ++
    (Program.table.map (·.1) ++ shells).map fun name => (programs ++ [name], .file ByteArray.empty .shared)

/-- The tree with the machine around it. -/
def surround (tree : Tree) : Tree :=
  ⟨tree.entries ++ entries.filter fun (location, _) => (tree.get? location).isNone⟩

/-- The tree without what belongs to the machine. -/
def withdraw (original tree : Tree) : Tree :=
  ⟨tree.entries.filter fun (location, _) =>
    (original.get? location).isSome || !entries.any fun (other, _) => other = location⟩

/-- The places in which programs are searched unless other ones are named. -/
def standardPlaces : String := "/usr/local/sbin:/usr/local/bin:/usr/sbin:/usr/bin:/sbin:/bin"

/-- What can be run at a path. Files of the tree are not for running. -/
def executable (tree : Tree) (path : String) : Except Failure Executable :=
  match tree.find? path with
  | .error e => .error e
  | .ok (location, .file ..) =>
    match location.getLast? with
    | some name =>
      if location.dropLast ≠ programs then .error .denied
      else if shells.contains name then .ok .shell
      else match Program.table.lookup name with
        | some program => .ok (.program program)
        | none => .error .denied
    | none => .error .denied
  | .ok _ => .error .denied

/-- The first place that has something to run. What is there but cannot be run is told only if nothing else is found. -/
def searchIn (tree : Tree) (directory name : String) : List String → Option Failure → Except Failure (String × Executable)
  | [], failure => .error (failure.getD .notFound)
  | place :: more, failure =>
    let path := Path.within (Path.within directory place) name
    match executable tree path with
    | .ok found => .ok (if place = "" then name else Path.within place name, found)
    | .error .notFound => searchIn tree directory name more failure
    | .error .notDirectory => searchIn tree directory name more failure
    | .error .denied => searchIn tree directory name more (some .denied)
    | .error e => .error e

/-- What a name stands for that is to be run, with the path of it. A name with a slash is a path. -/
def search (tree : Tree) (directory places name : String) : Except Failure (String × Executable) :=
  if name = "" then .error .notFound
  else if name.contains '/' then (executable tree (Path.within directory name)).map fun found => (name, found)
  else if nameLimit < name.utf8ByteSize then .error .nameTooLong
  else searchIn tree directory name ((Text.split ':' places.toList).map String.ofList) none

end Machine

end GatedRepair
