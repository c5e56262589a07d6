import GatedRepair.Machine.Program.Content
import GatedRepair.Number
import GatedRepair.Text.Lines
import GatedRepair.Time

/-!
# Times in words

What a program takes for a point in time: digits alone, or a date, a time of the day and words in any order.
-/

namespace GatedRepair.Program

open Number

/-- The number that digits spell. -/
def spelledNumber (digits : List Char) : Nat := digits.foldl (fun n c => n * 10 + (digit? c).getD 0) 0

/-- There is such a day and such a time. The last second of a minute may be a leap second. -/
def isMoment (year month day hour minute second : Nat) : Bool :=
  second ≤ 60 && (Timestamp.ofFields? year month day hour minute (min second 59) 0).isSome

/-- The text is a month, a day, an hour and a minute of two digits each, after a year of none, two or four digits and before
a point and seconds if need be. -/
def isStamp (text : String) : Bool :=
  let (digits, second) := match Text.splitFirst? '.' text.toList with
    | some (digits, second) => (digits, some second)
    | none => (text.toList, none)
  let size := digits.length
  let year := match size with
    | 8 => some 2024
    | 10 => some (let n := spelledNumber (digits.take 2); if n < 69 then 2000 + n else 1900 + n)
    | 12 => some (spelledNumber (digits.take 4))
    | _ => none
  let part := fun (i : Nat) => spelledNumber ((digits.drop (size - 8 + 2 * i)).take 2)
  digits.all Char.isDigit && (second.map fun s => s.length = 2 && s.all Char.isDigit).getD true &&
    (year.map fun year => isMoment year (part 0) (part 1) (part 2) (part 3) ((second.map spelledNumber).getD 0)).getD false

/-- The words that a time may be told in. -/
def timeWords : List String :=
  ["now", "today", "yesterday", "tomorrow", "noon", "midnight", "ago", "hence", "next", "last", "this", "am", "pm", "utc", "gmt", "est",
    "edt", "cst", "cdt", "mst", "mdt", "pst", "pdt", "cet", "cest", "bst", "wet", "eet", "jst", "year", "years", "month", "months",
    "fortnight", "fortnights", "week", "weeks", "day", "days", "hour", "hours", "minute", "minutes", "min", "mins", "second", "seconds",
    "sec", "secs", "january", "february", "march", "april", "may", "june", "july", "august", "september", "october", "november",
    "december", "jan", "feb", "mar", "apr", "jun", "jul", "aug", "sep", "sept", "oct", "nov", "dec", "monday", "tuesday", "wednesday",
    "thursday", "friday", "saturday", "sunday", "mon", "tue", "tues", "wed", "wednes", "thu", "thur", "thurs", "fri", "sat", "sun",
    "first", "third", "fourth", "fifth", "sixth", "seventh", "eighth", "ninth", "tenth", "eleventh", "twelfth", "dst"]

/-- The word is a date of three numbers between hyphens. -/
def isDay (word : List Char) : Option Bool :=
  match Text.split '-' word with
  | [year, month, day] =>
    if [year, month, day].all fun part => !part.isEmpty && part.all Char.isDigit then
      some (isMoment (spelledNumber year) (spelledNumber month) (spelledNumber day) 0 0 0)
    else none
  | _ => none

/-- The word is a time of the day, perhaps with an offset after it. -/
def isClock (word : List Char) : Bool :=
  let isOffset := fun (c : Char) => c = '+' || c = '-' || c = 'Z' || c = 'z'
  let time := word.takeWhile (!isOffset ·)
  let offset := (word.drop time.length).drop 1
  let parts := Text.split ':' time
  let number := fun (part : List Char) => spelledNumber (part.takeWhile Char.isDigit)
  (parts.length = 2 || parts.length = 3) && parts.all (fun part => !part.isEmpty && part.all fun c => c.isDigit || c = '.') &&
    offset.all (fun c => c.isDigit || c = ':') &&
    isMoment 2024 1 1 (number (parts.getD 0 [])) (number (parts.getD 1 [])) (number (parts.getD 2 []))

/-- The word can be part of a time. -/
def isTimeWord (word : List Char) : Bool :=
  if word.all Char.isAlpha then
    word.length ≤ 1 || timeWords.contains (String.ofList (word.map Char.toLower))
  else if word.contains ':' then
    match Text.splitFirst? 'T' word with
    | some (day, clock) => (isDay day).getD false && isClock clock
    | none => isClock word
  else match isDay word with
    | some answer => answer
    | none =>
      let letters := word.dropWhile fun c => c.isDigit || c = '+' || c = '-' || c = '.' || c = '@' || c = '/'
      letters.isEmpty || letters.all Char.isAlpha && timeWords.contains (String.ofList (letters.map Char.toLower))

/-- The text tells a time. -/
def isDate (text : String) : Bool :=
  ((Text.split ' ' (text.toList.map fun c => if c = ',' || c = '\t' then ' ' else c)).filter (!·.isEmpty)).all isTimeWord

end GatedRepair.Program

/-!
## Programs that change the tree of files
-/

namespace GatedRepair.Program

open Files Text

/-- A program that does something with each of its operands, one after another. -/
def eachOperand (start : Start) (names : List String) (act : Ran → String → Ran) : Ran := names.foldl act (start.ended 0)

/-- What stands at a path, without following a link at its end. -/
def standing (tree : Tree) (path : String) : Except Failure (Location × Entry) :=
  match tree.locate false path with
  | .ok (.found location entry) => .ok (location, entry)
  | .ok (.missing ..) => .error .notFound
  | .error e => .error e

/-- What stands where a program's operand says, without following a link at its end. -/
def standingAt (start : Start) (tree : Tree) (name : String) : Except Failure (Location × Entry) :=
  if name = "" then .error .notFound else standing tree (start.path name)

/-- What is wrong with the times that are given to a program that makes files. -/
def touchComplaint? (o : Options) (start : Start) : Option String :=
  let wrong := fun (text : String) => "touch: invalid date format " ++ quotedWord text ++ "\n"
  let stamp := (o.given.filter fun (c, _) => c = 't').find? fun (_, text) => !isStamp text
  match stamp with
  | some (_, text) => some (wrong text)
  | none =>
    if o.has 't' && (o.has 'd' || o.has 'r') then
      some ("touch: cannot specify times from more than one source\n" ++ hintFor "touch")
    else match (o.last? 'r').bind fun name => match start.disk.tree.find? (start.path name) with
        | .ok _ => none
        | .error e => some ("touch: failed to get attributes of " ++ quotedName name ++ ": " ++ e.words ++ "\n") with
      | some message => some message
      | none => (o.last? 'd').bind fun text => if isDate text then none else some (wrong text)

/-- Makes files that are missing. -/
def touch : Program :=
  withOptions "touch"
    { letters := ['a', 'c', 'm', 'h', 'f'], valued := ['d', 'r', 't']
      names := [("date", 'd'), ("no-create", 'c'), ("no-dereference", 'h'), ("reference", 'r')], leading := false }
    1 (hintFor "touch") fun o start =>
    match touchComplaint? o start with
    | some message => start.complained message 1
    | none =>
      if o.operands.isEmpty then start.misused "touch" "missing file operand" 1
      else eachOperand start o.operands fun ran name =>
        let path := start.path name
        let unset := fun (e : Failure) => ran.complained ("touch: setting times of " ++ quotedName name ++ ": " ++ e.words ++ "\n") 1
        let found := if name = "" then Except.error Failure.notFound
          else if o.has 'h' then (standing ran.disk.tree path).map fun _ => () else (ran.disk.tree.find? path).map fun _ => ()
        if name = "-" || (deviceContent? 0 "" path).isSome then ran
        else match found with
          | .ok () => ran
          | .error e =>
            if o.has 'c' then (if e = .notFound then ran else unset e)
            else if o.has 'h' || e = .notDirectory && name.toList.getLast? = some '/' then unset e
            else if name = "" then ran.complained "touch: cannot touch '': No such file or directory\n" 1
            else match ran.disk.write path ByteArray.empty with
              | (.ok (), disk) => { ran with disk }
              | (.error .isDirectory, _) => unset .notFound
              | (.error e, disk) => { ran.complained ("touch: cannot touch " ++ quotedName name ++ ": " ++ e.words ++ "\n") 1 with disk }

/-- Removes files, and directories with all that is in them if asked to. -/
def rm : Program :=
  withOptions "rm" { letters := ['f', 'r', 'R', 'i', 'v', 'd'], valued := [], names := [("force", 'f'), ("recursive", 'r')], leading := false }
    1 (hintFor "rm") fun o start =>
    if o.operands.isEmpty then (if o.has 'f' then start.ended 0 else start.misused "rm" "missing operand" 1)
    else eachOperand start o.operands fun ran name =>
      let fails := fun (words : String) => ran.complained ("rm: cannot remove " ++ quotedName name ++ ": " ++ words ++ "\n") 1
      let last := (Text.split '/' (name.toList.reverse.dropWhile (· == '/')).reverse).getLast?.getD []
      let recursive := o.has 'r' || o.has 'R'
      let told := fun (ran : Ran) (kind : String) => if o.has 'v' then ran.wrote ("removed " ++ kind ++ quotedName name ++ "\n") else ran
      match standingAt start ran.disk.tree name with
      | .error e => if o.has 'f' && (e = .notFound || e = .notDirectory) then ran else fails e.words
      | .ok (location, .directory) =>
        if recursive && (last = ['.'] || last = ['.', '.']) then
          ran.complained ("rm: refusing to remove '.' or '..' directory: skipping " ++ quotedName name ++ "\n") 1
        else if recursive then told { ran with disk := { ran.disk with tree := ran.disk.tree.prune location } } "directory "
        else if !o.has 'd' then fails Failure.isDirectory.words
        else if (ran.disk.tree.below location).isEmpty then
          told { ran with disk := { ran.disk with tree := ran.disk.tree.remove location } } "directory "
        else fails "Directory not empty"
      | .ok (location, _) => told { ran with disk := { ran.disk with tree := ran.disk.tree.remove location } } ""

/-- Makes directories. -/
def mkdir : Program :=
  withOptions "mkdir" { letters := ['p', 'v'], valued := ['m'], names := [("parents", 'p'), ("mode", 'm')], leading := false } 1
    (hintFor "mkdir") fun o start =>
    if o.operands.isEmpty then start.misused "mkdir" "missing operand" 1
    else eachOperand start o.operands fun ran name =>
      let path := start.path name
      let (made, disk) := if name = "" then (.error .notFound, ran.disk)
        else if o.has 'p' then ran.disk.makeDirectories path else ran.disk.makeDirectory path
      match made with
      | .ok () =>
        let done := { ran with disk }
        if o.has 'v' && !o.has 'p' then done.wrote ("mkdir: created directory " ++ quotedName name ++ "\n") else done
      | .error e => { ran.complained ("mkdir: cannot create directory " ++ quotedName name ++ ": " ++ e.words ++ "\n") 1 with disk }

/-- Removes empty directories. -/
def rmdir : Program := fun start =>
  if start.arguments.isEmpty then start.misused "rmdir" "missing operand" 1
  else eachOperand start start.arguments fun ran name =>
    let fails := fun (words : String) => ran.complained ("rmdir: failed to remove " ++ quotedName name ++ ": " ++ words ++ "\n") 1
    match standingAt start ran.disk.tree name with
    | .error e => fails e.words
    | .ok (location, .directory) =>
      if (ran.disk.tree.below location).isEmpty then { ran with disk := { ran.disk with tree := ran.disk.tree.remove location } }
      else fails "Directory not empty"
    | .ok _ => fails Failure.notDirectory.words

/-- The tree with all that is at a location put at another one as well, with the entries as they are carried there. -/
def carriedTree (carry : Entry → Entry) (tree : Tree) (source target : Location) (entry : Entry) : Tree :=
  (tree.below source).foldl (fun tree (names, entry) => tree.put (target ++ names) (carry entry))
    (tree.put target (carry entry))

/-- The last name of a path. -/
def lastName (name : String) : String :=
  String.ofList ((name.toList.reverse.dropWhile (· == '/')).takeWhile (· ≠ '/')).reverse

/-- The sources and the target among operands, and whether the target is a directory to put them in. -/
def sourcesAndTarget (start : Start) (operands : List String) : List String × String × Bool :=
  let target := operands.getLastD ""
  (operands.dropLast, target, start.disk.tree.isDirectory (start.path target))

/-- What is said of a target that is no directory to put several things in. -/
def noDirectory (program : String) (start : Start) (target : String) : Ran :=
  start.complained (program ++ ": target " ++ quotedName target ++
    (if start.disk.tree.exists? (start.path target) then ": Not a directory\n" else ": No such file or directory\n")) 1

/-- Moves or copies sources onto a target or into a directory. -/
def transfer (name verb : String) (keep recursive : Bool) (start : Start) (operands : List String) : Ran :=
  match operands with
  | [] => start.misused name "missing file operand" 1
  | [only] => start.misused name ("missing destination file operand after " ++ quotedWord only) 1
  | _ =>
    let (sources, target, into) := sourcesAndTarget start operands
    if 1 < sources.length && !into then noDirectory name start target
    else eachOperand start sources fun ran source =>
      let tree := ran.disk.tree
      let wanted := if into then target ++ (if target.toList.getLast? = some '/' then "" else "/") ++ lastName source else target
      match (if source ≠ "" && keep && !recursive then tree.find? (start.path source) else standingAt start tree source) with
      | .error e => ran.complained (name ++ ": cannot stat " ++ quotedName source ++ ": " ++ e.words ++ "\n") 1
      | .ok (origin, entry) =>
        if keep && !recursive && entry = .directory then
          ran.complained ("cp: -r not specified; omitting directory " ++ quotedName source ++ "\n") 1
        else match tree.locate keep (start.path wanted) with
          | .error e => ran.complained (name ++ ": cannot " ++ verb ++ " " ++ (if keep then "" else quotedName source ++ " to ") ++ quotedName wanted ++ ": " ++ e.words ++ "\n") 1
          | .ok spot =>
            let place := match spot with
              | .found location _ => location
              | .missing directory name _ => directory ++ [name]
            if entry = .directory && origin.isPrefixOf place then
              ran.complained (name ++ (if keep then ": cannot copy a directory, " ++ quotedName source ++ ", into itself, " ++ quotedName wanted
                else ": cannot move " ++ quotedName source ++ " to a subdirectory of itself, " ++ quotedName wanted) ++ "\n") 1
            else if entry = .directory && (tree.get? place).any (· ≠ .directory) then
              ran.complained (name ++ ": cannot overwrite non-directory " ++ quotedName wanted ++ " with directory " ++ quotedName source ++ "\n") 1
            else if place = origin || (tree.find? (start.path source)).toOption.any (·.1 = place) then
              ran.complained (name ++ ": " ++ quotedName source ++ " and " ++ quotedName wanted ++ " are the same file\n") 1
            else if entry ≠ .directory && tree.get? place = some .directory then
              ran.complained (name ++ ": cannot overwrite directory " ++ quotedName wanted ++ " with non-directory " ++ quotedName source ++ "\n") 1
            else
              let carried := carriedTree (if keep then Entry.copied else id) tree origin place entry
              { ran with disk := { ran.disk with tree := if keep then carried else carried.prune origin } }

/-- Moves files and directories. -/
def mv : Program :=
  withOptions "mv" { letters := ['f', 'i', 'n', 'v', 'u'], valued := [], names := [("force", 'f')], leading := false } 1 (hintFor "mv")
    fun o start => transfer "mv" "move" false true start o.operands

/-- Copies files, and directories if asked to. -/
def cp : Program :=
  withOptions "cp" { letters := ['f', 'i', 'r', 'R', 'a', 'p', 'v'], valued := [], names := [("recursive", 'r'), ("archive", 'a')], leading := false }
    1 (hintFor "cp") fun o start =>
    transfer "cp" "create regular file" true (o.has 'r' || o.has 'R' || o.has 'a') start o.operands

/-- Makes one link, in a directory if one is named. A link that is not symbolic is a copy here. -/
def linked (o : Options) (start : Start) (name : String) (ran : Ran) (target : String) : Ran :=
  let tree := ran.disk.tree
  let name := if tree.isDirectory (start.path name) then name ++ "/" ++ lastName target else name
  let kind := if o.has 's' then "symbolic link" else "hard link"
  let put := fun (location : Location) =>
    if o.has 's' then { ran with disk := { ran.disk with tree := tree.put location (.link (ofOctets target)) } }
    else match standingAt start tree target with
      | .ok (_, .directory) => ran.complained ("ln: " ++ plainName target ++ ": hard link not allowed for directory\n") 1
      | .ok (_, entry) => { ran with disk := { ran.disk with tree := tree.put location entry } }
      | .error e => ran.complained ("ln: failed to access " ++ quotedName target ++ ": " ++ e.words ++ "\n") 1
  match tree.locate false (start.path name) with
  | .ok (.missing directory last _) => put (directory ++ [last])
  | .ok (.found location _) =>
    if o.has 'f' then put location
    else ran.complained ("ln: failed to create " ++ kind ++ " " ++ quotedName name ++ ": File exists\n") 1
  | .error e => ran.complained ("ln: failed to create " ++ kind ++ " " ++ quotedName name ++ ": " ++ e.words ++ "\n") 1

/-- Makes links. -/
def ln : Program :=
  withOptions "ln" { letters := ['s', 'f', 'n', 'v'], valued := [], names := [("symbolic", 's'), ("force", 'f')], leading := false } 1
    (hintFor "ln") fun o start =>
    match o.operands with
    | [] => start.misused "ln" "missing file operand" 1
    | [target] => linked o start (lastName target) (start.ended 0) target
    | operands =>
      let (targets, name, into) := sourcesAndTarget start operands
      if 1 < targets.length && !into then noDirectory "ln" start name
      else eachOperand start targets (linked o start name)

/-- The names in a directory, in order. -/
def namesIn (tree : Tree) (location : Location) : List String :=
  let found := (tree.below location).filterMap fun (names, _) => names.head?
  ((found.foldl (fun (kept : List String) name => if kept.contains name then kept else name :: kept) []).map toOctets).mergeSort
    fun a b => a ≤ b

/-- Lists the names in directories. -/
def ls : Program :=
  withOptions "ls" { letters := ['a', 'A', '1', 'd', 'C', 'F', 'p', 'r', 't'], valued := [], names := [("all", 'a'), ("almost-all", 'A')], leading := false }
    2 (hintFor "ls") fun o start =>
    let tree := start.disk.tree
    let names := if o.operands.isEmpty then ["."] else o.operands
    let ordered := fun (names : List String) => if o.has 'r' then names.reverse else names
    let shown := fun (location : Location) =>
      let all := namesIn tree location
      let seen := if o.has 'a' || o.has 'A' then all else all.filter (·.toList.head? ≠ some '.')
      ordered (if o.has 'a' then [".", ".."] ++ seen else seen)
    let look := fun (name : String) => show Except Failure (Location × Entry) from
      if name ≠ "" && (deviceContent? 0 "" (start.path name)).isSome then .ok ([], Entry.file ByteArray.empty .shared)
      else match (if name = "" || o.has 'd' then Except.error Failure.notFound else tree.find? (start.path name)) with
        | .ok found => .ok found
        | .error _ => standingAt start tree name
    let failed := names.filterMap fun name => match look name with
      | .error e => some ("ls: cannot access " ++ quotedName name ++ ": " ++ e.words ++ "\n")
      | .ok _ => none
    let found := (names.mergeSort fun a b => a ≤ b).filterMap fun name => ((look name).toOption.map fun entry => (name, entry))
    let isDirectory := fun (entry : String × Location × Entry) => entry.2.2 = .directory && !o.has 'd'
    let files := ordered ((found.filter (!isDirectory ·)).map (·.1))
    let blocks := ((found.filter isDirectory).map fun (name, location, _) =>
      (if 1 < names.length then name ++ ":\n" else "") ++ String.join ((shown location).map (· ++ "\n")))
    let listed := String.join (files.map (· ++ "\n"))
    let out := "\n".intercalate ((if files.isEmpty then [] else [listed]) ++ blocks)
    { start.ended (if failed.isEmpty then 0 else 2) with
      written := failed.map (Stream.err, ·) ++ [(Stream.out, out)] }

/-- Changes nothing that can be seen, but for names that are missing. -/
def chmod : Program := fun start =>
  eachOperand start (start.arguments.drop 1) fun ran name =>
    match start.disk.tree.find? (start.path name) with
    | .ok _ => ran
    | .error e => ran.complained ("chmod: cannot access " ++ quotedName name ++ ": " ++ e.words ++ "\n") 1

end GatedRepair.Program
