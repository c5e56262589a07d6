import GatedRepair.Machine.Program.Basic
import GatedRepair.Number

/-!
# Programs that show contents

They write files or their input, whole or in part, with numbers or counted.
-/

namespace GatedRepair.Program

open Files Number

/-- The complaint about a file, with the name of the program. -/
def plainComplaint (program : String) (name : String) (e : Failure) : String :=
  program ++ ": " ++ plainName name ++ ": " ++ e.words ++ "\n"

/-- A number at the end of a field of a width. -/
def column (width n : Nat) : String :=
  let digits := n.repr
  String.ofList (List.replicate (width - digits.length) ' ') ++ digits

/-- What `cat` shows of a content. -/
structure CatView where
  numbered : Bool
  filledOnly : Bool
  squeezed : Bool
  ends : Bool
  tabs : Bool
  controls : Bool

/-- A character as it is shown. -/
def CatView.show (v : CatView) (c : Char) : List Char :=
  let plain := fun (n : Nat) => if n = 127 then ['^', '?'] else if n < 32 then ['^', Char.ofNat (n + 64)] else [Char.ofNat n]
  if c = '\t' then (if v.tabs then ['^', 'I'] else ['\t'])
  else if v.controls then (if 128 ≤ c.toNat then ['M', '-'] ++ plain (c.toNat - 128) else plain c.toNat)
  else [c]

/-- Where `cat` stands: the number of the last line, whether a line begins, and how many empty lines came before. -/
structure CatState where
  number : Nat
  atStart : Bool
  empty : Nat

/-- What is written for a character. -/
def CatView.step (v : CatView) (s : CatState) (c : Char) : CatState × List Char :=
  let isEmpty := s.atStart && c = '\n'
  if isEmpty && v.squeezed && 0 < s.empty then (s, [])
  else
    let counted := s.atStart && v.numbered && !(isEmpty && v.filledOnly)
    let number := if counted then s.number + 1 else s.number
    let front := if counted then (column 6 number).toList ++ ['\t'] else []
    let body := if c = '\n' then (if v.ends then ['$', '\n'] else ['\n']) else v.show c
    (⟨number, c = '\n', if isEmpty then s.empty + 1 else 0⟩, front ++ body)

/-- Writes files one after another. -/
def cat : Program :=
  withOptions "cat"
    { letters := ['A', 'b', 'e', 'E', 'n', 's', 't', 'T', 'u', 'v'], valued := []
      names := [("show-all", 'A'), ("number-nonblank", 'b'), ("show-ends", 'E'), ("number", 'n'), ("squeeze-blank", 's'),
        ("show-tabs", 'T'), ("show-nonprinting", 'v')]
      leading := false } 1 (hintFor "cat") fun o start =>
    let has := fun (letters : List Char) => letters.any o.has
    let v : CatView := {
      numbered := has ['n', 'b'], filledOnly := has ['b'], squeezed := has ['s']
      ends := has ['A', 'e', 'E'], tabs := has ['A', 't', 'T'], controls := has ['A', 'e', 't', 'v'] }
    let asIs := !(v.numbered || v.squeezed || v.ends || v.tabs || v.controls)
    let ran := (start.eachContent o.operands (plainComplaint "cat") (CatState.mk 0 true 0) fun state _ text =>
      if asIs then (state, text)
      else
        let (state, back) := text.toList.foldl
          (fun ((state, back) : CatState × List (List Char)) c =>
            let (state, chars) := v.step state c
            (state, chars :: back)) (state, [])
        (state, String.ofList back.reverse.flatten)).2
    if start.missesInput o.operands then ran.complained "cat: closing standard input: Bad file descriptor\n" 1 else ran

/-- A count with a letter for a multiple. -/
def countOf? (text : String) : Option Nat :=
  let digits := text.toList.takeWhile Char.isDigit
  let unit : Option Nat := match String.ofList (text.toList.drop digits.length) with
    | "" => some 1
    | "b" => some 512
    | "K" => some 1024
    | "k" => some 1024
    | "KiB" => some 1024
    | "kB" => some 1000
    | "KB" => some 1000
    | "M" => some 1048576
    | "MB" => some 1000000
    | "G" => some 1073741824
    | _ => none
  match unit, digits with
  | some unit, _ :: _ => some (digits.foldl (fun n c => n * 10 + (digit? c).getD 0) 0 * unit)
  | _, _ => none

/-- The part of a content that is shown: the first or last so many lines or bytes, or all but those. -/
structure Portion where
  byLines : Bool
  count : Nat
  /-- The count is of what is left out. -/
  inverse : Bool
  /-- What lines end in. -/
  ending : Char

/-- The units of a content: lines or bytes. -/
def Portion.units (p : Portion) (text : String) : List String :=
  if p.byLines then endingIn p.ending text else text.toList.map String.singleton

def Portion.first (p : Portion) (text : String) : String :=
  if !p.byLines && !p.inverse then String.ofList (text.toList.take p.count)
  else
    let units := p.units text
    String.join (units.take (if p.inverse then units.length - p.count else p.count))

def Portion.last (p : Portion) (text : String) : String :=
  if !p.byLines && !p.inverse then String.ofList (text.toList.drop (text.length - p.count))
  else
    let units := p.units text
    String.join (units.drop (if p.inverse then p.count - 1 else units.length - p.count))

/-- A count that is an option of its own: its sign, its digits and the letters after them. -/
def bareCount? (word : String) : Option (Char × String × List Char) :=
  match word.toList with
  | sign :: c :: more =>
    let digits := (c :: more).takeWhile Char.isDigit
    if (sign = '-' || sign = '+') && !digits.isEmpty then some (sign, String.ofList digits, (c :: more).drop digits.length) else none
  | _ => none

/-- The options of the programs that show a part of each content. -/
def portionOptions : Options.Known where
  letters := ['q', 'v', 'z', 'f']
  valued := ['n', 'c']
  names := [("lines", 'n'), ("bytes", 'c'), ("quiet", 'q'), ("silent", 'q'), ("verbose", 'v')]
  leading := false

/-- Shows a part of each content, with a line above it that names the file if there are several. `unopened` says what fails
where the input is not open. -/
def portions (name unopened : String) (pick : String → String) (titled : Bool) (start : Start) (operands : List String) : Ran :=
  let names := if operands.isEmpty then ["-"] else operands
  let step := fun ((first, ran) : Bool × Ran) (file : String) =>
    let title := if titled then
        (if first then "" else "\n") ++ "==> " ++ (if file = "-" then "standard input" else file) ++ " <==\n"
      else ""
    match start.content file with
    | .ok text => (false, ran.wrote (title ++ pick text))
    | .error .isDirectory =>
      let shown := quotedName (if file = "-" then "standard input" else file)
      (false, (ran.wrote title).complained (name ++ ": error reading " ++ shown ++ ": " ++ Failure.isDirectory.words ++ "\n") 1)
    | .error .notOpen =>
      (false, (ran.wrote title).complained (name ++ ": " ++ unopened ++ " 'standard input': " ++ Failure.notOpen.words ++ "\n") 1)
    | .error e => (first, ran.complained (name ++ ": cannot open " ++ quotedName file ++ " for reading: " ++ e.words ++ "\n") 1)
  let ran := (names.foldl step (true, { start.ended 0 with rest := if names.contains "-" then "" else start.input })).2
  (if start.missesInput operands then ran.complained (name ++ ": -: " ++ Failure.notOpen.words ++ "\n") 1 else ran).buffered

/-- The largest count. -/
def countLimit : Nat := 18446744073709551615

/-- The portion that a count asks for: `sign` stands in front of a count of what is left out. A count that makes no sense
is refused. -/
def Portion.ofCount (sign ending : Char) (byLines : Bool) (text : String) : Except String Portion :=
  let inverse := text.toList.head? = some sign
  let body := String.ofList (if ['-', '+'].contains (text.toList.headD ' ') then text.toList.drop 1 else text.toList)
  let shown := if text.toList.head? = some '-' then body else text
  let wrong := "invalid number of " ++ (if byLines then "lines" else "bytes") ++ ": " ++ quotedWord shown
  match countOf? body with
  | some count =>
    if countLimit < count then .error (wrong ++ ": Value too large for defined data type\n") else .ok ⟨byLines, count, inverse, ending⟩
  | none => .error (wrong ++ "\n")

/-- The portion that options ask for. Each count has to make sense, and the last one counts. -/
def Portion.ofOptions (sign : Char) (short : Option (Bool × String)) (o : Options) : Except String Portion := do
  let ending := if o.has 'z' then '\x00' else '\n'
  let (byLines, text) := short.getD (true, "10")
  let first ← Portion.ofCount sign ending byLines text
  let all ← (o.given.filter fun (c, _) => c = 'n' || c = 'c').mapM fun (c, text) => Portion.ofCount sign ending (c == 'n') text
  return all.getLast?.getD first

/-- The names of files are shown above their parts. -/
def areTitled (o : Options) : Bool :=
  match (o.given.filter fun (c, _) => c = 'q' || c = 'v').getLast? with
  | some (c, _) => c = 'v'
  | none => 1 < o.operands.length

/-- The options in front of a mistake. -/
def optionsBefore (known : Options.Known) (arguments : List String) : Options :=
  ((List.range arguments.length).reverse.findSome? fun count => (Options.read known [] [] (arguments.take count)).toOption).getD ⟨[], []⟩

/-- Reads the options of a program that shows a part of each content, and runs it. The first mistake is told; a digit that is
no count has a complaint of its own. -/
def withPortion (name : String) (sign : Char) (short : Option (Bool × String)) (arguments : List String) (digits : String → Start → Ran)
    (run : Portion → Options → Program) : Program := fun start =>
  match Options.read portionOptions [] [] arguments with
  | .error e =>
    match Portion.ofOptions sign short (optionsBefore portionOptions arguments) with
    | .error e => start.complained (name ++ ": " ++ e) 1
    | .ok _ =>
      let digit := e.toList.filter Char.isDigit
      if e.startsWith "invalid option -- '" && !digit.isEmpty then digits (String.ofList digit) start else start.misused name e 1
  | .ok o => match Portion.ofOptions sign short o with
    | .error e => start.complained (name ++ ": " ++ e) 1
    | .ok p => run p o start

/-- Writes the first lines or bytes of files. -/
def head : Program := fun start =>
  let (short, arguments) := match start.arguments with
    | [] => (none, [])
    | word :: rest => match bareCount? word with
      | some ('-', digits, letters) =>
        let units := letters.filter fun c => ['b', 'k', 'm'].contains c
        let count := digits ++ String.ofList (units.map fun c => if c = 'm' then 'M' else c)
        let others := (letters.filter fun c => ['q', 'v'].contains c).map fun c => String.ofList ['-', c]
        (some (!(letters.contains 'c' || !units.isEmpty), count), others ++ rest)
      | _ => (none, start.arguments)
  withPortion "head" '-' short arguments
    (fun digit start => start.misused "head" ("invalid trailing option -- " ++ digit) 1)
    (fun p o start =>
      let start := if p.byLines then start else { start with endless := p.count }
      let ran := portions "head" (if p.inverse then "cannot fstat" else "error reading") p.first (areTitled o) start o.operands
      if start.isFile && o.operands.isEmpty then
        { ran with rest := String.ofList (start.input.toList.drop (p.first start.input).length) }
      else ran)
    start

/-- Writes the last lines or bytes of files. -/
def tail : Program := fun start =>
  let alone := match start.arguments with
    | [_] => true
    | [_, file] => file.toList.head? ≠ some '-' || file = "-"
    | _ => false
  let (short, arguments) := match start.arguments with
    | word :: rest => match bareCount? word with
      | some (sign, digits, letters) =>
        if alone then (some (!letters.contains 'c', (if sign = '+' then "+" else "") ++ digits), rest) else (none, start.arguments)
      | none => (none, start.arguments)
    | [] => (none, [])
  withPortion "tail" '+' short arguments
    (fun digit start => start.complained ("tail: option used in invalid context -- " ++ digit ++ "\n") 1)
    (fun p o start => if p.count = 0 && !p.inverse then start.ended 0 else portions "tail" "cannot fstat" p.last (areTitled o) start o.operands)
    start

/-- Writes the lines of files backwards. -/
def tac : Program := withOptions "tac" { letters := [], valued := [], names := [], leading := false } 1 (hintFor "tac") fun o start =>
  (start.eachContent o.operands
    (fun name e => if name = "-" then "tac: 'standard input': read error: " ++ (if e = .isDirectory then "Invalid argument" else e.words) ++ "\n"
      else if e = .isDirectory then "tac: " ++ plainName name ++ ": read error: Invalid argument\n"
      else "tac: failed to open " ++ quotedName name ++ " for reading: " ++ e.words ++ "\n") ()
    fun _ _ text => ((), String.join (linesOfOctets text).reverse)).2

/-- The lines, words, characters and bytes of a content. -/
def countsOf (text : String) : Nat × Nat × Nat :=
  let isSpace := fun (c : Char) => c = ' ' || ('\t' ≤ c && c ≤ '\r')
  let (lines, words, _) := text.toList.foldl
    (fun ((lines, words, inside) : Nat × Nat × Bool) c =>
      (if c = '\n' then lines + 1 else lines, if !isSpace c && !inside then words + 1 else words, !isSpace c)) (0, 0, false)
  (lines, words, text.length)

/-- Counts lines, words and bytes. -/
def wc : Program :=
  withOptions "wc"
    { letters := ['l', 'w', 'c', 'm'], valued := []
      names := [("lines", 'l'), ("words", 'w'), ("bytes", 'c'), ("chars", 'm')], leading := false } 1 (hintFor "wc") fun o start =>
    let all := o.given.isEmpty
    let wanted := [all || o.has 'l', all || o.has 'w', o.has 'm', all || o.has 'c']
    let names := o.operands
    let complaint := fun (name : String) (e : Failure) =>
      if name = "" then "wc: invalid zero-length file name\n"
      else if name = "-" then "wc: 'standard input': " ++ e.words ++ "\n" else plainComplaint "wc" name e
    let size := (start.contents names complaint).foldl
      (fun n (_, content) => n + (content.toOption.map String.length).getD 0) 0
    let isUnmeasured := fun (name : String) => name ≠ "" && name ≠ "-" &&
      ((deviceContent? 0 "" (start.path name)).isSome || start.disk.tree.isDirectory (start.path name))
    let width := if names.length ≤ 1 && (wanted.filter id).length = 1 then 1
      else if names.isEmpty && start.trouble = some .notOpen then 1
      else if (names.isEmpty || names.contains "-") && !start.isFile || names.any isUnmeasured then 7
      else size.repr.length
    let line := fun (counts : Nat × Nat × Nat) (name : String) =>
      let numbers := ([counts.1, counts.2.1, counts.2.2, counts.2.2].zip wanted).filterMap fun (n, asked) =>
        if asked then some (column width n) else none
      " ".intercalate (numbers ++ if name = "" then [] else [name]) ++ "\n"
    let first : Ran := { start.ended 0 with rest := if names.isEmpty || names.contains "-" then "" else start.input }
    let (total, ran) := ((if names.isEmpty then ["-"] else names).map fun name => (name, start.content name)).foldl
      (fun (((lines, words, bytes), ran) : (Nat × Nat × Nat) × Ran) (name, content) =>
        let shown := if names.isEmpty then "" else name
        match content with
        | .ok text =>
          let counts := countsOf text
          ((lines + counts.1, words + counts.2.1, bytes + counts.2.2), ran.wrote (line counts shown))
        | .error e =>
          let told := ran.complained (complaint name e) 1
          ((lines, words, bytes), if e = .isDirectory || e = .notOpen then told.wrote (line (0, 0, 0) shown) else told))
      ((0, 0, 0), first)
    let ran := if 1 < names.length then ran.wrote (line total "total") else ran
    if start.missesInput names then ran.complained "wc: -: Bad file descriptor\n" 1 else ran

/-- Writes its input, and files with it. -/
def tee : Program :=
  withOptions "tee" { letters := ['a', 'i'], valued := [], names := [("append", 'a')], leading := false } 1 (hintFor "tee")
    fun o start =>
      let bytes := Text.bytesOfOctets start.input
      o.operands.foldl
        (fun (ran : Ran) name =>
          match if o.has 'a' then ran.disk.append (start.path name) bytes else ran.disk.write (start.path name) bytes with
          | (.ok (), disk) => { ran with disk }
          | (.error e, disk) => { ran.complained (plainComplaint "tee" name e) 1 with disk })
        { start.wrote start.input with rest := "" }

/-!
## Programs that change lines of their input
-/

/-- The part of a line from a field on, as `sort` takes it. -/
def fromField (separator : Option Char) (field : Nat) (line : List Char) : List Char :=
  let next := fun (text : List Char) => match separator with
    | some c => (text.dropWhile (· ≠ c)).drop 1
    | none => (text.dropWhile fun d => d = ' ' || d = '\t').dropWhile fun d => d ≠ ' ' && d ≠ '\t'
  (List.range (field - 1)).foldl (fun text _ => next text) line

/-- The number that a line begins with. -/
def leadingNumber (line : List Char) : Rat :=
  let body := line.dropWhile fun c => c = ' ' || c = '\t'
  let (negative, digits) := match body with
    | '-' :: rest => (true, rest)
    | rest => (false, rest)
  let before := digits.takeWhile Char.isDigit
  let after := match digits.drop before.length with
    | '.' :: rest => rest.takeWhile Char.isDigit
    | _ => []
  let n : Nat := (before ++ after).foldl (fun n c => n * 10 + (digit? c).getD 0) 0
  let q : Rat := (n : Rat) / ((Nat.pow 10 after.length : Nat) : Rat)
  if negative then -q else q

/-- Writes the lines of its files in order. -/
def sort : Program :=
  withOptions "sort"
    { letters := ['r', 'n', 'u', 'f', 'b', 's', 'g', 'V', 'c', 'd'], valued := ['k', 't', 'o']
      names := [("reverse", 'r'), ("numeric-sort", 'n'), ("unique", 'u'), ("ignore-case", 'f'), ("key", 'k'),
        ("field-separator", 't'), ("output", 'o')]
      leading := false } 2 (hintFor "sort") fun o start =>
    let contents := start.contents o.operands fun name e =>
      (if e = .notOpen then "sort: stat failed: " else if e = .isDirectory then "sort: read failed: " else "sort: cannot read: ") ++
        plainName name ++ ": " ++ e.words ++ "\n"
    match contents.find? fun (_, content) => content.toOption.isNone with
    | some (_, .error message) => start.complained message 2
    | _ =>
      let lines := contents.flatMap fun (_, content) => (linesOfOctets (content.toOption.getD "")).map bare
      let separator := (o.last? 't').bind fun word => word.toList.head?
      let keyText := (o.last? 'k').getD ""
      let numeric := o.has 'n' || keyText.toList.contains 'n'
      let reversed := o.has 'r' || keyText.toList.contains 'r'
      let field := (keyText.toList.takeWhile Char.isDigit).foldl (fun n c => n * 10 + (digit? c).getD 0) 0
      let last := match keyText.toList.dropWhile (· ≠ ',') with
        | ',' :: rest => (rest.takeWhile Char.isDigit).foldl (fun n c => n * 10 + (digit? c).getD 0) 0
        | _ => 0
      let key := fun (line : List Char) =>
        let part := fromField separator field line
        if last = 0 then part else part.take (part.length - (fromField separator (last + 1) line).length)
      let folded := fun (line : List Char) => if o.has 'f' then line.map Char.toUpper else line
      let order := fun (a b : List Char) =>
        if numeric then
          let x := leadingNumber (key a)
          let y := leadingNumber (key b)
          if x < y then Ordering.lt else if y < x then .gt else .eq
        else compareOfLessAndEq (folded (key a)) (folded (key b))
      let turned := fun (ord : Ordering) => if reversed then ord.swap else ord
      let final := fun (a b : List Char) => match turned (order a b) with
        | .eq => if o.has 's' || o.has 'u' then Ordering.eq else turned (compareOfLessAndEq a b)
        | ord => ord
      let sorted := lines.mergeSort fun a b => final a b ≠ .gt
      let kept := if o.has 'u' then
          (sorted.foldl (fun (back : List (List Char)) line =>
            if back.head?.any fun other => order other line == Ordering.eq then back else line :: back) []).reverse
        else sorted
      { start.wrote (String.join (kept.map fun line => String.ofList (line ++ ['\n']))) with
        rest := if o.operands.isEmpty then "" else start.input }

/-- Writes each of several equal neighbouring lines once. -/
def uniq : Program :=
  withOptions "uniq" { letters := ['c', 'd', 'u', 'i'], valued := [], names := [("count", 'c')], leading := false } 1 (hintFor "uniq")
    fun o start =>
    match o.operands with
    | _ :: _ :: extra :: _ => start.misused "uniq" ("extra operand " ++ quotedWord extra) 1
    | operands =>
    let ran := (start.eachContent (operands.take 1)
      (fun name e => if e = .isDirectory || e = .notOpen then "uniq: error reading " ++ quotedName name ++ ": " ++ e.words ++ "\n" else plainComplaint "uniq" name e)
      () fun _ _ text =>
      let lines := (linesOfOctets text).map bare
      let same := fun (a b : List Char) => if o.has 'i' then a.map Char.toLower = b.map Char.toLower else a = b
      let runs := (lines.foldl (fun (back : List (List Char × Nat)) line => match back with
        | (other, n) :: more => if same other line then (other, n + 1) :: more else (line, 1) :: back
        | [] => [(line, 1)]) []).reverse
      let runs := runs.filter fun (_, n) => !(o.has 'd' && n < 2) && !(o.has 'u' && 1 < n)
      ((), String.join (runs.map fun (line, n) =>
        (if o.has 'c' then column 7 n ++ " " else "") ++ String.ofList line ++ "\n"))).2
    match operands with
    | [_, target] =>
      let out := String.join ((ran.written.filter (·.1 = .out)).map (·.2))
      match ran.status, ran.disk.write (start.path target) (Text.bytesOfOctets out) with
      | 0, (.ok (), disk) => { ran with written := [], disk }
      | 0, (.error e, disk) => { ran.complained (plainComplaint "uniq" target e) 1 with disk }
      | _, _ => ran
    | _ => ran

/-- The positions that a list of ranges names. -/
def inRanges (text : String) (n : Nat) : Bool :=
  let number := fun (digits : List Char) => digits.foldl (fun n c => n * 10 + (digit? c).getD 0) 0
  (Text.split ',' text.toList).any fun part =>
    match Text.splitFirst? '-' part with
    | none => number part = n
    | some (low, high) => (low.isEmpty || number low ≤ n) && (high.isEmpty || n ≤ number high)

/-- Writes parts of lines. -/
def cut : Program :=
  withOptions "cut"
    { letters := ['s', 'n'], valued := ['d', 'f', 'c', 'b']
      names := [("delimiter", 'd'), ("fields", 'f'), ("characters", 'c'), ("bytes", 'b'), ("only-delimited", 's')]
      leading := false } 1 (hintFor "cut") fun o start =>
    let delimiter := ((o.last? 'd').bind fun word => word.toList.head?).getD '\t'
    match o.last? 'f', (o.last? 'c').or (o.last? 'b') with
    | none, none => start.misused "cut" "you must specify a list of bytes, characters, or fields" 1
    | fields, chars =>
      (start.eachContent o.operands (plainComplaint "cut") () fun _ _ text =>
        ((), String.join ((linesOfOctets text).map bare |>.filterMap fun line =>
          match fields, chars with
          | some fields, _ =>
            if line.contains delimiter then
              let parts := ((Text.split delimiter line).zipIdx 1).filter fun (_, i) => inRanges fields i
              some (String.ofList ([delimiter].intercalate (parts.map (·.1))) ++ "\n")
            else if o.has 's' then none else some (String.ofList line ++ "\n")
          | none, some chars => some (String.ofList (((line.zipIdx 1).filter fun (_, i) => inRanges chars i).map (·.1)) ++ "\n")
          | none, none => none))).2

/-- Writes the lines with their characters backwards. -/
def rev : Program := withOptions "rev" { letters := [], valued := [], names := [], leading := false } 1 (hintFor "rev") fun o start =>
  (start.eachContent o.operands (fun name e => "rev: cannot open " ++ name ++ ": " ++ e.words ++ "\n") () fun _ _ text =>
    ((), String.join ((linesOfOctets text).map fun line =>
      String.ofList (bare line).reverse ++ if (bare line).length < line.length then "\n" else ""))).2

/-- Writes a line again and again. -/
def yes : Program := fun start =>
  let line := (if start.arguments.isEmpty then "y" else " ".intercalate start.arguments) ++ "\n"
  { start.wrote (String.join (List.replicate (endlessSize / line.length + 1) line)) with wait := endlessTime }

/-- The last part of a path, without an ending that is given. -/
def lastPart (ending name : String) : String :=
  let trimmed := name.toList.reverse.dropWhile (· == '/')
  let last := (trimmed.takeWhile (· ≠ '/')).reverse
  let last := if last.isEmpty && !name.isEmpty then ['/'] else last
  let ending := ending.toList
  String.ofList (if !ending.isEmpty && ending.isSuffixOf last && ending.length < last.length then
    last.take (last.length - ending.length) else last)

/-- Writes the last parts of paths. -/
def basename : Program :=
  withOptions "basename"
    { letters := ['a', 'z'], valued := ['s'], names := [("multiple", 'a'), ("suffix", 's'), ("zero", 'z')], leading := true }
    1 (hintFor "basename") fun o start =>
    let shown := fun (ending name : String) => lastPart ending name ++ if o.has 'z' then "\x00" else "\n"
    if o.has 'a' || o.has 's' then
      if o.operands.isEmpty then start.misused "basename" "missing operand" 1
      else start.wrote (String.join (o.operands.map (shown ((o.last? 's').getD ""))))
    else match o.operands with
      | [] => start.misused "basename" "missing operand" 1
      | [name] => start.wrote (shown "" name)
      | [name, ending] => start.wrote (shown ending name)
      | _ :: _ :: extra :: _ => start.misused "basename" ("extra operand " ++ quotedWord extra) 1

/-- The path without its last part. -/
def dirname : Program := fun start =>
  if start.arguments.isEmpty then start.misused "dirname" "missing operand" 1
  else start.wrote (String.join (start.arguments.map fun name =>
    let front := ((name.toList.reverse.dropWhile (· == '/')).dropWhile (· ≠ '/')).dropWhile (· == '/')
    let front := front.reverse
    (if front.isEmpty then (if name.toList.head? = some '/' then "/" else ".") else String.ofList front) ++ "\n"))

end GatedRepair.Program
