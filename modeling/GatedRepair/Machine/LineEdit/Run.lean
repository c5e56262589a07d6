import GatedRepair.Machine.LineEdit.Reader
import GatedRepair.Text.Lines

/-!
# Editing lines

Each line of the input is taken into a space of its own, the script is run, and what is in the space then is written. A
second space holds what the script puts aside.
-/

namespace GatedRepair.LineEdit

/-- Where something is written: to the output, or to a file that the script names. -/
inductive Target where
  | output
  | file (name : String)
  deriving DecidableEq

/-- How a file is edited: with a script, each file on its own or all as one, with a character at the end of lines. -/
structure Manner where
  script : Script
  separate : Bool
  ending : Char

/-- What is not yet read of a file: its name and its lines with their ends. -/
abbrev Unread := String × List String

structure State where
  space : List Char
  /-- The line had an end. -/
  ended : Bool
  held : List Char
  number : Nat
  file : String
  lines : List String
  files : List Unread
  replaced : Bool
  /-- What is written after the line. -/
  queue : List String
  /-- The ranges that were begun, by command, each with the number of its last line if it is known. -/
  ranges : List (Nat × Option Nat)
  wanted : Option Needle
  /-- What was written, with the file that was read, the last first, and the targets whose last line has no end yet. -/
  written : List (Target × String × String)
  unended : List Target
  /-- The lines of files that are read one by one. -/
  readers : List (String × List String)

abbrev Editing := StateM State

/-- What comes after a command. -/
inductive Flow where
  | on
  | to (command : Nat)
  /-- The end of the script; the line may have to be written. -/
  | finished (shows : Bool)
  /-- The script is begun again with what is left in the space. -/
  | again
  | quit (status : Nat) (shows : Bool)
  | failed (message : String)

/-- No line follows. -/
def isLast (m : Manner) (s : State) : Bool := s.lines.isEmpty && (m.separate || s.files.all (·.2.isEmpty))

/-- Writes a text. A line before it gets its end first. -/
def emit (m : Manner) (target : Target) (text : String) (isWhole : Bool) : Editing Unit :=
  modify fun s =>
    let text := (if s.unended.contains target then String.singleton m.ending else "") ++ text
    let unended := s.unended.filter (· ≠ target)
    { s with written := (target, s.file, text) :: s.written, unended := if isWhole then unended else target :: unended }

/-- Writes a line, which has an end if the line that was read had one. -/
def emitLine (m : Manner) (target : Target) (line : List Char) : Editing Unit := do
  let ended := (← get).ended
  emit m target (String.ofList line ++ if ended then String.singleton m.ending else "") ended

/-- Writes what was put off until after the line. -/
def flush (m : Manner) : Editing Unit := do
  let queue := (← get).queue
  modify fun s => { s with queue := [] }
  for text in queue.reverse do
    emit m .output text true

/-- The next line and the files after it. -/
def nextLine (ending : Char) (separate : Bool) (number : Nat) (file : String) :
    List String → List Unread → Option (String × Nat × String × List String × List Unread)
  | line :: lines, files => some (line, number + 1, file, lines, files)
  | [], (name, lines) :: files => nextLine ending separate (if separate then 0 else number) name lines files
  | [], [] => none
termination_by lines files => (files.length, lines.length)

/-- Reads the next line, if there is one. -/
def readLine (m : Manner) : Editing (Option (List Char)) := do
  flush m
  let s ← get
  match nextLine m.ending m.separate s.number s.file s.lines s.files with
  | none => return none
  | some (line, number, file, lines, files) =>
    let chars := line.toList
    let ended := chars.getLast? = some m.ending
    set { s with number, file, lines, files, ended, replaced := false }
    return some (if ended then chars.dropLast else chars)

/-- The needle that is meant, which is then the last one. -/
def meant (n : Option Needle) : Editing (Option Needle) := do
  match n with
  | some n =>
    modify fun s => { s with wanted := some n }
    return some n
  | none => return (← get).wanted

def noNeedle : String := "-e expression #1, char 0: no previous regular expression"

/-- The line is at a place. -/
def isAt (m : Manner) (a : Address) : Editing (Except String Bool) := do
  let s ← get
  match a with
  | .line n => return .ok (s.number = n)
  | .last => return .ok (isLast m s)
  | .every first step => return .ok (first ≤ s.number && (s.number - first) % step = 0)
  | .needle n =>
    match ← meant n with
    | none => return .error noNeedle
    | some n => return .ok (n.pattern.search? n.anyCase s.space.toArray 0).isSome

/-- The line begins a range. Gives whether it is also its last line. -/
def begins (index number : Nat) (stop : RangeEnd) : Editing Unit := do
  let upTo := fun (last : Nat) =>
    modify fun s => if number < last then { s with ranges := (index, some last) :: s.ranges } else s
  match stop with
  | .address (.line n) => upTo n
  | .further count => upTo (number + count)
  | .multiple n => upTo (if n = 0 then number else (number + n - 1) / n * n)
  | _ => modify fun s => { s with ranges := (index, none) :: s.ranges }

/-- The line is one of those in a scope. -/
def isWithin (m : Manner) (index : Nat) (scope : Scope) : Editing (Except String Bool) := do
  let s ← get
  let close : Editing Unit := modify fun s => { s with ranges := s.ranges.filter (·.1 ≠ index) }
  match s.ranges.lookup index with
  | some (some last) =>
    if last ≤ s.number then close
    return .ok (s.number ≤ last)
  | some none =>
    match scope.stop with
    | some (.address stop) => match ← isAt m stop with
      | .error e => return .error e
      | .ok found =>
        if found then close
        return .ok true
    | _ => return .ok true
  | none =>
    match ← isAt m scope.first with
    | .ok true =>
      if let some stop := scope.stop then begins index s.number stop
      return .ok true
    | found => return found

/-- Letters as a replacement asks for them. -/
def Lettering.write (whole : Lettering) (first : Option Lettering) (text : List Char) : List Char :=
  let change := fun (l : Lettering) (c : Char) => match l with
    | .upper => c.toUpper
    | .nextUpper => c.toUpper
    | .lower => c.toLower
    | .nextLower => c.toLower
    | .asIs => c
  match first, text with
  | some l, c :: rest => change l c :: rest.map (change whole)
  | _, text => text.map (change whole)

/-- What stands for a match. -/
def replaced (line : Array Char) (start : Nat) (place : LinePattern.Place) (parts : List Part) : List Char :=
  let (back, _, _) := parts.foldl
    (fun ((back, whole, first) : List (List Char) × Lettering × Option Lettering) part =>
      let add := fun (text : List Char) =>
        (Lettering.write whole first text :: back, whole, if text.isEmpty then first else none)
      match part with
      | .text chars => add chars
      | .group 0 => add (line.extract start place.stop).toList
      | .group n => add (((place.group? n).map fun (start, stop) => (line.extract start stop).toList).getD [])
      | .lettering .nextUpper => (back, whole, some .nextUpper)
      | .lettering .nextLower => (back, whole, some .nextLower)
      | .lettering l => (back, l, none)) ([], .asIs, none)
  back.reverse.flatten

/-- A line with matches replaced, from a place on, and whether there was one. `left` tells how many matches are passed over
yet, and `after` is where the last match ended. -/
def substituted (n : Needle) (s : Substitution) (row : Array Char) :
    Nat → Nat → Nat → Option Nat → List (List Char) → Bool → List Char × Bool
  | 0, _, _, _, back, done => (back.reverse.flatten, done)
  | fuel + 1, start, left, after, back, done =>
    let rest := fun (back : List (List Char)) (i : Nat) => ((row.extract i row.size).toList :: back).reverse.flatten
    match n.pattern.search? n.anyCase row start with
    | none => (rest back start, done)
    | some (first, place) =>
      let before := (row.extract start first).toList
      let isEmpty := place.stop = first
      let goOn := fun (back : List (List Char)) (left : Nat) (done : Bool) =>
        if isEmpty then
          match row[first]? with
          | some c => substituted n s row fuel (first + 1) left (some place.stop) ([c] :: back) done
          | none => (back.reverse.flatten, done)
        else substituted n s row fuel place.stop left (some place.stop) back done
      if isEmpty && after = some first then goOn (before :: back) left done
      else if 0 < left then goOn ((row.extract first place.stop).toList :: before :: back) (left - 1) done
      else
        let back := replaced row first place s.replacement :: before :: back
        if s.all then goOn back 0 true else (rest back place.stop, true)

/-- A line in which all that cannot be seen is spelt out, cut into pieces that fit a width. -/
def spelt (width : Nat) (line : List Char) : List Char :=
  let sign := fun (c : Char) => match c with
    | '\\' => ['\\', '\\']
    | '\x07' => ['\\', 'a']
    | '\x08' => ['\\', 'b']
    | '\x0c' => ['\\', 'f']
    | '\n' => ['\\', 'n']
    | '\r' => ['\\', 'r']
    | '\t' => ['\\', 't']
    | '\x0b' => ['\\', 'v']
    | c => if ' ' ≤ c && c ≤ '~' then [c]
      else '\\' :: [c.toNat / 64, c.toNat / 8 % 8, c.toNat % 8].map fun n => Char.ofNat (48 + n)
  let (back, _) := line.foldl
    (fun ((back, used) : List (List Char) × Nat) c =>
      let text := sign c
      if 1 < width && width - 1 < used + text.length then (text :: ['\\', '\n'] :: back, text.length)
      else (text :: back, used + text.length)) ([], 0)
  back.reverse.flatten ++ ['$']

/-- The space up to its first line end, and what follows that, if there is one. -/
def firstLine (space : List Char) : List Char × Option (List Char) :=
  let front := space.takeWhile (· ≠ '\n')
  (front, if front.length < space.length then some (space.drop (front.length + 1)) else none)

/-- Does what an action says. `read` gives the lines of a file, if it is there. -/
def act (m : Manner) (content : String → Option String) (c : Command) (index : Nat) : Editing Flow := do
  let s ← get
  let setSpace := fun (space : List Char) => modify fun s => { s with space }
  let named := fun (name : String) => Target.file name
  match c.action with
  | .skip stop => return .to stop
  | .label => return .on
  | .jump when name =>
    let goes := match when with
      | .always => true
      | .ifReplaced => s.replaced
      | .unlessReplaced => !s.replaced
    match when with
    | .always => pure ()
    | _ => set { s with replaced := false }
    if goes then return .to ((name.bind fun name => m.script.labels.lookup name).getD m.script.commands.size) else return .on
  | .substitute sub =>
    match ← meant sub.needle with
    | none => return .failed noNeedle
    | some n =>
      let line := s.space.toArray
      let (text, done) := substituted n sub line (line.size + 2) 0 (sub.first - 1) none [] false
      if done then
        modify fun s => { s with space := text, replaced := true }
        if sub.shown then emitLine m .output text
        if let some file := sub.file then emitLine m (named file) text
      return .on
  | .translate pairs =>
    setSpace (s.space.map fun c => (pairs.lookup c).getD c)
    return .on
  | .delete => return .finished false
  | .deleteFirst =>
    match firstLine s.space with
    | (_, none) => return .finished false
    | (_, some rest) =>
      setSpace rest
      return .again
  | .print =>
    emitLine m .output s.space
    return .on
  | .printFirst =>
    emit m .output (String.ofList (firstLine s.space).1 ++ String.singleton m.ending) true
    return .on
  | .next =>
    if isLast m s then return .quit 0 true
    else
      if !m.script.quiet then emitLine m .output s.space
      setSpace ((← readLine m).getD [])
      return .on
  | .appendNext =>
    if isLast m s then return .quit 0 true
    else
      let line ← readLine m
      setSpace (s.space ++ m.ending :: line.getD [])
      return .on
  | .hold =>
    set { s with held := s.space }
    return .on
  | .appendHold =>
    set { s with held := s.held ++ m.ending :: s.space }
    return .on
  | .fetch =>
    setSpace s.held
    return .on
  | .appendFetch =>
    setSpace (s.space ++ m.ending :: s.held)
    return .on
  | .exchange =>
    set { s with space := s.held, held := s.space }
    return .on
  | .clear =>
    setSpace []
    return .on
  | .number =>
    emit m .output (s.number.repr ++ "\n") true
    return .on
  | .spell width =>
    emit m .output (String.ofList (spelt (width.getD 70) s.space) ++ "\n") true
    return .on
  | .fileName =>
    emit m .output (s.file ++ "\n") true
    return .on
  | .append text =>
    set { s with queue := text :: s.queue }
    return .on
  | .insert text =>
    emit m .output text true
    return .on
  | .change text =>
    let isOpen := !c.negated && (s.ranges.lookup index).isSome
    if !isOpen then emit m .output text true
    return .finished false
  | .read file =>
    set { s with queue := (content file).getD "" :: s.queue }
    return .on
  | .readLine file =>
    let lines := (s.readers.lookup file).getD (linesOf ((content file).getD ""))
    match lines with
    | [] => return .on
    | line :: rest =>
      let line := if line.toList.getLast? = some '\n' then line else line ++ "\n"
      set { s with queue := line :: s.queue, readers := (file, rest) :: s.readers.filter (·.1 ≠ file) }
      return .on
  | .write file =>
    emitLine m (named file) s.space
    return .on
  | .writeFirst file =>
    emit m (named file) (String.ofList (firstLine s.space).1 ++ "\n") true
    return .on
  | .quit status shows => return .quit status shows
where
  /-- The lines of a text with their ends. -/
  linesOf (text : String) : List String :=
    let parts := Text.split '\n' text.toList
    (parts.dropLast.map fun line => String.ofList (line ++ ['\n'])) ++
      (match parts.getLast? with
        | some (c :: rest) => [String.ofList (c :: rest)]
        | _ => [])

/-- What came of a run: its status, what is wrong with the script if anything is, or nothing if it has no end. -/
inductive Ending where
  | ended (status : Nat)
  | failed (message : String)
  | endless

/-- Runs the script from a command on, or for the next line. -/
def runFrom (m : Manner) (content : String → Option String) : Nat → Option Nat → Editing Ending
  | 0, _ => return .endless
  | fuel + 1, none => do
    match ← readLine m with
    | none => return .ended 0
    | some line =>
      modify fun s => { s with space := line }
      runFrom m content fuel (some 0)
  | fuel + 1, some i => do
    let finish := fun (shows : Bool) => do
      if shows && !m.script.quiet then emitLine m .output (← get).space
      flush m
    match m.script.commands[i]? with
    | none =>
      finish true
      runFrom m content fuel none
    | some c =>
      let applies ← match c.scope with
        | none => pure (Except.ok true)
        | some scope => isWithin m i scope
      match applies with
      | .error e => return .failed e
      | .ok applies =>
        if applies == c.negated then runFrom m content fuel (some (i + 1))
        else match ← act m content c i with
          | .on => runFrom m content fuel (some (i + 1))
          | .to j => runFrom m content fuel (some j)
          | .finished shows =>
            finish shows
            runFrom m content fuel none
          | .again =>
            flush m
            runFrom m content fuel (some 0)
          | .quit status shows =>
            finish shows
            return .ended status
          | .failed message => return .failed message

/-- How many commands are run before a script is taken to have no end. -/
def stepLimit : Nat := 2000000

/-- The state before the first line. Ranges that end at a pattern and begin at line 0 are begun already. -/
def State.start (script : Script) (files : List Unread) : State :=
  let begun := (List.range script.commands.size).filterMap fun i => match script.commands[i]? with
    | some ⟨some ⟨.line 0, some _⟩, _, _⟩ => some (i, none)
    | _ => none
  { space := [], ended := true, held := [], number := 0, file := "-", lines := [], files, replaced := false, queue := []
    ranges := begun, wanted := none, written := [], unended := [], readers := [] }

/-- Edits files. Gives how the run ended, and the last state. -/
def edit (m : Manner) (content : String → Option String) (files : List Unread) : Ending × State :=
  (runFrom m content stepLimit none).run (State.start m.script files)

end GatedRepair.LineEdit
