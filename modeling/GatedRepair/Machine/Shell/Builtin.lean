import GatedRepair.Machine.Program.Machine
import GatedRepair.Machine.Shell.Condition
import GatedRepair.Machine.Shell.Expansion
import GatedRepair.Machine.Shell.Reader
import GatedRepair.Machine.Shell.Session

/-!
# Commands of the shell itself

The commands that the shell carries out without starting a program, as far as they run no scripts.
-/

namespace GatedRepair.Shell

open Files Text Running

/-- Writes to the output. A command whose output cannot be written fails, whatever its status is otherwise. -/
def wroteWith (status : Nat) (text : String) : Running Unit := do
  if (← write 1 text).isNone then setStatus status
  else
    let s ← shell
    complain (s.command.getD "" ++ ": I/O error")
    setStatus (status ||| 1)

def wrote (text : String) : Running Unit := wroteWith 0 text

/-- Does what can go wrong. A mistake is told and does not end the shell. -/
def forgiving (body : Running Unit) : Running Unit :=
  tryCatch body fun
    | .exited => return ()
    | stop => throw stop

/-- A number that is not negative. -/
def natural (word : String) : Running Nat := do
  match word.toList.all Char.isDigit && word ≠ "", word.toNat? with
  | true, some n => return n
  | _, _ => refuse ("Illegal number: " ++ word)

/-- A text within single quotes. -/
def inQuotes (text : String) : String := "'" ++ text.replace "'" "'\"'\"'" ++ "'"

/-- The name and the value in a word that may give a variable its value. -/
def named (word : String) : String × Option String :=
  let name := word.toList.takeWhile (· ≠ '=')
  (String.ofList name, if name.length < word.length then some (String.ofList (word.toList.drop (name.length + 1))) else none)

def echo (words : List String) : Running Unit := wrote (shellEcho words)

def printf (words : List String) : Running Unit := do
  match (match words with
    | "--" :: rest => rest
    | rest => rest) with
  | [] => refuse "usage: printf format [arg ...]"
  | text :: values =>
    if text.toList.head? = some '-' && text ≠ "-" && words.head? ≠ some "--" then
      refuse ("Illegal option -" ++ String.ofList ((text.toList.drop 1).take 1))
    else
      let (out, complaints, status) := Formatting.all .shell text values
      let s ← shell
      for complaint in complaints do
        complainPlainly (s.name ++ ": " ++ s.line.repr ++ ": " ++ complaint)
      wroteWith status out

/-- A path without single dots, and without doubled dots and the names that they take back. -/
def tidied (path : List Char) : String :=
  let parts := (Path.components path).foldl
    (fun (back : List (List Char)) part => match part with
      | .name text => text :: back
      | .parent => back.drop 1
      | _ => back) []
  "/" ++ "/".intercalate (parts.reverse.map String.ofList)

def cd (words : List String) : Running Unit := do
  let s ← shell
  let words := words.filter fun word => !(["-L", "-P", "--"].contains word)
  let target := match words with
    | [] => s.text "HOME"
    | "-" :: _ => s.text "OLDPWD"
    | word :: _ => word
  let path := if target = "" then s.directory else tidied (Path.joined s.directory.toList (ofOctets target).toList)
  let tree := (← world).disk.tree
  let reached := target = "" || tree.isDirectory (Path.within s.directory (ofOctets target))
  if reached && tree.isDirectory path then
    let old := toOctets s.directory
    changeShell fun s => { s with directory := path }
    assign "OLDPWD" old
    assign "PWD" (toOctets path)
    setStatus 0
    if words.head? = some "-" then wrote (toOctets path ++ "\n")
  else refuse ("can't cd to " ++ target)

def pwd (_ : List String) : Running Unit := do wrote (toOctets (← shell).directory ++ "\n")

/-- Gives variables a mark, and values if there are any in the words; without words it shows the marked ones. -/
def marking (verb : String) (isMarked : Variable → Bool) (mark : Variable → Variable) (words : List String) : Running Unit := do
  let words := words.filter (· ≠ "--")
  if words.isEmpty || words = ["-p"] then
    let found := ((← shell).bindings.filter fun (_, v) => isMarked v).mergeSort fun a b => a.1 ≤ b.1
    wrote (String.join (found.map fun (name, v) =>
      verb ++ " " ++ name ++ v.value.elim "" (fun value => "=" ++ inQuotes value) ++ "\n"))
  else
    for word in words.filter (· ≠ "-p") do
      let (name, value) := named word
      if !isName name.toList then refuse (name ++ ": bad variable name")
      else
        if let some value := value then assign name value
        changeShell fun s => s.withVariable name (mark ((s.held? name).getD ⟨none, false, false⟩))
    setStatus 0

def exportAll (words : List String) : Running Unit := marking "export" (·.exported) (fun v => { v with exported := true }) words

def readonly (words : List String) : Running Unit := marking "readonly" (·.constant) (fun v => { v with constant := true }) words

def unset (words : List String) : Running Unit := do
  let functions := words.head? = some "-f"
  for name in words.filter fun word => !(["-f", "-v", "--"].contains word) do
    if functions then changeShell fun s => { s with functions := s.functions.filter (·.1 ≠ name) }
    else
      let s ← shell
      if (s.held? name).any (·.constant) then refuse (name ++ ": is read only")
      else if !isName name.toList then refuse (name ++ ": bad variable name")
      else changeShell fun s => { s with bindings := s.bindings.filter (·.1 ≠ name) }
  setStatus 0

/-- Keeps variables to the function that runs. -/
def keepBack (words : List String) : Running Unit := do
  for word in words do
    let (name, value) := named word
    let s ← shell
    match s.kept with
    | none => refuse "not in a function"
    | some kept =>
      if !isName name.toList then refuse (name ++ ": bad variable name")
      else
        if !kept.any (·.1 = name) then
          changeShell fun s => { s with kept := some ((name, s.held? name) :: kept) }
        if let some value := value then assign name value
  setStatus 0

def shift (words : List String) : Running Unit := do
  let count ← match words with
    | [] => pure 1
    | word :: _ => natural word
  if (← shell).parameters.length < count then refuse "can't shift that many"
  else
    changeShell fun s => { s with parameters := s.parameters.drop count }
    setStatus 0

/-- The manner with an option turned on or off. -/
def Manner.with? (m : Manner) (on : Bool) (option : String) : Option Manner :=
  match option with
  | "e" => some { m with strict := on }
  | "errexit" => some { m with strict := on }
  | "u" => some { m with demanding := on }
  | "nounset" => some { m with demanding := on }
  | "x" => some { m with tracing := on }
  | "xtrace" => some { m with tracing := on }
  | "f" => some { m with literal := on }
  | "noglob" => some { m with literal := on }
  | "a" => some { m with exporting := on }
  | "allexport" => some { m with exporting := on }
  | "C" => some { m with keeping := on }
  | "noclobber" => some { m with keeping := on }
  | "n" => some { m with idle := on }
  | "noexec" => some { m with idle := on }
  | option =>
    if ["v", "m", "b", "I", "i", "l", "V", "E", "verbose", "monitor", "notify", "ignoreeof", "vi", "emacs",
      "interactive", "stdin", "nolog", "debug"].contains option then some m else none

/-- Turns an option on or off. -/
def turnOption (sign : Char) (option shown : String) : Running Unit := do
  match (← shell).manner.with? (sign = '-') option with
  | some manner => changeShell fun s => { s with manner }
  | none => refuse ("Illegal option " ++ String.singleton sign ++ shown)

/-- What the options of a shell say besides: the script is the next word, or the input. -/
structure ScriptPlace where
  isWord : Bool
  isInput : Bool

/-- Does what the options among words say. Gives the other words, and whether the words have ended the options. Of a shell
that starts, the options say where its script is. -/
def options (starts : Bool) : ScriptPlace → List String → Running (ScriptPlace × List String × Bool)
  | place, [] => return (place, [], false)
  | place, word :: rest => do
    match word.toList with
    | ['-', '-'] => return (place, rest, true)
    | ['-'] => return (place, rest, starts)
    | sign :: letter :: letters =>
      if sign ≠ '-' && sign ≠ '+' then return (place, word :: rest, false)
      else if letter = 'o' && letters.isEmpty then
        match rest with
        | [] => return (place, [], false)
        | option :: rest =>
          turnOption sign option ("o " ++ option)
          options starts place rest
      else
        let all := letter :: letters
        for letter in all do
          if !starts || (letter ≠ 'c' && letter ≠ 's') then turnOption sign (String.singleton letter) (String.singleton letter)
        options starts ⟨place.isWord || (starts && all.contains 'c'), place.isInput || (starts && all.contains 's')⟩ rest
    | _ => return (place, word :: rest, false)

/-- Sets options and parameters, or shows the variables. -/
def settle (words : List String) : Running Unit := do
  if words.isEmpty then
    let found := (← shell).bindings.mergeSort fun a b => a.1 ≤ b.1
    wrote (String.join (found.filterMap fun (name, v) => v.value.map fun value => name ++ "=" ++ inQuotes value ++ "\n"))
  else
    let (_, parameters, ended) ← options false ⟨false, false⟩ words
    if ended || !parameters.isEmpty then changeShell fun s => { s with parameters }
    setStatus 0

/-- The condition that the words make decides about the status. -/
def test (name : String) (words : List String) : Running Unit := do
  let s ← get
  match condition ⟨s.world.disk.tree, s.shell.directory⟩ name words with
  | .ok holds => setStatus (if holds then 0 else 1)
  | .error message => refuse message

/-- The fields of a line for so many names: the last one gets all that is left. -/
def lineFields (separators : List Char) : Nat → List Mark → List String
  | 0, _ => []
  | count + 1, line =>
    let parts := fun (m : Mark) => !m.2 && separators.contains m.1
    let isBlank := fun (m : Mark) => parts m && [' ', '\t', '\n'].contains m.1
    let text := fun (marks : List Mark) => String.ofList (marks.map (·.1))
    let line := line.dropWhile isBlank
    let field := line.takeWhile (!parts ·)
    let rest := (line.drop field.length).dropWhile isBlank
    let rest := match rest with
      | m :: more => if parts m then more.dropWhile isBlank else rest
      | [] => []
    match count with
    | 0 => if rest.isEmpty then [text field] else [text (line.reverse.dropWhile isBlank).reverse]
    | count => text field :: lineFields separators count rest

/-- The characters of a line, and whether a backslash at its end joins it with the next one. -/
def lineMarks : List Char → List Mark × Bool
  | [] => ([], false)
  | ['\\'] => ([], true)
  | '\\' :: c :: rest =>
    let (marks, joined) := lineMarks rest
    ((c, true) :: marks, joined)
  | c :: rest =>
    let (marks, joined) := lineMarks rest
    ((c, false) :: marks, joined)

/-- A line of the input with those that are joined to it, and whether it has an end. -/
def inputLine (raw : Bool) : Nat → Running (List Mark × Bool)
  | 0 => return ([], false)
  | fuel + 1 => do
    match ← Running.channel? 0 with
    | none => return ([], false)
    | some (place, channel) =>
      let (line, ended, channel) := nextLine (← world) channel
      setChannel place channel
      let line := line.filter (· ≠ '\x00')
      let (marks, joined) := if raw then (line.map fun c => (c, false), false) else lineMarks line
      if joined && ended then
        let (more, ended) ← inputLine raw fuel
        return (marks ++ more, ended)
      else return (marks, ended)

/-- Whether the input is taken as it is, and the names after the options. -/
def readOptions : Bool → List String → Bool × List String
  | _, "-r" :: rest => readOptions true rest
  | raw, "-p" :: _ :: rest => readOptions raw rest
  | raw, "--" :: rest => (raw, rest)
  | raw, rest => (raw, rest)

/-- Gives variables the fields of a line of the input. -/
def read (words : List String) : Running Unit := do
  let (raw, names) := readOptions false words
  if names.isEmpty then refuse "arg count"
  else
    let (line, ended) ← inputLine raw 100000
    let values := lineFields (← shell).separators names.length line
    for (name, i) in names.zipIdx do
      if isName name.toList then assign name (values.getD i "") else refuse (name ++ ": bad variable name")
    setStatus (if ended then 0 else 1)

/-- Takes the next option from the parameters. -/
def getopts (words : List String) : Running Unit := do
  match words with
  | letters :: name :: given =>
    let s ← shell
    let parameters := if given.isEmpty then s.parameters else given
    let isSilent := letters.toList.head? = some ':'
    let index := (s.text "OPTIND").toNat?.getD 1
    let word := ((parameters[index - 1]?).getD "").toList
    let found := fun (c : String) (value : Option String) (index letter : Nat) => do
      assign "OPTIND" index.repr
      if let some value := value then assign "OPTARG" value
      assign name c
      changeShell fun s => { s with letter }
      setStatus 0
    let finish := fun (index : Nat) => do
      found "?" none index 1
      setStatus 1
    if word = ['-', '-'] then finish (index + 1)
    else if word.head? ≠ some '-' || word.length < 2 then finish index
    else
      let c := word.getD s.letter '?'
      let shown := String.singleton c
      let rest := word.drop (s.letter + 1)
      let (nextIndex, nextLetter) := if rest.isEmpty then (index + 1, 1) else (index, s.letter + 1)
      match letters.toList.dropWhile (· ≠ c), rest, parameters[index]? with
      | [], _, _ =>
        if isSilent then found "?" (some shown) nextIndex nextLetter
        else
          complainPlainly ("Illegal option -" ++ shown ++ "\n")
          found "?" none nextIndex nextLetter
      | _ :: ':' :: _, [], none =>
        if isSilent then found ":" (some shown) (index + 1) 1
        else
          complainPlainly ("No arg for -" ++ shown ++ " option\n")
          found "?" none (index + 1) 1
      | _ :: ':' :: _, [], some value => found shown (some value) (index + 2) 1
      | _ :: ':' :: _, rest, _ => found shown (some (String.ofList rest)) (index + 1) 1
      | _, _, _ => found shown none nextIndex nextLetter
  | _ => refuse "Usage: getopts optstring var [arg...]"

/-- Says what is done when signals come, or shows it. -/
def trap (words : List String) : Running Unit := do
  let words := match words with
    | "--" :: rest => rest
    | rest => rest
  let change := fun (action : Option String) (signals : List String) => do
    setStatus 0
    for word in signals do
      match Signal.ofWord? word with
      | none =>
        complainPlainly ("trap: " ++ word ++ ": bad trap\n")
        setStatus 1
      | some signal =>
        changeShell fun s =>
          let others := s.traps.filter (·.1 ≠ signal)
          { s with traps := action.elim others fun action => (signal, action) :: others }
  match words with
  | [] =>
    let found := (← shell).traps.mergeSort fun a b => a.1 ≤ b.1
    wrote (String.join (found.map fun (signal, action) =>
      "trap -- " ++ inQuotes action ++ " " ++ Signal.names.getD signal "EXIT" ++ "\n"))
  | [word] => change none [word]
  | "-" :: signals => change none signals
  | action :: signals =>
    if (Signal.ofWord? action).isSome && action.toList.all Char.isDigit then change none (action :: signals)
    else change (some action) signals

/-- Sends a signal to a process that is told by its number. -/
def send (signal : Nat) (word : String) : Running Bool := do
  match word.toNat? with
  | none => refuse ("Illegal number: " ++ word)
  | some process =>
    let s ← get
    let isJob := fun (job : Job) => job.process = process
    if s.world.jobs.any isJob then
      let hurt := fun (job : Job) =>
        if isJob job && job.progress = .waiting && job.signal.isNone && !Signal.isHarmless signal then
          { job with signal := some signal, shell := { job.shell with limit := some s.shell.now } }
        else job
      changeWorld fun w => { w with jobs := w.jobs.map hurt }
      return true
    else if process = s.shell.process || process = s.shell.root then
      let ignored := s.shell.traps.lookup signal = some "" && signal ≠ Signal.kill
      if !Signal.isHarmless signal && !ignored then changeWorld fun w => { w with signals := w.signals ++ [(process, signal)] }
      return true
    else
      complain "No such process\n"
      return false

def kill (words : List String) : Running Unit := do
  let signalled := fun (word : String) (targets : List String) => do
    match Signal.ofWord? word with
    | none => refuse ("Illegal option -" ++ String.ofList (word.toList.take 1))
    | some signal =>
      let sent ← targets.mapM (send signal)
      setStatus (if sent.all id then 0 else 1)
  match words with
  | [] => refuse "Usage: kill [-s sigspec | -signum | -sigspec] [pid | job]... or\nkill -l [exitstatus]"
  | "-l" :: [] => wrote (String.join ((Signal.names.drop 1).map (· ++ "\n")))
  | "-l" :: word :: _ =>
    let n := (word.toNat?.getD 0) % 128
    wrote (Signal.names.getD n "" ++ "\n")
  | "-s" :: word :: targets => signalled word targets
  | "--" :: targets => signalled "TERM" targets
  | word :: targets =>
    match word.toList with
    | '-' :: c :: letters => signalled (String.ofList (c :: letters)) (targets.filter (· ≠ "--"))
    | _ => signalled "TERM" (word :: targets)

/-- The commands of the shell that run scripts or leave them. -/
def runningBuiltins : List String :=
  [".", "break", "command", "continue", "eval", "exec", "exit", "return", "wait"]

/-- A command of the shell that runs no scripts. -/
def builtin? (name : String) : Option (List String → Running Unit) :=
  match name with
  | ":" => some fun _ => setStatus 0
  | "true" => some fun _ => setStatus 0
  | "false" => some fun _ => setStatus 1
  | "echo" => some echo
  | "printf" => some printf
  | "cd" => some cd
  | "pwd" => some pwd
  | "export" => some exportAll
  | "readonly" => some readonly
  | "unset" => some unset
  | "local" => some keepBack
  | "shift" => some shift
  | "set" => some settle
  | "test" => some (test "test")
  | "[" => some (test "[")
  | "read" => some read
  | "getopts" => some getopts
  | "trap" => some trap
  | "kill" => some kill
  | "umask" => some fun words => if words.isEmpty then wrote "0022\n" else setStatus 0
  | "ulimit" => some fun words => if words.isEmpty then wrote "unlimited\n" else setStatus 0
  | "times" => some fun _ => wrote "0m0.000000s 0m0.000000s\n0m0.000000s 0m0.000000s\n"
  | "alias" => some fun _ => setStatus 0
  | "unalias" => some fun _ => setStatus 0
  | "hash" => some fun _ => setStatus 0
  | "jobs" => some fun _ => setStatus 0
  | _ => none

def isBuiltin (name : String) : Bool := (builtin? name).isSome || runningBuiltins.contains name || name = "type"

/-- What a name means where a command is expected, in words or just by what is run. -/
def meaning? (name : String) (inWords : Bool) : Running (Option String) := do
  let s ← get
  let told := fun (words : String) => some (if inWords then name ++ " is " ++ words else name)
  if keywords.contains name then return told "a shell keyword"
  else if (s.shell.functions.lookup name).isSome then return told "a shell function"
  else if isBuiltin name then
    return told (if specialBuiltins.contains name then "a special shell builtin" else "a shell builtin")
  else match Machine.search s.world.disk.tree s.shell.directory (ofOctets (s.shell.text "PATH")) (ofOctets name) with
    | .ok (path, _) => return some (if inWords then name ++ " is " ++ toOctets path else toOctets path)
    | .error _ => return none

/-- Tells what names mean. -/
def explain (words : List String) : Running Unit := do
  let told ← words.mapM fun name => do return (name, ← meaning? name true)
  wroteWith (if told.any (·.2.isNone) then 127 else 0)
    (String.join (told.map fun (name, words) => words.getD (name ++ ": not found") ++ "\n"))

end GatedRepair.Shell
