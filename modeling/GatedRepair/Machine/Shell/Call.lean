import GatedRepair.Machine.Shell.Builtin
import GatedRepair.Machine.Shell.Process

/-!
# Calls and running scripts
-/

/-!
## Calls

A command that is made of words calls a function, the shell itself or a program, perhaps another shell.
-/

namespace GatedRepair.Shell

open Files Text Running

/-- The last part of the name that a program was called by. -/
def shortName (name : String) : String := String.ofList ((name.toList.reverse.takeWhile (· ≠ '/')).reverse)

/-- What a program says about itself under the name that it was called by. The searcher for lines gives its own name in its
hints. -/
def toldAs (name text : String) : String :=
  let short := shortName name
  if name = short then text
  else
    let front := (short ++ ": ").toList
    let hint := ("Try '" ++ short ++ " --help' ").toList
    let told := fun (line : List Char) =>
      if front.isPrefixOf line then name.toList ++ line.drop short.length
      else if hint.isPrefixOf line && short ≠ "grep" then ("Try '" ++ name ++ " --help' ").toList ++ line.drop hint.length
      else line
    String.ofList (['\n'].intercalate ((Text.split '\n' text.toList).map told))

/-- Writes what a program with a name has written. Gives what kept its output from being written. -/
def writeAll (name : String) (written : List (Stream × String)) : Running (Option String) := do
  let mut failed := none
  for (stream, text) in written do
    if stream = .err then complainPlainly (toldAs name text)
    else if failed.isNone then failed := ← write 1 text
  return failed

/-- Runs a program that is called by a name. -/
def runProgram (run : Run) (program : Program) (name : String) (arguments : List String) : Running Unit := do
  let s ← get
  let source ← Running.channel? 0
  let input := source.elim "" fun (_, channel) => String.ofList (rest s.world channel)
  let trouble := match source with
    | none => some Failure.notOpen
    | some (_, .directory) => some .isDirectory
    | _ => none
  let isFile := match source with
    | some (_, .file ..) => true
    | _ => false
  if shortName name = "cat" && (← Running.channel? 1).isNone then
    complainPlainly (name ++ ": standard output: Bad file descriptor\n")
    setStatus 1
    return ()
  let ran := program
    { arguments, input, isFile, directory := s.shell.directory, environment := s.shell.environment, disk := s.world.disk, trouble }
  changeWorld fun w => { w with disk := ran.disk }
  match source with
  | some (place, .input _) => if ran.rest ≠ input then setChannel place (.input ran.rest.toList)
  | some (place, .file location _ atEnd) =>
    if ran.rest ≠ input then
      setChannel place (.file location ((bytesAt s.world.disk.tree location).size - ran.rest.length) atEnd)
  | _ => pure ()
  let failed ← writeAll name ran.written
  wait run ran.wait
  setStatus ran.status
  if let some words := failed then
    complainPlainly (name ++ ": write error: " ++ words ++ "\n")
    setStatus (if shortName name = "grep" then 2 else max 1 ran.status)

/-- What the arguments of a shell say: the text of a script, a file with a script, or that the script is the input. -/
inductive ScriptSource where
  | text (text : String)
  | file (name : String)
  | input

/-- Where a shell finds its script, from the words after its options. -/
def scriptSource (place : ScriptPlace) (words : List String) : Running ScriptSource := do
  if place.isWord then
    match words with
    | [] => refuse "-c requires an argument"
    | [text] => return .text text
    | text :: name :: parameters =>
      changeShell fun s => { s with name, parameters }
      return .text text
  else
    match place.isInput, words with
    | false, name :: parameters =>
      changeShell fun s => { s with name, parameters }
      return .file name
    | _, parameters =>
      changeShell fun s => { s with parameters }
      return .input

/-- The shell as it is when it has just been started under a name. -/
def started (name : String) (tree : Tree) (s : Interpreter) : Interpreter :=
  let inherited := s.environment.filter fun (name, _) => isName name.toList
  let told := (s.environment.lookup "PWD").getD ""
  let directory := fun (path : String) => (tree.canonical path).toOption
  let place := if told.startsWith "/" && directory (ofOctets told) = directory s.directory then ofOctets told else s.directory
  let own := [("IFS", " \t\n"), ("OPTIND", "1"), ("PPID", "1"), ("PS1", "$ "), ("PS2", "> "), ("PS4", "+ ")]
  let given := (inherited.filter fun (name, _) => !(["IFS", "PWD", "OPTIND", "PPID"].contains name)).map fun (name, value) =>
    (name, (⟨some value, true, false⟩ : Variable))
  let known := fun (name : String) => given.any (·.1 = name)
  { name, line := 0, command := none, directory := place
    bindings := given ++ ("PWD", ⟨some (toOctets place), true, false⟩) ::
      (own.filter (!known ·.1)).map fun (name, value) => (name, ⟨some value, false, false⟩)
    parameters := [], functions := [], documents := [], manner := ⟨false, false, false, false, false, false, false⟩
    channels := s.channels, status := 0, substituted := 0, process := s.process, root := s.process, beside := none
    traps := s.traps.filter (·.2 = ""), now := s.now, limit := s.limit, depth := s.depth + 1, loops := 0, letter := 1, kept := none }

/-- Runs a shell, in the place of the one that starts it. -/
def runShell (run : Run) (name : String) (arguments : List String) : Running Unit := do
  deeper
  let tree := (← world).disk.tree
  changeShell (started name tree)
  let (place, words, _) ← options true ⟨false, false⟩ arguments
  match ← scriptSource place words with
  | .text text => runText run ⟨false, true⟩ text
  | .input =>
    match ← Running.channel? 0 with
    | none => return ()
    | some (place, channel) =>
      let text := String.ofList (rest (← world) channel)
      setChannel place .nothing
      runText run ⟨false, false⟩ text
  | .file path =>
    match ← openForReading path with
    | .ok channel => runText run ⟨false, false⟩ (String.ofList (rest (← world) channel))
    | .error e =>
      let given := (← shell).name
      changeShell fun s => { s with name }
      complain ("cannot open " ++ given ++ ": " ++ openingWords "No such file" e)
      setStatus 2
      throw .exited

/-- The status after a command that cannot be run. -/
def failureStatus (e : Failure) : Nat :=
  if [Failure.notFound, .notDirectory, .tooManyLinks, .nameTooLong].contains e then 127 else 126

/-- Starts a program, in the place of the shell or beside it. -/
def launch (run : Run) (inPlace : Bool) (name : String) (arguments : List String) : Running Unit := do
  let s ← get
  match Machine.search s.world.disk.tree s.shell.directory (ofOctets (s.shell.text "PATH")) (ofOctets name) with
  | .error e =>
    complain (name ++ ": " ++ openingWords "not found" e)
    setStatus (failureStatus e)
  | .ok (_, .program program) => runProgram run program name arguments
  | .ok (_, .shell) =>
    if inPlace then
      runShell run name arguments
      throw .exited
    else
      let (ending, time) ← inCopy run id (runShell run name arguments)
      goOnAfter ending time
      setStatus ending.status

/-- The variables with one as it was before, if it was there. -/
def putVariableBack (all : List (String × Variable)) (before : String × Option Variable) : List (String × Variable) :=
  match before.2 with
  | some v => Interpreter.putVariable before.1 v all
  | none => all.filter (·.1 ≠ before.1)

/-- Calls a function. -/
def callFunction (run : Run) (tested : Bool) (body : Script) (parameters : List String) : Running Unit := do
  deeper
  let s ← shell
  changeShell fun s => { s with parameters, loops := 0, kept := some [], depth := s.depth + 1, letter := 1 }
  let restore := changeShell fun now =>
    let back := (now.kept.getD []).foldl putVariableBack now.bindings
    { now with
      parameters := s.parameters, loops := s.loops, kept := s.kept, depth := s.depth, letter := s.letter
      bindings := back }
  afterwards
    (tryCatch (run body ⟨tested, false⟩) fun
      | .returned => return ()
      | stop => throw stop)
    restore

/-- Runs the script in a file as if it stood here. -/
def runFile (run : Run) (words : List String) : Running Unit := do
  match words.filter (· ≠ "--") with
  | [] => refuse "filename argument required"
  | name :: _ =>
    let s ← get
    let places := (Text.split ':' (s.shell.text "PATH").toList).map String.ofList
    let candidates := places.map fun place => if place = "" then name else Path.within place name
    let isThere := fun (name : String) => s.world.disk.tree.isFile (Path.within s.shell.directory (ofOctets name))
    match if name.contains '/' then some name else candidates.find? isThere with
    | none => refuse (name ++ ": not found")
    | some path =>
      match ← openForReading path with
      | .error e => refuse ("cannot open " ++ path ++ ": " ++ openingWords "No such file" e)
      | .ok channel =>
        let text := String.ofList (rest (← world) channel)
        changeShell fun s => { s with command := some path, status := 0, depth := s.depth + 1 }
        deeper
        let restore := changeShell fun now => { now with line := s.shell.line, depth := s.shell.depth }
        afterwards
          (tryCatch (runText run ⟨false, false⟩ text) fun
            | .returned => return ()
            | stop => throw stop)
          restore

/-- Runs a text as if it stood here. -/
def runEval (run : Run) (setting : Setting) (words : List String) : Running Unit := do
  let s ← shell
  let text := " ".intercalate words
  if text.toList.all fun c => [' ', '\t', '\n'].contains c then setStatus 0
  else
    deeper
    changeShell fun s => { s with depth := s.depth + 1 }
    afterwards (runText run ⟨setting.tested, false⟩ text) (changeShell fun now => { now with line := s.line, depth := s.depth })

/-- How many loops a command that leaves them means. -/
def levels (words : List String) : Running Nat := do
  match words with
  | [] => return 1
  | word :: _ =>
    let n ← natural word
    if n = 0 then refuse ("Illegal number: " ++ word) else return n

/-- Leaves loops, or begins the next round of one. -/
def leaveLoops (words : List String) (stop : Nat → Stop) : Running Unit := do
  let count := min (← levels words) (← shell).loops
  setStatus 0
  if 0 < count then throw (stop count)

/-- The status that a word gives, or else the present one. -/
def givenStatus (words : List String) : Running Unit := do
  match words with
  | [] => return ()
  | word :: _ => setStatus (← natural word)

/-- A command of the shell, with what it runs. -/
def callBuiltin (run : Run) (setting : Setting) (name : String) (words : List String) : Running Unit := do
  match name with
  | "eval" => runEval run setting words
  | "." => runFile run words
  | "break" => leaveLoops words .broken
  | "continue" => leaveLoops words .resumed
  | "exit" =>
    givenStatus words
    throw .exited
  | "return" =>
    givenStatus words
    throw .returned
  | "wait" => forgiving (waitFor run words)
  | "type" => explain words
  | "exec" =>
    match words.filter (· ≠ "--") with
    | [] => setStatus 0
    | name :: arguments =>
      launch run true name arguments
      throw .exited
  | "command" =>
    match words with
    | "-v" :: names => forgiving do
      let told ← names.mapM fun name => meaning? name false
      wroteWith (if told.any (·.isNone) then 127 else 0) (String.join (told.filterMap fun words => words.map (· ++ "\n")))
    | names => explain (names.drop 1)
  | name =>
    match builtin? name with
    | some act => if specialBuiltins.contains name then act words else forgiving (act words)
    | none => setStatus 127

/-- Does something under the name of a command. -/
def underName (name : String) (body : Running Unit) : Running Unit := do
  let command := (← shell).command
  changeShell fun s => { s with command := some name }
  afterwards body (changeShell fun s => { s with command })

/-- Calls the shell itself or a program, but no function. -/
def callPlain (run : Run) (setting : Setting) : Nat → List String → Running Unit
  | 0, _ => setStatus 127
  | _, [] => setStatus 0
  | fuel + 1, name :: words => do
    let describes := words.head?.any fun word => word = "-v" || word = "-V"
    if name = "command" && !describes then
      callPlain run setting fuel (words.filter fun word => word ≠ "-p" && word ≠ "--")
    else if isBuiltin name then underName name (callBuiltin run setting name words)
    else launch run (setting.last && (← shell).traps.isEmpty) name words

/-- The values that are given in front of a command. Gives the words in which they are shown. -/
def giveValues (output : Script → Running String) (values : List (String × Word)) (exported : Bool) :
    Running (List String) :=
  values.mapM fun (name, word) => do
    let text ← expandText output word
    assign name text
    if exported then changeShell fun s => s.withVariable name ⟨some text, true, false⟩
    return name ++ "=" ++ text

/-- Does something with values that are taken back after it. -/
def withValues (output : Script → Running String) (values : List (String × Word)) (body : List String → Running Unit) :
    Running Unit := do
  if values.isEmpty then body []
  else
    let s ← shell
    let before := values.map fun (name, _) => (name, s.held? name)
    let restore := changeShell fun now => { now with bindings := before.foldl putVariableBack now.bindings }
    let shown ← giveValues output values true
    afterwards (body shown) restore

/-- The commands whose words give variables values. -/
def givingBuiltins : List String := ["export", "readonly", "local"]

/-- The words that a command is called with. -/
def calledWords (output : Script → Running String) (words : List Word) : Running (List String) := do
  match words with
  | [] => return []
  | first :: rest =>
    let head ← expandWord output first
    let gives := (plain? first).any fun chars => givingBuiltins.contains (String.ofList chars)
    let tail ← rest.mapM fun w =>
      if gives && (assignment? w).isSome then return [← expandText output w] else expandWord output w
    return head ++ tail.flatten

/-- What a text stands for in which parameters stand for their values, unless it is not well formed. -/
def expandPrompt (output : Script → Running String) (text : String) : Running String := do
  let chars := text.toList
  match (documentWord (chars.length + 2)).run (.ofText chars 1 0) with
  | .error _ => return text
  | .ok (word, _) => expandText output word

/-- Shows a command that is about to be run, where complaints went before its redirections. -/
def trace (output : Script → Running String) (channels : List (Nat × Nat)) (words : List String) : Running Unit := do
  let s ← shell
  if s.manner.tracing then
    changeShell fun s => { s with manner := { s.manner with tracing := false } }
    let front ← expandPrompt output (s.text "PS4")
    changeShell fun s => { s with manner := { s.manner with tracing := true }, channels }
    complainPlainly (front ++ " ".intercalate words ++ "\n")
    changeShell fun now => { now with channels := s.channels }

/-- A command that is made of words. -/
def call (run : Run) (output : Script → Running String) (line : Nat) (values : List (String × Word)) (words : List Word)
    (redirects : List Redirect) (setting : Setting) : Running Unit := do
  step
  changeShell fun s => { s with line, substituted := 0 }
  let words ← calledWords output words
  let channels := (← shell).channels
  match words with
  | [] =>
    redirected output redirects
      (do
        trace output channels (← giveValues output values false)
        setStatus (← shell).substituted)
      (setStatus 2)
  | name :: arguments =>
    if specialBuiltins.contains name then
      let failed := do
        setStatus 2
        throw .exited
      let body := do
        trace output channels ((← giveValues output values false) ++ words)
        callPlain run setting 8 words
      if name = "exec" then
        if ← redirectAll output true redirects then body
        else
          changeShell fun s => { s with channels }
          failed
      else redirected output redirects body failed
    else
      redirected output redirects
        (withValues output values fun shown => do
          trace output channels (shown ++ words)
          match (← shell).functions.lookup name with
          | some body => callFunction run setting.tested body arguments
          | none => callPlain run setting 8 words)
        (setStatus 2)
  heed run

end GatedRepair.Shell

/-!
## Running scripts

What each kind of script does.
-/

namespace GatedRepair.Shell

open Running

/-- One round of a loop. Gives whether there is to be another one, and the status of the loop so far. -/
def round (body : Running (Bool × Nat)) : Running (Bool × Nat) := do
  changeShell fun s => { s with loops := s.loops + 1 }
  let leave := changeShell fun s => { s with loops := s.loops - 1 }
  let left := fun (levels : Nat) (further : Stop) (goesOn : Bool) => do
    leave
    if 1 < levels then throw further else return (goesOn, 0)
  tryCatch
    (do
      let result ← body
      leave
      return result)
    fun
      | .broken levels => left levels (.broken (levels - 1)) false
      | .resumed levels => left levels (.resumed (levels - 1)) true
      | stop => throw stop

/-- Rounds as long as there is to be another one, at most so many. -/
def rounds (body : Nat → Running (Bool × Nat)) : Nat → Nat → Running Unit
  | 0, _ => throw .overdue
  | fuel + 1, status => do
    let (goesOn, status) ← round (body status)
    if goesOn then rounds body fuel status else setStatus status

/-- How many rounds a loop can have. -/
def roundLimit : Nat := 10000000

/-- Rounds for each of some words, as long as none ends the loop. -/
def roundsFor (name : String) (body : Running Unit) : List String → Nat → Running Unit
  | [], status => setStatus status
  | word :: more, _ => do
    assign name word
    step
    let (goesOn, status) ← round do
      body
      return (true, (← shell).status)
    if goesOn then roundsFor name body more status else setStatus status

/-- The script of the first arm that has a pattern for a text. -/
def chosenArm (output : Script → Running String) (text : List Char) : List (List Word × Script) → Running (Option Script)
  | [] => return none
  | (patterns, body) :: more => do
    if ← patterns.anyM fun w => return Glob.fits (← expandPattern output w) text then return some body
    else chosenArm output text more

/-- Ends a strict shell when something has failed that was not tested. -/
def strictly (setting : Setting) (body : Running Unit) : Running Unit := do
  body
  let s ← shell
  if s.manner.strict && !setting.tested && s.status ≠ 0 then throw .exited

/-- A shell of its own for a script. -/
def runOwn (run : Run) (output : Script → Running String) (line : Nat) (body : Script) (redirects : List Redirect)
    (setting : Setting) : Running Unit := do
  changeShell fun s => { s with line }
  let inside := do
    if ← redirectAll output false redirects then run body ⟨setting.tested, true⟩
    else
      setStatus 2
      throw .exited
  if setting.last && (← shell).traps.isEmpty then
    inside
    throw .exited
  else
    let (ending, time) ← inCopy run id inside
    goOnAfter ending time
    setStatus ending.status
    heed run

/-- One script, where `run` runs the scripts in it. -/
def runOne (run : Run) (script : Script) (setting : Setting) : Running Unit := do
  let output := outputOf run
  let inner : Setting := ⟨setting.tested, false⟩
  if (← shell).manner.idle then return ()
  match script with
  | .nothing => setStatus 0
  | .call line values words redirects => strictly setting (call run output line values words redirects setting)
  | .redirected line body redirects =>
    changeShell fun s => { s with line }
    redirected output redirects (run body inner) (strictly setting (setStatus 2))
  | .own line body redirects => strictly setting (runOwn run output line body redirects setting)
  | .pipe stages => strictly setting (runPipeline run setting.tested stages)
  | .both first second =>
    run first ⟨true, false⟩
    if (← shell).status = 0 then run second setting
  | .otherwise first second =>
    run first ⟨true, false⟩
    if (← shell).status ≠ 0 then run second setting
  | .sequence first second =>
    run first inner
    run second setting
  | .beside body => putBeside body
  | .choice condition yes no =>
    run condition ⟨true, false⟩
    if (← shell).status = 0 then run yes setting else run no setting
  | .loop negated condition body =>
    rounds
      (fun status => do
        step
        run condition ⟨true, false⟩
        if ((← shell).status = 0) == negated then return (false, status)
        else
          run body inner
          return (true, (← shell).status))
      roundLimit 0
  | .each line name words body =>
    changeShell fun s => { s with line }
    let found ← match words with
      | none => pure (← shell).parameters
      | some words => do pure ((← words.mapM (expandWord output)).flatten)
    roundsFor name (run body inner) found 0
  | .select line subject arms =>
    changeShell fun s => { s with line }
    let text ← expandText output subject
    match ← chosenArm output text.toList arms with
    | some body => run body setting
    | none => setStatus 0
  | .define name body =>
    changeShell fun s => { s with functions := (name, body) :: s.functions.filter (·.1 ≠ name), status := 0 }
  | .negate body =>
    run body ⟨true, false⟩
    setStatus (if (← shell).status = 0 then 1 else 0)

/-- Runs a script in which scripts stand so deep at most. -/
def runTo : Nat → Run
  | 0 => fun _ _ => throw (.killed Signal.segmentation)
  | depth + 1 => runOne (runTo depth)

/-- How deep scripts can stand in scripts. -/
def scriptDepth : Nat := 100000

/-- Runs a script. -/
def run : Run := runTo scriptDepth

end GatedRepair.Shell
