import GatedRepair.Machine.Shell.Token

/-!
# Reading scripts

Lists of commands, pipelines and the compound commands. A script is read one complete command at a time, so that the
lines before a mistake can be run.
-/

namespace GatedRepair.Shell

open Reading

/-- Where a list of commands stands. -/
inductive ListPlace where
  /-- On a line of its own, at whose end it ends. -/
  | line
  /-- Between keywords; there is one command at least. -/
  | block
  /-- In an arm or in a word; there may be no command. -/
  | arm
  deriving DecidableEq

/-- A token that ends a list of commands. -/
def Token.isCloser (t : Token) : Bool :=
  match t with
  | .finished => true
  | .operator ")" => true
  | .operator ";;" => true
  | t => (t.keyword?.map fun word =>
      ["do", "done", "elif", "else", "esac", "fi", "then", "\x7d"].contains word).getD false

/-- The builtin commands that cannot be the name of a function. -/
def specialBuiltins : List String :=
  [".", ":", "break", "continue", "eval", "exec", "exit", "export", "local", "readonly", "return", "set", "shift", "times",
    "trap", "unset"]

/-- The name and the value of a word that gives a variable its value. -/
def assignment? : Word → Option (String × Word)
  | .text chars false :: more =>
    let name := chars.takeWhile (· ≠ '=')
    if name.length < chars.length && isName name then
      let value := chars.drop (name.length + 1)
      some (String.ofList name, if value.isEmpty then more else .text value false :: more)
    else none
  | _ => none

/-- The text of a word that ends a document, and whether parameters count in the document. -/
def delimiterOf (w : Word) : List Char × Bool :=
  (w.flatMap fun
    | .text chars _ => chars
    | _ => [],
   w.all fun
    | .text _ quoted => !quoted
    | _ => true)

/-- A redirection after its sign. -/
def redirection (channel : Option Nat) (sign : String) (target : Token) : Reading Redirect := do
  match target with
  | .word w =>
    match sign with
    | "<" => return .mk (channel.getD 0) .read w
    | "<>" => return .mk (channel.getD 0) .read w
    | ">>" => return .mk (channel.getD 1) .append w
    | "<&" => return .mk (channel.getD 0) .copy w
    | ">&" => return .mk (channel.getD 1) .copy w
    | ">" => return .mk (channel.getD 1) .write w
    | ">|" => return .mk (channel.getD 1) .write w
    | _ =>
      let (delimiter, expanded) := delimiterOf w
      let s ← get
      let id := s.nextDocument
      set { s with
        announced := ⟨id, delimiter, sign == "<<-", expanded⟩ :: s.announced
        nextDocument := id + 1 }
      return .mk (channel.getD 0) (.document id) []
  | t => unexpected t none

/-- One command after another. -/
def andThen (first : Option Script) (second : Script) : Script := first.elim second (.sequence · second)

mutual

/-- A script within a word, up to its end or to a closing parenthesis. -/
def substitution (size : Nat) : Nat → Bool → Reading Script
  | 0, _ => refuse "Script too deep"
  | fuel + 1, closed => do
    let body ← commands size fuel .arm none
    let t ← token (substitution size fuel) size
    match closed, t with
    | true, .operator ")" => return body.getD .nothing
    | true, t => unexpected t (some "\")\"")
    | false, .finished => return body.getD .nothing
    | false, t => unexpected t none

/-- The next token that is no line end. -/
def visibleToken (size : Nat) : Nat → Reading Token
  | 0 => refuse "Script too deep"
  | fuel + 1 => do
    match ← token (substitution size fuel) size with
    | .newline => visibleToken size fuel
    | t => return t

/-- A list of commands, after those before. -/
def commands (size : Nat) : Nat → ListPlace → Option Script → Reading (Option Script)
  | 0, _, _ => refuse "Script too deep"
  | fuel + 1, place, before => do
    let t ← if place = .line then token (substitution size fuel) size else visibleToken size fuel
    match t with
    | .newline => return before
    | .finished =>
      putBack t
      return before
    | t =>
      putBack t
      if (before.isSome && place = .block || place = .arm) && t.isCloser then return before
      else
        let command ← conditions size fuel none
        let t ← token (substitution size fuel) size
        let more := fun (after : Script) (t : Token) => do
          match t with
          | .newline => if place = .line then return some after else commands size fuel place (some after)
          | t =>
            putBack t
            if place ≠ .line && t.isCloser then return some after else commands size fuel place (some after)
        match t with
        | .operator "&" => more (andThen before (.beside command)) (← token (substitution size fuel) size)
        | .operator ";" => more (andThen before command) (← token (substitution size fuel) size)
        | .newline => more (andThen before command) .newline
        | .finished =>
          putBack t
          return some (andThen before command)
        | t =>
          if place = .line then unexpected t none
          else
            putBack t
            return some (andThen before command)

/-- Pipelines of which each decides about the next one. -/
def conditions (size : Nat) : Nat → Option (Bool × Script) → Reading Script
  | 0, _ => refuse "Script too deep"
  | fuel + 1, before => do
    let next ← pipeline size fuel
    let all := match before with
      | none => next
      | some (true, first) => .both first next
      | some (false, first) => .otherwise first next
    match ← token (substitution size fuel) size with
    | .operator "&&" =>
      putBack (← visibleToken size fuel)
      conditions size fuel (some (true, all))
    | .operator "||" =>
      putBack (← visibleToken size fuel)
      conditions size fuel (some (false, all))
    | t =>
      putBack t
      return all

def pipeline (size : Nat) : Nat → Reading Script
  | 0 => refuse "Script too deep"
  | fuel + 1 => do
    let t ← token (substitution size fuel) size
    let negated := t.keyword? == some "!"
    if !negated then putBack t
    let first ← command size fuel
    let stages ← furtherStages size fuel [first]
    let body := match stages with
      | [only] => only
      | stages => .pipe stages
    return if negated then .negate body else body

/-- The stages of a pipeline, of which some have been read, the last one first. -/
def furtherStages (size : Nat) : Nat → List Script → Reading (List Script)
  | 0, _ => refuse "Script too deep"
  | fuel + 1, back => do
    match ← token (substitution size fuel) size with
    | .operator "|" =>
      putBack (← visibleToken size fuel)
      furtherStages size fuel ((← command size fuel) :: back)
    | t =>
      putBack t
      return back.reverse

def command (size : Nat) : Nat → Reading Script
  | 0 => refuse "Script too deep"
  | fuel + 1 => do
    let t ← token (substitution size fuel) size
    let line := (← get).line
    let block := do return (← commands size fuel .block none).getD .nothing
    let closedBy := fun (word : String) => do
      let t ← token (substitution size fuel) size
      if t.keyword? ≠ some word then unexpected t (some ("\"" ++ word ++ "\""))
    let redirected := fun (body : Script) => do
      match ← redirections size fuel [] with
      | [] => return body
      | redirects => return .redirected line body redirects
    match t with
    | .operator "(" =>
      let body ← block
      match ← token (substitution size fuel) size with
      | .operator ")" => return .own line body (← redirections size fuel [])
      | t => unexpected t (some "\")\"")
    | .redirect .. =>
      putBack t
      simple size fuel line [] [] []
    | .word _ =>
      match t.keyword? with
      | some "\x7b" =>
        let body ← block
        closedBy "\x7d"
        redirected body
      | some "if" => redirected (← choice size fuel)
      | some "for" =>
        let name ← match ← token (substitution size fuel) size with
          | .word w => match plain? w with
            | some chars => if isName chars then pure (String.ofList chars) else refuse "Bad for loop variable"
            | none => refuse "Bad for loop variable"
          | _ => refuse "Bad for loop variable"
        let t ← visibleToken size fuel
        let words ← if t.keyword? = some "in" then pure (some (← wordList size fuel []))
          else
            match t with
            | .operator ";" => pure none
            | t =>
              putBack t
              pure none
        let t ← visibleToken size fuel
        if t.keyword? ≠ some "do" then unexpected t (some "\"do\"")
        else
          let body ← block
          closedBy "done"
          redirected (.each line name words body)
      | some "case" =>
        match ← token (substitution size fuel) size with
        | .word subject =>
          let t ← visibleToken size fuel
          if t.keyword? ≠ some "in" then unexpected t (some "\"in\"")
          else redirected (.select line subject (← arms size fuel []))
        | t => unexpected t (some "word")
      | some "while" =>
        let condition ← block
        closedBy "do"
        let body ← block
        closedBy "done"
        redirected (.loop false condition body)
      | some "until" =>
        let condition ← block
        closedBy "do"
        let body ← block
        closedBy "done"
        redirected (.loop true condition body)
      | some _ => unexpected t none
      | none =>
        putBack t
        simple size fuel line [] [] []
    | t => unexpected t none

/-- The condition and the branches after `if`. -/
def choice (size : Nat) : Nat → Reading Script
  | 0 => refuse "Script too deep"
  | fuel + 1 => do
    let condition := (← commands size fuel .block none).getD .nothing
    let t ← token (substitution size fuel) size
    if t.keyword? ≠ some "then" then unexpected t (some "\"then\"")
    else
      let yes := (← commands size fuel .block none).getD .nothing
      let t ← token (substitution size fuel) size
      match t.keyword? with
      | some "fi" => return .choice condition yes .nothing
      | some "elif" => return .choice condition yes (← choice size fuel)
      | some "else" =>
        let no := (← commands size fuel .block none).getD .nothing
        let t ← token (substitution size fuel) size
        if t.keyword? = some "fi" then return .choice condition yes no else unexpected t (some "\"fi\"")
      | _ => unexpected t (some "\"fi\"")

/-- The words of a loop up to the end of its line, after those before, backwards. -/
def wordList (size : Nat) : Nat → List Word → Reading (List Word)
  | 0, _ => refuse "Script too deep"
  | fuel + 1, back => do
    match ← token (substitution size fuel) size with
    | .word w => wordList size fuel (w :: back)
    | .newline => return back.reverse
    | .operator ";" => return back.reverse
    | t => unexpected t none

/-- The arms of a case up to its end, after those before, backwards. -/
def arms (size : Nat) : Nat → List (List Word × Script) → Reading (List (List Word × Script))
  | 0, _ => refuse "Script too deep"
  | fuel + 1, back => do
    let t ← visibleToken size fuel
    if t.keyword? = some "esac" then return back.reverse
    else
      let t ← match t with
        | .operator "(" => token (substitution size fuel) size
        | t => pure t
      let patterns ← armPatterns size fuel [] t
      let body := (← commands size fuel .arm none).getD .nothing
      let back := (patterns, body) :: back
      let t ← visibleToken size fuel
      if t.keyword? = some "esac" then return back.reverse
      else match t with
        | .operator ";;" => arms size fuel back
        | t => unexpected t (some "\";;\"")

/-- The patterns of an arm, of which the next one begins with the token. One that is no word is a pattern without text. -/
def armPatterns (size : Nat) : Nat → List Word → Token → Reading (List Word)
  | 0, _, _ => refuse "Script too deep"
  | fuel + 1, back, t => do
    let w := match t with
      | .word w => w
      | _ => []
    match ← token (substitution size fuel) size with
    | .operator "|" => armPatterns size fuel (w :: back) (← token (substitution size fuel) size)
    | .operator ")" => return (w :: back).reverse
    | .word _ => refuse "word unexpected (expecting \")\")"
    | t => unexpected t (some "\")\"")

/-- The redirections after a command, after those before, backwards. -/
def redirections (size : Nat) : Nat → List Redirect → Reading (List Redirect)
  | 0, _ => refuse "Script too deep"
  | fuel + 1, back => do
    match ← token (substitution size fuel) size with
    | .redirect channel sign =>
      let target ← token (substitution size fuel) size
      redirections size fuel ((← redirection channel sign target) :: back)
    | t =>
      putBack t
      return back.reverse

/-- A command that is made of words, or the definition of a function. Values, words and redirections come after those
before, backwards. -/
def simple (size : Nat) : Nat → Nat → List (String × Word) → List Word → List Redirect → Reading Script
  | 0, _, _, _, _ => refuse "Script too deep"
  | fuel + 1, line, values, words, redirects => do
    match ← token (substitution size fuel) size with
    | .word w =>
      match words, assignment? w with
      | [], some value => simple size fuel line (value :: values) words redirects
      | words, _ => simple size fuel line values (w :: words) redirects
    | .redirect channel sign =>
      let target ← token (substitution size fuel) size
      simple size fuel line values words ((← redirection channel sign target) :: redirects)
    | t =>
      match t, words, values, redirects with
      | .operator "(", [word], [], [] =>
        match ← token (substitution size fuel) size with
        | .operator ")" =>
          let name := (plain? word).map String.ofList
          match name with
          | some name =>
            if !isName name.toList || specialBuiltins.contains name then refuse "Bad function name"
            else
              putBack (← visibleToken size fuel)
              return .define name (← command size fuel)
          | none => refuse "Bad function name"
        | t => unexpected t (some "\")\"")
      | t, words, values, redirects =>
        putBack t
        return .call line values.reverse words.reverse redirects.reverse

end

/-- How deep a script of so many characters can be. -/
def depthFor (size : Nat) : Nat := 8 * size + 64

/-- The whole text as a document, in which parameters stand for their values. -/
def documentWord (size : Nat) : Reading Word := pieces (substitution size (depthFor size)) size .document []

/-- The next complete command, or nothing at the end of the script. -/
def completeCommand (size : Nat) : Reading (Option Script) := do
  let fuel := depthFor size
  match ← visibleToken size fuel with
  | .finished => return none
  | t =>
    putBack t
    return some ((← commands size fuel .line none).getD .nothing)

end GatedRepair.Shell
