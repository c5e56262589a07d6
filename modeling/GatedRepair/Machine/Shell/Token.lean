import GatedRepair.Text.Lines

/-!
# Shell scripts

What a script says: commands that are made of words, with redirections and values for variables, and the ways to put
commands together. All texts in a script are octet texts.
-/

namespace GatedRepair.Shell

/-- When another word stands for a parameter. -/
inductive Substitute where
  /-- The word is used when there is no value. -/
  | default
  /-- The word becomes the value when there is none. -/
  | assign
  /-- The word is a complaint when there is no value. -/
  | demand
  /-- The word is used when there is a value. -/
  | alternative
  deriving DecidableEq, Repr

/-- What a redirection does with the channel: it reads a file, writes one anew or at its end, copies another channel, or
reads a text that stands in the script. -/
inductive Direction where
  | read
  | write
  | append
  | copy
  | document (id : Nat)
  deriving DecidableEq, Repr

mutual

/-- A part of a word. What is quoted is neither split nor matched with file names. -/
inductive Piece where
  | text (chars : List Char) (quoted : Bool)
  | parameter (name : String) (change : Change) (quoted : Bool)
  /-- What a script writes. -/
  | output (body : Script) (quoted : Bool)
  /-- The value of an expression. -/
  | number (expression : List Piece) (quoted : Bool)
  /-- A parameter whose change makes no sense. -/
  | senseless

/-- How the value of a parameter is changed. -/
inductive Change where
  | none
  | length
  /-- Another word may stand for it; after a colon an empty value counts as missing. -/
  | substitute (use : Substitute) (colon : Bool) (word : List Piece)
  /-- What matches a pattern is cut off. -/
  | trimmed (atEnd longest : Bool) (pattern : List Piece)

/-- A channel that is turned elsewhere. -/
inductive Redirect where
  | mk (channel : Nat) (direction : Direction) (target : List Piece)

inductive Script where
  | nothing
  /-- Values for variables, and the words of a command. -/
  | call (line : Nat) (values : List (String × List Piece)) (words : List (List Piece)) (redirects : List Redirect)
  | redirected (line : Nat) (body : Script) (redirects : List Redirect)
  /-- A shell of its own. -/
  | own (line : Nat) (body : Script) (redirects : List Redirect)
  | pipe (stages : List Script)
  | both (first second : Script)
  | otherwise (first second : Script)
  | sequence (first second : Script)
  /-- A script that is not waited for. -/
  | beside (body : Script)
  | choice (condition yes no : Script)
  /-- The body is repeated while the condition holds, or until it does. -/
  | loop (negated : Bool) (condition body : Script)
  /-- The body is run for each word, or for each parameter of the script. -/
  | each (line : Nat) (name : String) (words : Option (List (List Piece))) (body : Script)
  | select (line : Nat) (subject : List Piece) (arms : List (List (List Piece) × Script))
  | define (name : String) (body : Script)
  | negate (body : Script)

end

/-- A word. -/
abbrev Word := List Piece

instance instInhabitedScript : Inhabited Script := ⟨.nothing⟩

/-- The text of a word that is written without quotes and parameters. -/
def plain? : Word → Option (List Char)
  | [] => some []
  | .text chars false :: more => (plain? more).map (chars ++ ·)
  | _ => none

/-- A part of a name. -/
def isNameChar (c : Char) : Bool := c.isAlphanum || c == '_'

/-- A text that can name a variable. -/
def isName (text : List Char) : Bool := text.all isNameChar && (text.head?.map (!·.isDigit)).getD false

/-!
## The smallest parts of a script

A script is read from its start to its end. Its tokens are words, operators, redirections and line ends. A word may hold
scripts of its own, for which the reader of tokens is given a reader of scripts.
-/

/-- What is wrong with a script, and on which line. -/
structure Mistake where
  line : Nat
  message : String
  deriving DecidableEq, Repr

inductive Token where
  | finished
  | newline
  | operator (text : String)
  /-- A redirection with the channel, if one is given, and the sign. -/
  | redirect (channel : Option Nat) (sign : String)
  | word (w : Word)

/-- A document that begins after the line on which it is announced. -/
structure Announced where
  id : Nat
  delimiter : List Char
  /-- Tabs at the start of its lines do not count. -/
  indented : Bool
  /-- Parameters stand for their values in it. -/
  expanded : Bool

/-- What is left of a script: the text with the number of its line, a token that was put back, the documents that are
announced, the last one first, and those that were read, with the number of the next one. -/
structure Source where
  text : List Char
  line : Nat
  ahead : Option Token
  announced : List Announced
  documents : List (Nat × Word)
  nextDocument : Nat

def Source.ofText (text : List Char) (line nextDocument : Nat) : Source := ⟨text, line, none, [], [], nextDocument⟩

abbrev Reading := StateT Source (Except Mistake)

namespace Reading

/-- Refuses the script. -/
def refuse {α : Type} (message : String) : Reading α := fun s => .error ⟨s.line, message⟩

/-- The text without a joined line at its start: a backslash at the end of a line joins it with the next one. -/
def joined (line : Nat) : List Char → List Char × Nat
  | '\\' :: '\n' :: rest => joined (line + 1) rest
  | text => (text, line)

/-- The text that is left. -/
def peek : Reading (List Char) := do
  let s ← get
  let (text, line) := joined s.line s.text
  set { s with text, line }
  return text

/-- Goes on after some characters of the text. -/
def take (count : Nat) : Reading (List Char) := do
  let s ← get
  let front := s.text.take count
  set { s with text := s.text.drop count, line := s.line + front.count '\n' }
  return front

/-- The characters up to one that is not accepted. -/
def takeWhile (accepts : Char → Bool) : Reading (List Char) := do take ((← peek).takeWhile accepts).length

end Reading

open Reading

/-- Where a word or a part of a word is read. -/
inductive Quoting where
  | plain
  | double
  /-- After the name of a parameter, perhaps within quotes. -/
  | braces (quoted : Bool)
  /-- In an expression, with so many open parentheses. -/
  | expression (depth : Nat)
  | document
  deriving DecidableEq

def Quoting.isQuoted : Quoting → Bool
  | .plain => false
  | .braces quoted => quoted
  | _ => true

/-- A character that ends a word outside quotes. -/
def isDelimiter (c : Char) : Bool := [' ', '\t', '\n', ';', '&', '|', '(', ')', '<', '>'].contains c

/-- Neighbouring texts of one kind become one. -/
def merged (pieces : List Piece) : List Piece :=
  pieces.foldr
    (fun piece more => match piece, more with
      | .text chars true, .text others true :: more => .text (chars ++ others) true :: more
      | .text chars false, .text others false :: more => .text (chars ++ others) false :: more
      | piece, more => piece :: more) []

/-- The text between backquotes, with the backslashes taken off that protect a sign in it, and the count of characters
up to its end. -/
def backquoted? (double : Bool) : List Char → Option (List Char × Nat)
  | [] => none
  | '`' :: _ => some ([], 1)
  | '\\' :: '\n' :: rest => (backquoted? double rest).map fun (text, count) => (text, count + 2)
  | '\\' :: c :: rest =>
    let front := if ['\\', '`', '$'].contains c || (double && c = '"') then [c] else ['\\', c]
    (backquoted? double rest).map fun (text, count) => (front ++ text, count + 2)
  | c :: rest => (backquoted? double rest).map fun (text, count) => (c :: text, count + 1)

/-- A sign that names a parameter of its own. -/
def isSpecial (c : Char) : Bool := ['@', '*', '#', '?', '-', '$', '!'].contains c

/-- The name of a parameter within braces. -/
def parameterName : Reading String := do
  match ← peek with
  | c :: _ =>
    if c.isDigit then return String.ofList (← takeWhile Char.isDigit)
    else if isNameChar c then return String.ofList (← takeWhile isNameChar)
    else if isSpecial c then return String.ofList (← take 1)
    else return ""
  | [] => return ""

/-- The rest of a parameter within braces, after its name. `word` reads a word that stands in its place, and `pattern` one
that is cut off. -/
def parameterChange (word pattern : Reading (List Piece)) : Reading (Option Change) := do
  let substitute : Char → Option Substitute := fun
    | '-' => some .default
    | '=' => some .assign
    | '?' => some .demand
    | '+' => some .alternative
    | _ => none
  match ← peek with
  | '\x7d' :: _ =>
    let _ ← take 1
    return some .none
  | ':' :: c :: _ =>
    let _ ← take 2
    let word ← word
    return (substitute c).map fun use => .substitute use true word
  | '#' :: '#' :: _ =>
    let _ ← take 2
    return some (.trimmed false true (← pattern))
  | '%' :: '%' :: _ =>
    let _ ← take 2
    return some (.trimmed true true (← pattern))
  | '#' :: _ =>
    let _ ← take 1
    return some (.trimmed false false (← pattern))
  | '%' :: _ =>
    let _ ← take 1
    return some (.trimmed true false (← pattern))
  | c :: _ =>
    let _ ← take 1
    let word ← word
    return (substitute c).map fun use => .substitute use false word
  | [] => refuse "Missing '\x7d'"

/-- A parameter within braces, after the opening one. -/
def bracedParameter (word pattern : Reading (List Piece)) (quoted : Bool) : Reading Piece := do
  let measured := match ← peek with
    | '#' :: c :: _ => isNameChar c || isSpecial c
    | _ => false
  if measured then
    let _ ← take 1
    let name ← parameterName
    match ← peek with
    | '\x7d' :: _ =>
      let _ ← take 1
      return .parameter name .length quoted
    | _ =>
      let _ ← word
      return .senseless
  else
    let name ← parameterName
    match ← parameterChange word pattern with
    | some change => return if name = "" then .senseless else .parameter name change quoted
    | none => return .senseless

/-- What a dollar sign begins, after it: `word` reads a part of a word, and `inner` a script up to its end or to a closing
parenthesis. -/
def dollar (inner : Bool → Reading Script) (word : Quoting → Reading (List Piece)) (quoted : Bool) : Reading Piece := do
  match ← peek with
  | '(' :: '(' :: _ =>
    let _ ← take 2
    return .number (← word (.expression 0)) quoted
  | '(' :: _ =>
    let _ ← take 1
    return .output (← inner true) quoted
  | '\x7b' :: _ =>
    let _ ← take 1
    bracedParameter (word (.braces quoted)) (word (.braces false)) quoted
  | c :: _ =>
    if c.isDigit || isSpecial c then return .parameter (String.ofList (← take 1)) .none quoted
    else if isNameChar c then return .parameter (String.ofList (← takeWhile isNameChar)) .none quoted
    else return .text ['$'] quoted
  | [] => return .text ['$'] quoted

/-- What backquotes hold, after the first one. -/
def backquote (inner : Bool → Reading Script) (quoted : Bool) : Reading Piece := do
  let s ← get
  match backquoted? quoted s.text with
  | none => refuse "EOF in backquote substitution"
  | some (text, count) =>
    let _ ← take count
    match (inner false).run (.ofText text s.line s.nextDocument) with
    | .error mistake => throw mistake
    | .ok (body, after) =>
      modify fun s => { s with documents := s.documents ++ after.documents, nextDocument := after.nextDocument }
      return .output body quoted

/-- The end of the script within a word. -/
def cutOff (mode : Quoting) (back : List Piece) : Reading (List Piece) :=
  match mode with
  | .plain => return merged back.reverse
  | .document => return merged back.reverse
  | .double => refuse "Unterminated quoted string"
  | .braces _ => refuse "Missing '\x7d'"
  | .expression _ => refuse "Missing '))'"

/-- A character after a backslash that it protects within quotes. -/
def isProtected (mode : Quoting) (c : Char) : Bool :=
  ['$', '\\', '`'].contains c || (c = '"' && mode ≠ .document) || (c = '\x7d' && mode = .braces true)

/-- The pieces are all parameters and nothing else. -/
def isAll : List Piece → Bool
  | [.parameter "@" .none true] => true
  | _ => false

/-- A word or a part of one, of which some pieces have been read, the last one first. -/
def pieces (inner : Bool → Reading Script) : Nat → Quoting → List Piece → Reading (List Piece)
  | 0, _, _ => refuse "Word too long"
  | fuel + 1, mode, back => do
    let quoted := mode.isQuoted
    let one := fun (c : Char) (quoted : Bool) => do
      let _ ← take 1
      pieces inner fuel mode (.text [c] quoted :: back)
    match ← peek with
    | [] => cutOff mode back
    | '\\' :: c :: _ =>
      if quoted && !isProtected mode c then one '\\' true
      else
        let _ ← take 2
        pieces inner fuel mode (.text [c] true :: back)
    | '\'' :: rest =>
      if quoted then one '\'' true
      else
        let _ ← take 1
        let body := rest.takeWhile (· ≠ '\'')
        if body.length = rest.length then refuse "Unterminated quoted string"
        else
          let _ ← take (body.length + 1)
          pieces inner fuel mode (.text body true :: back)
    | '"' :: _ =>
      match mode with
      | .document => one '"' true
      | .double =>
        let _ ← take 1
        return if isAll back then back else merged (.text [] true :: back).reverse
      | _ =>
        let _ ← take 1
        let body ← pieces inner fuel .double []
        pieces inner fuel mode (body.reverse ++ back)
    | '$' :: _ =>
      let _ ← take 1
      let piece ← dollar inner (fun mode => pieces inner fuel mode []) quoted
      pieces inner fuel mode (piece :: back)
    | '`' :: _ =>
      let _ ← take 1
      pieces inner fuel mode ((← backquote inner quoted) :: back)
    | c :: rest =>
      match mode with
      | .plain => if isDelimiter c then return merged back.reverse else one c false
      | .braces quoted =>
        if c = '\x7d' then
          let _ ← take 1
          return merged back.reverse
        else one c quoted
      | .expression depth =>
        if c = '(' then
          let _ ← take 1
          pieces inner fuel (.expression (depth + 1)) (.text ['('] true :: back)
        else if c = ')' && 0 < depth then
          let _ ← take 1
          pieces inner fuel (.expression (depth - 1)) (.text [')'] true :: back)
        else if c = ')' && rest.head? = some ')' then
          let _ ← take 2
          return merged back.reverse
        else one c true
      | _ => one c true

/-- The lines of a document up to its delimiter, backwards, after those read before, and what follows. -/
def documentLines (a : Announced) : Nat → List (List Char) → List Char → List (List Char) × List Char
  | 0, back, text => (back, text)
  | fuel + 1, back, text =>
    let line := text.takeWhile (· ≠ '\n')
    let rest := text.drop (line.length + 1)
    let ended := line.length = text.length
    let line := if a.indented then line.dropWhile (· == '\t') else line
    if line = a.delimiter then (back, rest)
    else if ended then (if line.isEmpty then back else line :: back, [])
    else documentLines a fuel ((line ++ ['\n']) :: back) rest

/-- Reads the documents that were announced on a line, after its end. -/
def readDocuments (inner : Bool → Reading Script) (size : Nat) : List Announced → Reading Unit
  | [] => return ()
  | a :: more => do
    let s ← get
    let (back, rest) := documentLines a size [] s.text
    let body := back.reverse.flatten
    let line := s.line + (s.text.take (s.text.length - rest.length)).count '\n'
    if a.expanded then
      match (pieces inner size .document []).run (.ofText body s.line s.nextDocument) with
      | .error mistake => throw mistake
      | .ok (word, after) =>
        set { s with text := rest, line, documents := s.documents ++ (a.id, word) :: after.documents, nextDocument := after.nextDocument }
    else set { s with text := rest, line, documents := s.documents ++ [(a.id, [Piece.text body true])] }
    readDocuments inner size more

/-- The sign of a redirection at the start of a text. -/
def sign? : List Char → Option String
  | '<' :: '<' :: '-' :: _ => some "<<-"
  | '<' :: '<' :: _ => some "<<"
  | '<' :: '&' :: _ => some "<&"
  | '<' :: '>' :: _ => some "<>"
  | '<' :: _ => some "<"
  | '>' :: '>' :: _ => some ">>"
  | '>' :: '&' :: _ => some ">&"
  | '>' :: '|' :: _ => some ">|"
  | '>' :: _ => some ">"
  | _ => none

/-- The operator at the start of a text. -/
def operator? : List Char → Option String
  | '&' :: '&' :: _ => some "&&"
  | '|' :: '|' :: _ => some "||"
  | ';' :: ';' :: _ => some ";;"
  | '&' :: _ => some "&"
  | '|' :: _ => some "|"
  | ';' :: _ => some ";"
  | '(' :: _ => some "("
  | ')' :: _ => some ")"
  | _ => none

/-- The channel that a word names in front of a redirection. -/
def channel? : Word → Option Nat
  | [.text [c] false] => if c.isDigit then some (c.toNat - 48) else none
  | _ => none

/-- Skips blanks and a comment. -/
def skipBlanks : Nat → Reading Unit
  | 0 => return ()
  | fuel + 1 => do
    match ← peek with
    | c :: _ =>
      if c = ' ' || c = '\t' then
        let _ ← take 1
        skipBlanks fuel
      else if c = '#' then
        let s ← get
        set { s with text := s.text.dropWhile (· ≠ '\n') }
      else return ()
    | [] => return ()

/-- The next token of the text. `size` is larger than the text is long. -/
def freshToken (inner : Bool → Reading Script) (size : Nat) : Reading Token := do
  skipBlanks size
  let text ← peek
  match text with
  | [] => return .finished
  | '\n' :: _ =>
    let _ ← take 1
    let s ← get
    set { s with announced := [] }
    readDocuments inner size s.announced.reverse
    return .newline
  | _ =>
    match operator? text with
    | some sign =>
      let _ ← take sign.length
      return .operator sign
    | none =>
      match sign? text with
      | some sign =>
        let _ ← take sign.length
        return .redirect none sign
      | none =>
        let word ← pieces inner size .plain []
        match channel? word, sign? (← get).text with
        | some channel, some sign =>
          let _ ← take sign.length
          return .redirect (some channel) sign
        | _, _ => return .word word

/-- The next token: the one that was put back, or else the next one of the text. -/
def token (inner : Bool → Reading Script) (size : Nat) : Reading Token := do
  let s ← get
  match s.ahead with
  | some t =>
    set { s with ahead := none }
    return t
  | none => freshToken inner size

/-- Puts a token back. -/
def putBack (t : Token) : Reading Unit := modify fun s => { s with ahead := some t }

/-- The words that mean something where a command begins. -/
def keywords : List String :=
  ["!", "case", "do", "done", "elif", "else", "esac", "fi", "for", "if", "in", "then", "until", "while", "\x7b", "\x7d"]

/-- The keyword that a token is. -/
def Token.keyword? : Token → Option String
  | .word w => (plain? w).bind fun chars =>
    let word := String.ofList chars
    if keywords.contains word then some word else none
  | _ => none

/-- The token in words. -/
def Token.spoken (t : Token) : String :=
  match t with
  | .finished => "end of file"
  | .newline => "newline"
  | .operator text => "\"" ++ text ++ "\""
  | .redirect .. => "redirection"
  | .word _ =>
    match t.keyword? with
    | some keyword => "\"" ++ keyword ++ "\""
    | none => "word"

/-- Refuses a token, where another one may have been wanted. -/
def unexpected {α : Type} (t : Token) (wanted : Option String) : Reading α :=
  refuse (t.spoken ++ " unexpected" ++ wanted.elim "" fun word => " (expecting " ++ word ++ ")")

end GatedRepair.Shell
