import GatedRepair.Machine.LinePattern
import GatedRepair.Number

/-!
# Scripts that edit lines

A script is run for each line of a text. Its commands change the line, which is then written. A command may be meant for
some of the lines only.
-/

namespace GatedRepair.LineEdit

/-- What is looked for in a line. -/
structure Needle where
  pattern : LinePattern
  anyCase : Bool

/-- A place in the text. Where no needle is given, the one that was looked for last is meant. -/
inductive Address where
  | line (number : Nat)
  | last
  | needle (n : Option Needle)
  /-- Every so many lines from a line on. -/
  | every (first step : Nat)

/-- Where a range of lines ends: at a place, so many lines further, or at a multiple of a number. -/
inductive RangeEnd where
  | address (a : Address)
  | further (count : Nat)
  | multiple (number : Nat)

/-- The lines that a command is meant for: those at a place, or those from there to an end. -/
structure Scope where
  first : Address
  stop : Option RangeEnd

/-- How the letters of a replacement are written, either all that follow or the next one. -/
inductive Lettering where
  | asIs
  | upper
  | lower
  | nextUpper
  | nextLower
  deriving DecidableEq

/-- A part of a replacement. Group 0 is all that was found. -/
inductive Part where
  | text (chars : List Char)
  | group (n : Nat)
  | lettering (l : Lettering)

/-- A replacement of what is found: from which find on, whether there is no end to it, and what is done if there was one. -/
structure Substitution where
  needle : Option Needle
  replacement : List Part
  first : Nat
  all : Bool
  shown : Bool
  file : Option String

/-- When a script goes on at another command. -/
inductive Jump where
  | always
  | ifReplaced
  | unlessReplaced

inductive Action where
  /-- The commands up to the one with a number are passed over. -/
  | skip (stop : Nat)
  /-- A place to go on at. -/
  | label
  /-- The script goes on at a label, or at its end. -/
  | jump (when : Jump) (label : Option String)
  | substitute (s : Substitution)
  | translate (pairs : List (Char × Char))
  | delete
  | deleteFirst
  | print
  | printFirst
  | next
  | appendNext
  | hold
  | appendHold
  | fetch
  | appendFetch
  | exchange
  | clear
  | number
  | spell (width : Option Nat)
  | fileName
  | append (text : String)
  | insert (text : String)
  | change (text : String)
  | read (file : String)
  | readLine (file : String)
  | write (file : String)
  | writeFirst (file : String)
  | quit (status : Nat) (shows : Bool)

structure Command where
  scope : Option Scope
  /-- It is meant for the other lines. -/
  negated : Bool
  action : Action

/-- A script with its labels. -/
structure Script where
  commands : Array Command
  labels : List (String × Nat)
  /-- Lines are written only where a command says so. -/
  quiet : Bool

/-!
## Reading editing scripts

A script is read character by character. What is wrong with it is told with the number of characters that were read.
-/

open Number

/-- What is left of a script, how many characters were read of it, whether patterns are written in the extended way, and
what has been read: the commands, the labels, and where blocks were begun that are still open. -/
structure Source where
  rest : List Char
  count : Nat
  style : LinePattern.Style
  commands : Array Command
  labels : List (String × Nat)
  blocks : List Nat

abbrev Reading := StateT Source (Except String)

namespace Reading

/-- The script is refused, at the character that was read last. -/
def refuse {α : Type} (message : String) : Reading α := fun s =>
  .error ("-e expression #1, char " ++ s.count.repr ++ ": " ++ message)

/-- The next character, if there is one. -/
def character : Reading (Option Char) := do
  let s ← get
  match s.rest with
  | [] => return none
  | c :: rest =>
    set { s with rest, count := s.count + 1 }
    return some c

/-- The next character is put back. -/
def putBack : Option Char → Reading Unit
  | none => return ()
  | some c => modify fun s => { s with rest := c :: s.rest, count := s.count - 1 }

/-- The characters up to one that is not accepted. -/
def takeWhile (accepts : Char → Bool) : Reading (List Char) := do
  let s ← get
  let front := s.rest.takeWhile accepts
  set { s with rest := s.rest.drop front.length, count := s.count + front.length }
  return front

def isBlank (c : Char) : Bool := c = ' ' || c = '\t'

def isSpace (c : Char) : Bool := c = ' ' || ('\t' ≤ c && c ≤ '\r')

/-- The next character after blanks. -/
def afterBlanks : Reading (Option Char) := do
  let _ ← takeWhile isBlank
  character

/-- The number that begins with a digit, or with none. -/
def integer (first : Option Char) : Reading Nat := do
  match first with
  | some c =>
    if c.isDigit then return decimalValue (c :: (← takeWhile Char.isDigit))
    else
      putBack (some c)
      return 0
  | none => return 0
where
  decimalValue (digits : List Char) : Nat := digits.foldl (fun n c => 10 * n + (c.toNat - 48)) 0

/-- A command ends here. -/
def commandEnd : Reading Unit := do
  match ← afterBlanks with
  | none => return ()
  | some '\n' => return ()
  | some ';' => return ()
  | some c => if c = '\x7d' || c = '#' then putBack (some c) else refuse "extra characters after command"

end Reading

open Reading

/-- A set in brackets after the opening one, up to its end, backwards after what was read before. `state` tells the names of
classes: a bracket was opened in the set, a name was begun with a sign, and the sign stands again. -/
def setText (sign : Option Char) : Nat → Nat → List Char → List Char → Option (List Char × List Char)
  | 0, _, _, _ => none
  | fuel + 1, state, back, text =>
    match text with
    | [] => none
    | '\n' :: _ => none
    | c :: rest =>
      if c = '.' || c = ':' || c = '=' then
        if state = 1 then setText (some c) fuel 2 (c :: back) rest
        else if state = 2 && sign = some c then setText sign fuel 3 (c :: back) rest
        else setText sign fuel (state / 2 * 2) (c :: back) rest
      else if c = '[' then setText sign fuel (if state = 0 then 1 else state) (c :: back) rest
      else if c = ']' then
        if state ≤ 1 then some (c :: back, rest)
        else setText sign fuel (if state = 3 then 0 else state / 2 * 2) (c :: back) rest
      else setText sign fuel (state / 2 * 2) (c :: back) rest

/-- The text up to a delimiter, backwards after what was read before, and what follows it. A backslash protects the
delimiter. In a pattern it makes a line end too, and sets hold what they hold. -/
def delimited (delimiter : Char) (isPattern : Bool) : Nat → List Char → List Char → Option (List Char × List Char)
  | 0, _, _ => none
  | fuel + 1, back, text =>
    match text with
    | [] => none
    | '\n' :: _ => none
    | c :: rest =>
      if c = delimiter then some (back.reverse, rest)
      else if c = '\\' then
        match rest with
        | [] => none
        | 'n' :: rest =>
          if isPattern && delimiter ≠ 'n' then delimited delimiter isPattern fuel ('\n' :: back) rest
          else delimited delimiter isPattern fuel (if delimiter = 'n' then 'n' :: back else 'n' :: '\\' :: back) rest
        | d :: rest =>
          if d = '\n' || d = delimiter && (isPattern || d ≠ '&') then delimited delimiter isPattern fuel (d :: back) rest
          else delimited delimiter isPattern fuel (d :: '\\' :: back) rest
      else if c = '[' && isPattern then
        let (back, rest) := match rest with
          | '^' :: ']' :: rest => (']' :: '^' :: '[' :: back, rest)
          | '^' :: rest => ('^' :: '[' :: back, rest)
          | ']' :: rest => (']' :: '[' :: back, rest)
          | rest => ('[' :: back, rest)
        match setText none (rest.length + 1) 0 back rest with
        | some (back, rest) => delimited delimiter isPattern fuel back rest
        | none => none
      else delimited delimiter isPattern fuel (c :: back) rest

/-- The text up to a delimiter, or the complaint that there is none. -/
def upTo (delimiter : Option Char) (isPattern : Bool) (complaint : String) : Reading (List Char) := do
  let s ← get
  let missing := do
    let lineLength := (s.rest.takeWhile (· ≠ '\n')).length
    set { s with rest := s.rest.drop lineLength, count := s.count + lineLength }
    refuse complaint
  match delimiter with
  | none => missing
  | some delimiter =>
    match if delimiter = '\n' || delimiter = '\\' then none else delimited delimiter isPattern (s.rest.length + 1) [] s.rest with
    | none => missing
    | some (text, rest) =>
      set { s with rest, count := s.count + (s.rest.length - rest.length) }
      return text

/-- The character whose number is spelt in a base, after its sign, and what follows. -/
def numbered (base most : Nat) (text : List Char) : Option (Char × List Char) :=
  let isDigit := fun (c : Char) => (digit? c).any (· < base)
  let digits := (text.take most).takeWhile isDigit
  if digits.isEmpty then none
  else some (Char.ofNat (digits.foldl (fun n c => n * base + (digit? c).getD 0) 0 % 256), text.drop digits.length)

/-- A character that is written with a backslash and other signs, after the backslash, and what follows. -/
def spelt? : List Char → Option (Char × List Char)
  | 'a' :: rest => some ('\x07', rest)
  | 'f' :: rest => some ('\x0c', rest)
  | 'n' :: rest => some ('\n', rest)
  | 'r' :: rest => some ('\r', rest)
  | 't' :: rest => some ('\t', rest)
  | 'v' :: rest => some ('\x0b', rest)
  | 'c' :: c :: rest => some (Char.ofNat (Nat.xor c.toUpper.toNat 64), rest)
  | 'd' :: rest => numbered 10 3 rest
  | 'o' :: rest => numbered 8 3 rest
  | 'x' :: rest => numbered 16 2 rest
  | _ => none

/-- A text with the characters that are spelt in it. In a pattern one that would mean something keeps a backslash. -/
def withSpelt (isPattern : Bool) : Nat → List Char → List Char
  | 0, text => text
  | _, [] => []
  | fuel + 1, '\\' :: rest =>
    match spelt? rest with
    | some (c, rest) =>
      let kept := isPattern && ['$', '*', '.', '[', '\\', ']', '^', '/', '+', '?', '(', ')', '|', '\x7b', '\x7d'].contains c
      (if kept then ['\\', c] else [c]) ++ withSpelt isPattern fuel rest
    | none => match rest with
      | c :: rest => '\\' :: c :: withSpelt isPattern fuel rest
      | [] => ['\\']
  | fuel + 1, c :: rest => c :: withSpelt isPattern fuel rest

/-- What a pattern is looking for. An empty one means the last one, and cannot be told to take either case. -/
def needle (text : List Char) (anyCase : Bool) : Reading (Option Needle × Nat) := do
  if text.isEmpty then
    if anyCase then refuse "cannot specify modifiers on empty regexp" else return (none, 9)
  else
    let style := (← get).style
    match LinePattern.parseKeeping style (withSpelt true text.length text) with
    | .error message => refuse message
    | .ok (pattern, notes) =>
      if !notes.remarks.isEmpty then refuse "Invalid preceding regular expression"
      else return (some ⟨pattern, anyCase⟩, notes.begun)

/-- Whether either case was asked for after the pattern of an address. -/
def needleOptions : Nat → Bool → Reading Bool
  | 0, anyCase => return anyCase
  | fuel + 1, anyCase => do
    match ← afterBlanks with
    | some 'I' => needleOptions fuel true
    | some 'M' => needleOptions fuel anyCase
    | c =>
      putBack c
      return anyCase

/-- The place that begins with a character, if there is one. -/
def address? (first : Option Char) : Reading (Option Address) := do
  let pattern := fun (delimiter : Option Char) => do
    let text ← upTo delimiter true "unterminated address regex"
    let anyCase ← needleOptions text.length.succ false
    return some (.needle (← needle text anyCase).1)
  match first with
  | some '/' => pattern first
  | some '\\' => pattern (← character)
  | some '$' => return some .last
  | some c =>
    if c.isDigit then
      let n ← integer first
      match ← afterBlanks with
      | some '~' =>
        let step ← integer (← afterBlanks)
        return some (if step = 0 then .line n else .every n step)
      | c =>
        putBack c
        return some (.line n)
    else return none
  | none => return none

/-- The lines that a command is meant for, and the character after that. -/
def scope : Reading (Option Scope × Option Char) := do
  let c ← character
  match ← address? c with
  | none => return (none, c)
  | some first =>
    let refuseZero := fun (stop : Option RangeEnd) => do
      let fits := match stop with
        | some (.address (.needle _)) => true
        | _ => false
      match first with
      | .line 0 => if !fits then refuse "invalid usage of line address 0"
      | _ => return ()
    match ← afterBlanks with
    | some ',' =>
      let c ← afterBlanks
      let stop ← match c with
        | some '+' => do pure (RangeEnd.further (← integer (← afterBlanks)))
        | some '~' => do pure (RangeEnd.multiple (← integer (← afterBlanks)))
        | c => match ← address? c with
          | some a => pure (RangeEnd.address a)
          | none => refuse "unexpected `,'"
      let c ← afterBlanks
      refuseZero (some stop)
      return (some ⟨first, some stop⟩, c)
    | c =>
      refuseZero none
      return (some ⟨first, none⟩, c)

/-- The parts of a replacement. -/
def replacement : Nat → List Char → List Char → List Part
  | 0, _, _ => []
  | fuel + 1, back, text =>
    let flush := if back.isEmpty then [] else [Part.text back.reverse]
    match text with
    | [] => flush
    | '&' :: rest => flush ++ .group 0 :: replacement fuel [] rest
    | '\\' :: c :: rest =>
      if c.isDigit then flush ++ .group (c.toNat - 48) :: replacement fuel [] rest
      else
        let lettering := fun (l : Lettering) => flush ++ .lettering l :: replacement fuel [] rest
        match c with
        | 'L' => lettering .lower
        | 'U' => lettering .upper
        | 'E' => lettering .asIs
        | 'l' => lettering .nextLower
        | 'u' => lettering .nextUpper
        | c => match spelt? (c :: rest) with
          | some (c, rest) => replacement fuel (c :: back) rest
          | none => replacement fuel (c :: back) rest
    | c :: rest => replacement fuel (c :: back) rest

/-- The name of a file, up to the end of the line. -/
def fileName : Reading String := do
  let _ ← takeWhile isBlank
  let name ← takeWhile (· ≠ '\n')
  if name.isEmpty then refuse "missing filename in r/R/w/W commands" else return String.ofList name

/-- The options of a replacement, after those that were given, and whether either case is looked for. -/
def substitutionOptions : Nat → Substitution → Bool → Reading (Substitution × Bool)
  | 0, s, anyCase => return (s, anyCase)
  | fuel + 1, s, anyCase => do
    let many := fun (letter : String) => refuse ("multiple " ++ letter ++ " options to `s' command")
    match ← character with
    | none => return (s, anyCase)
    | some c =>
      match c with
      | 'i' => substitutionOptions fuel s true
      | 'I' => substitutionOptions fuel s true
      | 'm' => substitutionOptions fuel s anyCase
      | 'M' => substitutionOptions fuel s anyCase
      | 'p' => if s.shown then many "`p'" else substitutionOptions fuel { s with shown := true } anyCase
      | 'g' => if s.all then many "`g'" else substitutionOptions fuel { s with all := true } anyCase
      | 'w' => do return ({ s with file := some (← fileName) }, anyCase)
      | '\n' => return (s, anyCase)
      | ';' => return (s, anyCase)
      | c =>
        if c = '\x7d' || c = '#' then
          putBack (some c)
          return (s, anyCase)
        else if isBlank c then substitutionOptions fuel s anyCase
        else if c.isDigit then
          let n ← integer (some c)
          if n = 0 then refuse "number option to `s' command may not be zero"
          else if s.first ≠ 0 then many "number" else substitutionOptions fuel { s with first := n } anyCase
        else refuse "unknown option to `s'"

/-- A replacement, after its letter. -/
def substitution : Reading Action := do
  let delimiter ← character
  let wanted ← upTo delimiter true "unterminated `s' command"
  let text ← upTo delimiter false "unterminated `s' command"
  let parts := replacement (text.length + 1) [] text
  let (s, anyCase) ← substitutionOptions (text.length + (← get).rest.length + 2) ⟨none, parts, 0, false, false, none⟩ false
  let (found, groups) ← needle wanted anyCase
  let missing := parts.findSome? fun
    | .group n => if groups < n then some n else none
    | _ => none
  match missing with
  | some n => refuse ("invalid reference \\" ++ n.repr ++ " on `s' command's RHS")
  | none => return .substitute { s with needle := found }

/-- The characters of a list of them, in which a backslash protects a backslash. -/
def listed : Nat → List Char → List Char
  | 0, _ => []
  | fuel + 1, '\\' :: '\\' :: rest => '\\' :: listed fuel rest
  | fuel + 1, '\\' :: rest => match spelt? rest with
    | some (c, rest) => c :: listed fuel rest
    | none => '\\' :: listed fuel rest
  | fuel + 1, c :: rest => c :: listed fuel rest
  | _, [] => []

/-- A list of characters with those that stand for them, after its letter. -/
def translation : Reading Action := do
  let delimiter ← character
  let old ← upTo delimiter false "unterminated `y' command"
  let new ← upTo delimiter false "unterminated `y' command"
  let old := listed (old.length + 1) old
  let new := listed (new.length + 1) new
  if old.length ≠ new.length then refuse "strings for `y' command are different lengths"
  else
    commandEnd
    return .translate (old.zip new)

/-- The lines of a text for the output, up to an end of line that no backslash protects. -/
def textLines : Nat → List Char → List Char → List Char × List Char
  | 0, back, text => (back.reverse, text)
  | _, back, [] => (back.reverse, [])
  | _, back, '\n' :: rest => (back.reverse, rest)
  | fuel + 1, back, '\\' :: rest => match spelt? rest with
    | some (c, rest) => textLines fuel (c :: back) rest
    | none => match rest with
      | c :: rest => textLines fuel (c :: back) rest
      | [] => (back.reverse, [])
  | fuel + 1, back, c :: rest => textLines fuel (c :: back) rest

/-- A text for the output, after the letter of its command. -/
def outputText : Reading String := do
  let missing := refuse "expected \\ after `a', `c' or `i'"
  match ← afterBlanks with
  | none => missing
  | some '\\' =>
    let _ ← takeWhile isBlank
    match ← character with
    | some '\n' => pure ()
    | c => putBack c
  | some c => putBack (some c)
  let s ← get
  let (text, rest) := textLines (s.rest.length + 1) [] s.rest
  set { s with rest, count := s.count + (s.rest.length - rest.length) }
  return String.ofList text ++ "\n"

/-- A label, which may be empty. -/
def label : Reading String := do
  let _ ← takeWhile isBlank
  return String.ofList (← takeWhile fun c => !isSpace c && c ≠ ';' && c ≠ '\x7d')

/-- A command that is one letter. -/
def letter? (c : Char) : Option Action :=
  match c with
  | 'd' => some .delete
  | 'D' => some .deleteFirst
  | 'p' => some .print
  | 'P' => some .printFirst
  | 'n' => some .next
  | 'N' => some .appendNext
  | 'h' => some .hold
  | 'H' => some .appendHold
  | 'g' => some .fetch
  | 'G' => some .appendFetch
  | 'x' => some .exchange
  | 'z' => some .clear
  | '=' => some .number
  | 'F' => some .fileName
  | _ => none

/-- The action that begins with a character. `single` says that its lines are no range. -/
def action (single : Bool) (c : Char) : Reading Action := do
  let jump := fun (when : Jump) => do
    let name ← label
    return .jump when (if name = "" then none else some name)
  let number := do
    let c ← afterBlanks
    match c with
    | some d =>
      if d.isDigit then return some (← integer c)
      else
        putBack c
        return none
    | none => return none
  let quit := fun (shows : Bool) => do
    if !single then refuse "command only uses one address"
    let n ← number
    commandEnd
    return .quit (n.getD 0) shows
  match c with
  | 's' => substitution
  | 'y' => translation
  | 'a' => do return .append (← outputText)
  | 'i' => do return .insert (← outputText)
  | 'c' => do return .change (← outputText)
  | 'b' => jump .always
  | 't' => jump .ifReplaced
  | 'T' => jump .unlessReplaced
  | 'r' => do return .read (← fileName)
  | 'R' => do return .readLine (← fileName)
  | 'w' => do return .write (← fileName)
  | 'W' => do return .writeFirst (← fileName)
  | 'q' => quit true
  | 'Q' => quit false
  | 'l' => do
    let n ← number
    commandEnd
    return .spell n
  | 'v' => do
    let _ ← label
    return .label
  | c => match letter? c with
    | some found =>
      commandEnd
      return found
    | none => refuse ("unknown command: `" ++ String.singleton c ++ "'")

/-- Adds a command. -/
def addCommand (scope : Option Scope) (negated : Bool) (action : Action) : Reading Unit :=
  modify fun s => { s with commands := s.commands.push ⟨scope, negated, action⟩ }

/-- One command. -/
def command : Reading Unit := do
  let (lines, c) ← scope
  let (negated, c) ← match c with
    | some '!' => do
      let c ← afterBlanks
      if c = some '!' then refuse "multiple `!'s" else pure (true, c)
    | c => pure (false, c)
  let size := (← get).commands.size
  match c with
  | none => refuse "missing command"
  | some '#' =>
    if lines.isSome then refuse "comments don't accept any addresses"
    let _ ← takeWhile (· ≠ '\n')
  | some ':' =>
    if lines.isSome then refuse ": doesn't want any addresses"
    let name ← label
    if name = "" then refuse "\":\" lacks a label"
    modify fun s => { s with labels := s.labels ++ [(name, size)] }
    addCommand none false .label
  | some '\x7b' =>
    modify fun s => { s with blocks := size :: s.blocks }
    addCommand lines (!negated) (.skip size)
  | some '\x7d' =>
    match (← get).blocks with
    | [] => refuse "unexpected `\x7d'"
    | block :: blocks =>
      if lines.isSome then refuse "\x7d doesn't want any addresses"
      commandEnd
      modify fun s => { s with
        blocks
        commands := s.commands.modify block fun c => { c with action := .skip s.commands.size } }
  | some c =>
    let single := !lines.any (·.stop.isSome)
    addCommand lines negated (← action single c)

/-- The commands of a script. -/
def allCommands : Nat → Reading Unit
  | 0 => return ()
  | fuel + 1 => do
    let _ ← takeWhile fun c => isSpace c || c = ';'
    if (← get).rest.isEmpty then
      match (← get).blocks with
      | [] => return ()
      | _ =>
        modify fun s => { s with count := 0 }
        refuse "unmatched `\x7b'"
    else
      command
      allCommands fuel

/-- The script that a text spells. Its first line can ask for quiet. -/
def Script.parse (style : LinePattern.Style) (quiet : Bool) (text : List Char) : Except String Script := do
  let source : Source := ⟨text, 0, style, #[], [], []⟩
  let ((), s) ← (allCommands (text.length + 1)).run source
  let asksQuiet := match text with
    | ['#', 'n'] => true
    | '#' :: 'n' :: '\n' :: _ => true
    | _ => false
  let missing := s.commands.toList.findSome? fun c => match c.action with
    | .jump _ (some name) => if (s.labels.lookup name).isSome then none else some name
    | _ => none
  match missing with
  | some name => .error ("can't find label for jump to `" ++ name ++ "'")
  | none => return ⟨s.commands, s.labels, quiet || asksQuiet⟩

end GatedRepair.LineEdit
