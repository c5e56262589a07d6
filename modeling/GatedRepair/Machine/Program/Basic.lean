import GatedRepair.Files.Disk
import GatedRepair.Number
import GatedRepair.Text.Lines

/-!
# What a program of the machine is
-/

/-!
## Names in complaints

A name that a program complains about is shown as one would write it for a shell, and a word that makes no sense stands
between quotes, with backslashes for what cannot be seen.
-/

namespace GatedRepair.Program

/-- The character can be seen. -/
def isVisible (c : Char) : Bool := ' ' ≤ c && c ≤ '~'

/-- A character that cannot be seen, after a backslash. -/
def invisible (c : Char) : List Char :=
  match c with
  | '\x07' => ['\\', 'a']
  | '\x08' => ['\\', 'b']
  | '\t' => ['\\', 't']
  | '\n' => ['\\', 'n']
  | '\x0b' => ['\\', 'v']
  | '\x0c' => ['\\', 'f']
  | '\r' => ['\\', 'r']
  | c => '\\' :: [c.toNat / 64, c.toNat / 8 % 8, c.toNat % 8].map fun n => Char.ofNat (48 + n)

/-- A word between quotes. -/
def quotedWord (word : String) : String :=
  String.ofList ('\'' :: (word.toList.flatMap fun c =>
    if c = '\'' || c = '\\' then ['\\', c] else if isVisible c then [c] else invisible c) ++ ['\''])

/-- A character that means something to a shell, at the start of a name or anywhere. -/
def isSpecial (first : Bool) (c : Char) : Bool :=
  " !\"$&()*;<=>[^`|?\\'".toList.contains c || (first && (c = '#' || c = '~'))

/-- A character that stays as it is between double quotes. -/
def isTame (c : Char) : Bool := c.isAlphanum || "%+,-./:]_ '".toList.contains c

/-- The rest of a name between single quotes. What cannot be seen stands between quotes of its own, in which `escaping`
says that the name is. -/
def quotedRest (escaping : Bool) : List Char → List Char
  | [] => ['\'']
  | c :: rest =>
    if isVisible c then
      let front := if escaping then ['\'', '\''] else []
      front ++ (if c = '\'' then "'\\''".toList else [c]) ++ quotedRest false rest
    else (if escaping then [] else "'$'".toList) ++ invisible c ++ quotedRest true rest

/-- A name as one would write it for a shell: between quotes. -/
def quotedName (name : String) : String :=
  let chars := name.toList
  if chars.contains '\'' && chars.all isTame then "\"" ++ name ++ "\"" else String.ofList ('\'' :: quotedRest false chars)

/-- A name as one would write it for a shell: between quotes if it has to be. -/
def plainName (name : String) : String :=
  let chars := name.toList
  let isPlain := match chars with
    | [] => false
    | [c] => isVisible c && !isSpecial true c && c ≠ '\x7b' && c ≠ '\x7d'
    | c :: rest => isVisible c && !isSpecial true c && rest.all fun c => isVisible c && !isSpecial false c
  if isPlain then name else quotedName name

end GatedRepair.Program

/-!
## Programs of the machine

A program is started with arguments, an input and a directory, and what it does is a value: what it writes, how it ends,
how long it waits and what it leaves on the disk. All texts are octet texts.
-/

namespace GatedRepair

open Files Text

/-- The two streams that a program writes. -/
inductive Stream where
  | out
  | err
  deriving DecidableEq, Repr

/-- How much is read of a file that never ends, unless it is known how much is wanted. -/
def endlessSize : Nat := 1048576

/-- How long a program runs that never ends, in microseconds. -/
def endlessTime : Nat := Nat.pow 10 15

/-- What a program is started with. The input is a file if one could go back in it; there may be a reason why it cannot be
read. -/
structure Start where
  arguments : List String
  input : String
  isFile : Bool
  directory : String
  environment : List (String × String)
  disk : Disk
  endless : Nat := endlessSize
  trouble : Option Failure := none

/-- What a program did: what it wrote, in this order, its status, how long it waited, in microseconds, what it left of its
input, and the disk. -/
structure Ran where
  written : List (Stream × String)
  status : Nat
  wait : Nat
  rest : String
  disk : Disk

abbrev Program := Start → Ran

namespace Start

/-- The program ended with a status and read nothing. -/
def ended (start : Start) (status : Nat) : Ran := ⟨[], status, 0, start.input, start.disk⟩

/-- The program wrote a text and ended well. -/
def wrote (start : Start) (out : String) : Ran := ⟨[(.out, out)], 0, 0, start.input, start.disk⟩

/-- The program wrote a complaint and ended with a status. -/
def complained (start : Start) (message : String) (status : Nat) : Ran :=
  ⟨[(.err, message)], status, 0, start.input, start.disk⟩

/-- A path as seen from the program's directory. -/
def path (start : Start) (name : String) : String := Path.within start.directory (ofOctets name)

end Start

/-- What is read from a file of the machine that is no file of the tree, and how much if it never ends. -/
def deviceContent? (endless : Nat) (input path : String) : Option String :=
  match path with
  | "/dev/null" => some ""
  | "/dev/stdin" => some input
  | "/dev/fd/0" => some input
  | "/dev/zero" => some (String.ofList (List.replicate endless '\x00'))
  | _ => none

/-- The content of a file that is named, or of the input for a hyphen. -/
def Start.content (start : Start) (name : String) : Except Failure String :=
  if name = "-" then start.trouble.elim (.ok start.input) .error
  else match deviceContent? start.endless start.input (start.path name) with
    | some content => .ok content
    | none => if name = "" then .error .notFound else (start.disk.tree.read (start.path name)).map octetsOfBytes

/-- The standard input was asked for among the operands of a program, and it is not open. -/
def Start.missesInput (start : Start) (operands : List String) : Bool :=
  start.trouble = some .notOpen && (operands.isEmpty || operands.contains "-")

namespace Ran

def wrote (r : Ran) (text : String) : Ran := { r with written := r.written ++ [(.out, text)] }

/-- The program complained and will end with a status. -/
def complained (r : Ran) (message : String) (status : Nat) : Ran :=
  { r with written := r.written ++ [(.err, message)], status }

/-- The same, with the complaints in front: what else is written waits until the end. -/
def buffered (r : Ran) : Ran :=
  { r with written := r.written.filter (·.1 = .err) ++ [(.out, String.join ((r.written.filter (·.1 = .out)).map (·.2)))] }

end Ran

/-- The contents of the files that are named, or of the input if none is, with what is to be said where one cannot be
read. -/
def Start.contents (start : Start) (names : List String) (complaint : String → Failure → String) :
    List (String × Except String String) :=
  (if names.isEmpty then ["-"] else names).map fun name => (name, (start.content name).mapError (complaint name))

/-- A program that writes something for each content, beginning with `state`. Where a content cannot be read it complains
and goes on. -/
def Start.eachContent {σ : Type} (start : Start) (names : List String) (complaint : String → Failure → String) (state : σ)
    (write : σ → String → String → σ × String) : σ × Ran :=
  (start.contents names complaint).foldl
    (fun (state, ran) (name, content) => match content with
      | .ok text =>
        let (state, out) := write state name text
        (state, ran.wrote out)
      | .error message => (state, ran.complained message 1))
    (state, { start.ended 0 with rest := if names.isEmpty || names.contains "-" then "" else start.input })

/-- The parts of a text that end in a character, each with its end, and what is left after the last one. -/
def endingIn (ending : Char) (text : String) : List String :=
  let (back, begun) := text.toList.foldl
    (fun ((back, begun) : List String × List Char) c =>
      if c = ending then (String.ofList (c :: begun).reverse :: back, []) else (back, c :: begun)) ([], [])
  ((if begun.isEmpty then back else String.ofList begun.reverse :: back)).reverse

/-- The lines of a text, each with the line end that it has. -/
def linesOfOctets (text : String) : List String := endingIn '\n' text

/-- A line without its line end. -/
def bare (line : String) : List Char :=
  match line.toList.reverse with
  | '\n' :: back => back.reverse
  | _ => line.toList

/-- Options and operands as given to a program. -/
structure Options where
  given : List (Char × String)
  operands : List String
  deriving Repr

namespace Options

/-- The options that a program knows: letters, letters that are followed by a value, and names of letters. -/
structure Known where
  letters : List Char
  valued : List Char
  names : List (String × Char)
  /-- The options end at the first operand. -/
  leading : Bool
  /-- Letters whose names may be followed by a value. -/
  optional : List Char := []

/-- What is wrong with an option, in words. -/
def unknownLetter (c : Char) : String := "invalid option -- '" ++ String.singleton c ++ "'"

def valueMissing (c : Char) : String := "option requires an argument -- '" ++ String.singleton c ++ "'"

/-- The options in a word of letters, after its hyphen: the options, and the letter that still needs a value. -/
def ofLetters (known : Known) : List Char → Except String (List (Char × String) × Option Char)
  | [] => .ok ([], none)
  | c :: more =>
    if known.valued.contains c then
      .ok (if more.isEmpty then ([], some c) else ([(c, String.ofList more)], none))
    else if known.letters.contains c then
      (ofLetters known more).map fun (options, pending) => ((c, "") :: options, pending)
    else .error (unknownLetter c)

/-- The option that a name or the beginning of one stands for, with its whole name. `word` is what was given. -/
def ofName (known : Known) (word name : String) : Except String (String × Char) :=
  match known.names.find? (·.1 = name) with
  | some found => .ok found
  | none =>
    match known.names.filter fun (full, _) => name.toList.isPrefixOf full.toList with
    | [] => .error ("unrecognized option '" ++ word ++ "'")
    | found :: others =>
      if others.all (·.2 = found.2) then .ok found
      else .error ("option '" ++ word ++ "' is ambiguous; possibilities:" ++
        String.join ((found :: others).map fun (full, _) => " '--" ++ full ++ "'"))

/-- Reads the words, with the options and operands before them, backwards. -/
def read (known : Known) (back : List (Char × String)) (operands : List String) : List String → Except String Options
  | [] => .ok ⟨back.reverse, operands.reverse⟩
  | "--" :: rest => .ok ⟨back.reverse, operands.reverse ++ rest⟩
  | word :: rest =>
    match word.toList with
    | '-' :: '-' :: name =>
      let bare := name.takeWhile (· ≠ '=')
      match ofName known word (String.ofList bare) with
      | .error e => .error e
      | .ok (full, c) =>
        if bare.length < name.length then
          if known.valued.contains c || known.optional.contains c then
            read known ((c, String.ofList (name.drop (bare.length + 1))) :: back) operands rest
          else .error ("option '--" ++ full ++ "' doesn't allow an argument")
        else if known.valued.contains c then
          match rest with
          | value :: rest => read known ((c, value) :: back) operands rest
          | [] => .error ("option '--" ++ full ++ "' requires an argument")
        else read known ((c, "") :: back) operands rest
    | '-' :: c :: letters =>
      match ofLetters known (c :: letters) with
      | .error e => .error e
      | .ok (found, none) => read known (found.reverse ++ back) operands rest
      | .ok (found, some c) =>
        match rest with
        | value :: rest => read known ((c, value) :: found.reverse ++ back) operands rest
        | [] => .error (valueMissing c)
    | _ => if known.leading then .ok ⟨back.reverse, operands.reverse ++ word :: rest⟩ else read known back (word :: operands) rest

def has (o : Options) (c : Char) : Bool := o.given.any (·.1 = c)

/-- The last value of an option. -/
def last? (o : Options) (c : Char) : Option String := (o.given.reverse.find? (·.1 = c)).map (·.2)

end Options

/-- A program whose options are read first. A wrong option is told with a hint at the help. -/
def withOptions (name : String) (known : Options.Known) (status : Nat) (hint : String) (run : Options → Program) : Program :=
  fun start =>
    match Options.read known [] [] start.arguments with
    | .error e => start.complained (name ++ ": " ++ e ++ "\n" ++ hint) status
    | .ok options => run options start

/-- The line that tells how to get help. -/
def hintFor (name : String) : String := "Try '" ++ name ++ " --help' for more information.\n"

/-- A complaint with a hint at the help. -/
def Start.misused (start : Start) (name message : String) (status : Nat) : Ran :=
  start.complained (name ++ ": " ++ message ++ "\n" ++ hintFor name) status

end GatedRepair

/-!
## Escapes

Signs that are written with a backslash. A shell and a program that writes its arguments read some of them differently.
-/

namespace GatedRepair

/-- Who reads the escapes. -/
inductive EscapeStyle where
  /-- The format of a text with values. -/
  | format
  /-- A value, or words that are written by the shell. -/
  | value
  /-- Words that are written by a program. -/
  | words
  /-- The format of a text with values that a program writes, and a value of it. -/
  | fullFormat
  | fullValue
  deriving DecidableEq, Repr

namespace EscapeStyle

def isOctal (c : Char) : Bool := '0' ≤ c && c ≤ '7'

/-- The byte that digits to a base spell. -/
def byteOf (base : Nat) (digits : List Char) : Char :=
  Char.ofNat (digits.foldl (fun n c => n * base + (Number.hexDigit? c).getD 0) 0 % 256)

/-- The character that a letter after a backslash stands for. -/
def simple? (c : Char) : Option Char :=
  match c with
  | 'a' => some '\x07'
  | 'b' => some '\x08'
  | 't' => some '\t'
  | 'n' => some '\n'
  | 'v' => some '\x0b'
  | 'f' => some '\x0c'
  | 'r' => some '\r'
  | '\\' => some '\\'
  | 'e' => some '\x1b'
  | _ => none

/-- The style reads hexadecimal digits, too. -/
def readsHex (style : EscapeStyle) : Bool := style = .words || style = .fullFormat || style = .fullValue

/-- The style has an escape that ends all writing. -/
def canEnd (style : EscapeStyle) : Bool := style ≠ .format

/-- A zero may stand in front of three octal digits. -/
def zeroLeads (style : EscapeStyle) : Bool := style ≠ .format && style ≠ .fullFormat

/-- An escape of a character by its number, with so many digits. Only letters among the digits change. -/
def numbered (letter : Char) (size : Nat) (rest : List Char) : List Char × List Char :=
  let digits := (rest.take size).takeWhile fun c => (Number.hexDigit? c).isSome
  ('\\' :: letter :: digits.map Char.toUpper, rest.drop digits.length)

/-- What an escape stands for and what follows it; nothing when it ends all writing. -/
def escape (style : EscapeStyle) (text : List Char) : Option (List Char × List Char) :=
  let octal := fun (digits rest : List Char) => some ([byteOf 8 digits], rest.drop digits.length)
  match text with
  | [] => some (['\\'], [])
  | c :: rest =>
    if c = 'c' && style.canEnd then none
    else if c = '0' && style.zeroLeads then octal ((rest.take 3).takeWhile isOctal) rest
    else if isOctal c then octal ((text.take 3).takeWhile isOctal) text
    else if c = 'x' && style.readsHex && ((rest.head?.bind Number.hexDigit?).isSome) then
      let digits := (rest.take 2).takeWhile fun c => (Number.hexDigit? c).isSome
      some ([byteOf 16 digits], rest.drop digits.length)
    else if style = .fullFormat || style = .fullValue then
      if c = '"' then some ([c], rest)
      else if c = 'u' then some (numbered 'u' 4 rest)
      else if c = 'U' then some (numbered 'U' 8 rest)
      else some (((simple? c).map ([·])).getD ['\\', c], rest)
    else match simple? c with
      | some sign => some ([sign], rest)
      | none => some (['\\', c], rest)

/-- A text with its escapes read, after what comes before it, backwards, and whether all writing ends with it. -/
def unescape (style : EscapeStyle) : Nat → List Char → List Char → List Char × Bool
  | 0, back, _ => (back.reverse, false)
  | fuel + 1, back, text =>
    match text with
    | [] => (back.reverse, false)
    | '\\' :: rest =>
      match style.escape rest with
      | none => (back.reverse, true)
      | some (signs, rest) => unescape style fuel (signs.reverse ++ back) rest
    | c :: rest => unescape style fuel (c :: back) rest

/-- A text with its escapes read, and whether all writing ends with it. -/
def text (style : EscapeStyle) (chars : List Char) : List Char × Bool := style.unescape (chars.length + 1) [] chars

end EscapeStyle

/-- Writes words with blanks between them, as the shell does. -/
def shellEcho (words : List String) : String :=
  let (newline, words) := match words with
    | "-n" :: words => (false, words)
    | words => (true, words)
  let (chars, ended) := EscapeStyle.value.text (" ".intercalate words).toList
  String.ofList (if newline && !ended then chars ++ ['\n'] else chars)

namespace Program

/-- A word that is made of the options of the program that writes its arguments. -/
def isEchoOption (word : String) : Bool :=
  match word.toList with
  | '-' :: c :: more => (c :: more).all (['n', 'e', 'E'].contains ·)
  | _ => false

/-- Writes the arguments as the leading options say. -/
def echo : Program := fun start =>
  let letters := (start.arguments.takeWhile isEchoOption).flatMap String.toList
  let words := " ".intercalate (start.arguments.dropWhile isEchoOption)
  let newline := if letters.contains 'n' then "" else "\n"
  if (letters.filter fun c => c = 'e' || c = 'E').getLast? = some 'e' then
    let (chars, ended) := EscapeStyle.words.text words.toList
    start.wrote (String.ofList chars ++ if ended then "" else newline)
  else start.wrote (words ++ newline)

end Program

end GatedRepair
