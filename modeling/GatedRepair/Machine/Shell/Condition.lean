import GatedRepair.Machine.Program.Place
import GatedRepair.Machine.Shell.Arithmetic

/-!
# Conditions in scripts

A condition is a list of words: tests of files, texts and numbers, joined by signs. What a word is depends on the words
after it.
-/

namespace GatedRepair.Shell

open Files Text

/-- What a word of a condition is. -/
inductive TestWord where
  | finished
  | operand
  | unary (test : Char)
  | binary (sign : String)
  | conjunction
  | disjunction
  | negation
  | opening
  | closing
  deriving DecidableEq, Repr

namespace TestWord

/-- What a word is that does not stand for itself. -/
def sign? (word : String) : Option TestWord :=
  match word with
  | "!" => some .negation
  | "(" => some .opening
  | ")" => some .closing
  | "-a" => some .conjunction
  | "-o" => some .disjunction
  | word =>
    if ["=", "!=", "<", ">", "-eq", "-ne", "-ge", "-gt", "-le", "-lt", "-nt", "-ot", "-ef"].contains word then
      some (.binary word)
    else match word.toList with
      | ['-', c] => if "rwxefdcbpugksthzLOGSn".toList.contains c then some (.unary c) else none
      | _ => none

def isBinary (word : String) : Bool :=
  match sign? word with
  | some (.binary _) => true
  | _ => false

/-- What the first of some words is. A test of one operand that nothing is left for is a text. -/
def ofWords (words : List String) : TestWord :=
  match words with
  | [] => .finished
  | word :: rest =>
    match sign? word with
    | some (.unary c) =>
      match rest with
      | [] => .operand
      | [_] => .unary c
      | next :: _ => if isBinary next then .operand else .unary c
    | some .opening => if rest.isEmpty then .operand else .opening
    | some found => found
    | none => .operand

end TestWord

/-- What conditions are about: the files as they are seen from a directory. -/
structure TestScene where
  tree : Tree
  directory : String

namespace TestScene

/-- What a name leads to. -/
def entry? (s : TestScene) (name : String) : Option Entry :=
  if name = "" then none
  else ((s.tree.find? (Path.within s.directory (ofOctets name))).toOption.map (·.2))

/-- The test of a file holds. -/
def holds (s : TestScene) (test : Char) (name : String) : Bool :=
  let isDevice := (deviceContent? 0 "" (Path.within s.directory (ofOctets name))).isSome
  match test with
  | 'h' => isLink
  | 'L' => isLink
  | 'f' => match s.entry? name with
    | some (.file ..) => true
    | _ => false
  | 'd' => s.entry? name = some .directory
  | 's' => match s.entry? name with
    | some (.file content _) => content.size ≠ 0
    | some .directory => true
    | _ => false
  | 'x' => match s.entry? name with
    | some .directory => true
    | some (.file ..) => name.startsWith "/bin/" || name.startsWith "/usr/bin/"
    | _ => false
  | 'c' => isDevice
  | _ => if ['e', 'r', 'w', 'O', 'G'].contains test then isDevice || (s.entry? name).isSome else false
where
  isLink : Bool := match s.tree.locate false (Path.within s.directory (ofOctets name)) with
    | .ok (.found _ (.link _)) => name ≠ ""
    | _ => false

/-- The number that a word spells. -/
def number (word : String) : Except String Int :=
  let chars := word.toList.dropWhile Expression.isSpace
  let (negated, digits) := match chars with
    | '-' :: rest => (true, rest)
    | '+' :: rest => (false, rest)
    | rest => (false, rest)
  let body := digits.takeWhile Char.isDigit
  if body.isEmpty || !(digits.drop body.length).all Expression.isSpace then .error ("Illegal number: " ++ word)
  else
    let n : Int := body.foldl (fun (n : Int) c => 10 * n + (c.toNat - 48 : Nat)) 0
    if Expression.largest < n then .error ("Illegal number: " ++ word) else .ok (if negated then -n else n)

/-- The test of two operands holds. -/
def compares (s : TestScene) (sign first second : String) : Except String Bool :=
  let numbers := fun (holds : Int → Int → Bool) => do return holds (← number first) (← number second)
  match sign with
  | "=" => .ok (first = second)
  | "!=" => .ok (first ≠ second)
  | "<" => .ok (first < second)
  | ">" => .ok (second < first)
  | "-eq" => numbers fun a b => a = b
  | "-ne" => numbers fun a b => a ≠ b
  | "-ge" => numbers fun a b => b ≤ a
  | "-gt" => numbers fun a b => b < a
  | "-le" => numbers fun a b => a ≤ b
  | "-lt" => numbers fun a b => a < b
  | "-ef" =>
    let place := fun (name : String) => (s.tree.find? (Path.within s.directory (ofOctets name))).toOption.map (·.1)
    .ok ((place first).isSome && place first = place second)
  | "-nt" => .ok ((s.entry? first).isSome && (s.entry? second).isNone)
  | _ => .ok ((s.entry? first).isNone && (s.entry? second).isSome)

mutual

/-- Conditions of which one has to hold. The words begin with the last one that was read. -/
def anyOf (s : TestScene) : Nat → TestWord → List String → Except String (Bool × List String)
  | 0, _, _ => .error "too many arguments"
  | fuel + 1, n, words => do
    let (first, words) ← allOf s fuel n words
    if TestWord.ofWords (words.drop 1) = .disjunction then
      let words := words.drop 2
      let (second, words) ← anyOf s fuel (TestWord.ofWords words) words
      return (first || second, words)
    else return (first, words)

/-- Conditions which all have to hold. -/
def allOf (s : TestScene) : Nat → TestWord → List String → Except String (Bool × List String)
  | 0, _, _ => .error "too many arguments"
  | fuel + 1, n, words => do
    let (first, words) ← negated s fuel n words
    if TestWord.ofWords (words.drop 1) = .conjunction then
      let words := words.drop 2
      let (second, words) ← allOf s fuel (TestWord.ofWords words) words
      return (first && second, words)
    else return (first, words)

def negated (s : TestScene) : Nat → TestWord → List String → Except String (Bool × List String)
  | 0, _, _ => .error "too many arguments"
  | fuel + 1, n, words => do
    if n = .negation then
      let next := TestWord.ofWords (words.drop 1)
      let (holds, words) ← negated s fuel next (if next = .finished then words else words.drop 1)
      return (!holds, words)
    else primary s fuel n words

def primary (s : TestScene) : Nat → TestWord → List String → Except String (Bool × List String)
  | 0, _, _ => .error "too many arguments"
  | fuel + 1, n, words => do
    match n with
    | .finished => return (false, words)
    | .opening =>
      let words := words.drop 1
      let next := TestWord.ofWords words
      if next = .closing then return (false, words)
      else
        let (holds, words) ← anyOf s fuel next words
        let words := words.drop 1
        if TestWord.ofWords words = .closing then return (holds, words) else .error "closing paren expected"
    | .unary c =>
      match words.drop 1 with
      | [] => .error ("-" ++ String.singleton c ++ ": argument expected")
      | name :: rest =>
        let holds : Bool ← match c with
          | 'z' => .ok (name = "" : Bool)
          | 'n' => .ok (name ≠ "" : Bool)
          | 't' => (number name).map fun _ => false
          | c => .ok (s.holds c name)
        return (holds, name :: rest)
    | _ =>
      match words with
      | first :: sign :: rest =>
        if TestWord.isBinary sign then
          match rest with
          | [] => .error (sign ++ ": argument expected")
          | second :: _ => return (← s.compares sign first second, rest)
        else return (first ≠ "", words)
      | first :: [] => return (first ≠ "", words)
      | [] => return (false, [])

end

/-- The condition that the words make holds; `expected` says what it has to be. -/
def check (s : TestScene) : Nat → Bool → List String → Except String Bool
  | 0, _, _ => .error "too many arguments"
  | fuel + 1, expected, words =>
    let all := fun (n : TestWord) (words : List String) => do
      let (holds, rest) ← anyOf s (4 * words.length + 8) n words
      match rest with
      | word :: _ :: _ => .error (if word = "" then "unexpected operator" else word ++ ": unexpected operator")
      | _ => return (holds == expected)
    let inParentheses := words.head? = some "(" && words.getLast? = some ")"
    if words.isEmpty then .ok (!expected)
    else if words.length = 3 && TestWord.isBinary (words.getD 1 "") then all .operand words
    else if words.length = 3 || words.length = 4 then
      if inParentheses then
        let inner := words.dropLast.drop 1
        all (TestWord.ofWords inner) inner
      else if words.head? = some "!" then check s fuel false (words.drop 1)
      else all (TestWord.ofWords words) words
    else all (TestWord.ofWords words) words

end TestScene

/-- Whether the condition holds that the words of a command make. -/
def condition (scene : TestScene) (name : String) (words : List String) : Except String Bool :=
  if name = "[" then
    if words.getLast? = some "]" then scene.check 8 true words.dropLast else .error "missing ]"
  else scene.check 8 true words

end GatedRepair.Shell
