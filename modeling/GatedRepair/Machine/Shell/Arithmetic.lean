import GatedRepair.Machine.Shell.Token
import GatedRepair.Number

/-!
# Arithmetic in scripts

Expressions of whole numbers of 64 bits, in which variables can be given values.
-/

namespace GatedRepair.Shell

inductive Expression where
  | number (n : Int)
  | variable (name : String)
  | negative (e : Expression)
  | complement (e : Expression)
  | denial (e : Expression)
  | binary (sign : String) (left right : Expression)
  | choice (condition yes no : Expression)
  /-- A variable gets a value, which may be made of the old one. -/
  | assign (name : String) (sign : Option String) (value : Expression)
  /-- An expression after which something is wrong, if it is not wrong itself. -/
  | broken (before : Option Expression) (message : String)

/-- The smallest parts of an expression. -/
inductive Sign where
  | number (n : Int)
  | name (text : String)
  | operator (text : String)
  | finished
  deriving DecidableEq, Repr

namespace Expression

/-- The nearest number of 64 bits, as overflowing arithmetic leaves it. -/
def wrapped (n : Int) : Int := Int.bmod n 18446744073709551616

/-- The largest number. -/
def largest : Int := 9223372036854775807

/-- The value of digits to a base. -/
def valueOf (base : Nat) (digits : List Char) : Int :=
  let n := digits.foldl (fun n c => n * base + (Number.hexDigit? c).getD 0) 0
  if largest < n then largest else n

/-- A number at the start of a text, marked by how it begins: hexadecimal, octal or decimal. -/
def numeral (text : List Char) : Int × List Char :=
  let isHex := fun c => (Number.hexDigit? c).isSome
  let isOctal := fun (c : Char) => '0' ≤ c && c ≤ '7'
  match text with
  | '0' :: x :: c :: rest =>
    if (x = 'x' || x = 'X') && isHex c then
      let digits := (c :: rest).takeWhile isHex
      (valueOf 16 digits, (c :: rest).drop digits.length)
    else
      let digits := text.takeWhile isOctal
      (valueOf 8 digits, text.drop digits.length)
  | '0' :: rest =>
    let digits := rest.takeWhile isOctal
    (valueOf 8 digits, rest.drop digits.length)
  | text =>
    let digits := text.takeWhile Char.isDigit
    (valueOf 10 digits, text.drop digits.length)

def isSpace (c : Char) : Bool := [' ', '\t', '\n', '\r', '\x0b', '\x0c'].contains c

/-- The number that is the value of a variable. -/
def ofText? (text : String) : Option Int :=
  let chars := text.toList.dropWhile isSpace
  let (negated, digits) := match chars with
    | '-' :: rest => (true, rest)
    | '+' :: rest => (false, rest)
    | rest => (false, rest)
  if chars.isEmpty then some 0
  else if !(digits.head?.map Char.isDigit).getD false then none
  else
    let (n, rest) := numeral digits
    if rest.all isSpace then some (if negated then -n else n) else none

/-- The signs of more than one character, the longest first. -/
def longSigns : List String :=
  ["<<=", ">>=", "||", "&&", "<<", ">>", "<=", ">=", "==", "!=", "*=", "/=", "%=", "+=", "-=", "&=", "^=", "|="]

/-- The parts of an expression. -/
def signs : Nat → List Char → List Sign
  | 0, _ => []
  | fuel + 1, text =>
    match text.dropWhile isSpace with
    | [] => [.finished]
    | c :: rest =>
      let text := c :: rest
      if c.isDigit then
        let (n, rest) := numeral text
        .number n :: signs fuel rest
      else if isNameChar c then
        let name := text.takeWhile isNameChar
        .name (String.ofList name) :: signs fuel (text.drop name.length)
      else match longSigns.find? fun sign => sign.toList.isPrefixOf text with
        | some sign => .operator sign :: signs fuel (text.drop sign.length)
        | none => .operator (String.singleton c) :: signs fuel rest

/-- How tightly the signs between two operands bind, the tightest first. -/
def levels : List (List String) :=
  [["*", "/", "%"], ["+", "-"], ["<<", ">>"], ["<", "<=", ">", ">="], ["==", "!="], ["&"], ["^"], ["|"], ["&&"], ["||"]]

/-- The signs that give a variable a value, with the sign that joins it with the old one. -/
def assigning? (sign : String) : Option (Option String) :=
  if sign = "=" then some none
  else if ["*=", "/=", "%=", "+=", "-=", "&=", "^=", "|=", "<<=", ">>="].contains sign then
    some (some (String.ofList sign.toList.dropLast))
  else none

/-- An expression and what follows it; nothing follows one that is broken. -/
abbrev Read := Expression × Option (List Sign)

/-- Something is wrong here. -/
def wrong (message : String) : Read := (.broken none message, none)

/-- A larger expression. -/
def Read.within (found : Read) (make : Expression → Expression) : Read := (make found.1, found.2)

/-- A larger expression that goes on after the first part, if that is not broken. -/
def Read.andThen (found : Read) (alone : Expression → Expression) (more : Expression → List Sign → Read) : Read :=
  match found.2 with
  | none => (alone found.1, none)
  | some rest => more found.1 rest

mutual

/-- An expression that may give a variable a value. -/
def readWhole : Nat → List Sign → Read
  | 0, _ => wrong "expecting primary"
  | fuel + 1, signs =>
    match signs with
    | .name name :: .operator sign :: rest =>
      match assigning? sign with
      | some joined => (readWhole fuel rest).within (.assign name joined)
      | none => readChoice fuel signs
    | signs => readChoice fuel signs

def readChoice : Nat → List Sign → Read
  | 0, _ => wrong "expecting primary"
  | fuel + 1, signs =>
    (readLevel fuel levels.length signs).andThen id fun condition rest =>
      match rest with
      | .operator "?" :: rest =>
        (readWhole fuel rest).andThen (fun yes => .choice condition yes (.number 0)) fun yes rest =>
          match rest with
          | .operator ":" :: rest => (readChoice fuel rest).within (.choice condition yes)
          | _ => (.choice condition (.broken (some yes) "expecting ':'") (.number 0), none)
      | rest => (condition, some rest)

/-- An expression whose signs belong to the first so many levels. -/
def readLevel : Nat → Nat → List Sign → Read
  | 0, _, _ => wrong "expecting primary"
  | fuel + 1, 0, signs => readPrimary fuel signs
  | fuel + 1, level + 1, signs => (readLevel fuel level signs).andThen id (readMore fuel level)

/-- The further operands on a level. -/
def readMore : Nat → Nat → Expression → List Sign → Read
  | 0, _, _, _ => wrong "expecting primary"
  | fuel + 1, level, first, signs =>
    match signs with
    | .operator sign :: rest =>
      if (levels[level]?.getD []).contains sign then
        (readLevel fuel level rest).andThen (.binary sign first) fun second rest => readMore fuel level (.binary sign first second) rest
      else (first, some signs)
    | signs => (first, some signs)

def readPrimary : Nat → List Sign → Read
  | 0, _ => wrong "expecting primary"
  | fuel + 1, signs =>
    match signs with
    | .number n :: rest => (.number n, some rest)
    | .name name :: rest => (.variable name, some rest)
    | .operator "+" :: rest => readPrimary fuel rest
    | .operator "-" :: rest => (readPrimary fuel rest).within .negative
    | .operator "~" :: rest => (readPrimary fuel rest).within .complement
    | .operator "!" :: rest => (readPrimary fuel rest).within .denial
    | .operator "(" :: rest =>
      (readWhole fuel rest).andThen id fun e rest =>
        match rest with
        | .operator ")" :: rest => (e, some rest)
        | _ => (.broken (some e) "expecting ')'", none)
    | _ => wrong "expecting primary"

end

/-- The expression that a text spells. -/
def parse (text : List Char) : Expression :=
  let signs := signs (text.length + 1) text
  match readWhole (16 * signs.length + 16) signs with
  | (e, none) => e
  | (e, some rest) => if rest = [.finished] then e else .broken (some e) "expecting EOF"

/-- What is wrong with how an expression is written. -/
def fault? : Expression → Option String
  | .number _ => none
  | .variable _ => none
  | .negative e => e.fault?
  | .complement e => e.fault?
  | .denial e => e.fault?
  | .binary _ left right => left.fault?.or right.fault?
  | .choice condition yes no => (condition.fault?.or yes.fault?).or no.fault?
  | .assign _ _ e => e.fault?
  | .broken (some e) message => e.fault?.or (some message)
  | .broken none message => some message

/-- What can go wrong with an expression: the text of a variable is no number, a divisor is zero, or it is not well formed. -/
inductive Trouble where
  | illFormed (message : String)
  | notNumber (text : String)
  | divisionByZero
  deriving DecidableEq, Repr

/-- The bits of a number, as a natural number. -/
def bits (n : Int) : Nat := (n % 18446744073709551616).toNat

def truth (holds : Bool) : Int := if holds then 1 else 0

/-- The value of two operands. -/
def combine (sign : String) (a b : Int) : Except Trouble Int :=
  match sign with
  | "*" => .ok (wrapped (a * b))
  | "/" => if b = 0 then .error .divisionByZero else .ok (wrapped (Int.tdiv a b))
  | "%" => if b = 0 then .error .divisionByZero else .ok (wrapped (Int.tmod a b))
  | "+" => .ok (wrapped (a + b))
  | "-" => .ok (wrapped (a - b))
  | "<<" => .ok (wrapped (a * (Nat.pow 2 (bits b % 64) : Nat)))
  | ">>" => .ok (Int.fdiv a (Nat.pow 2 (bits b % 64) : Nat))
  | "<" => .ok (truth (a < b))
  | "<=" => .ok (truth (a ≤ b))
  | ">" => .ok (truth (b < a))
  | ">=" => .ok (truth (b ≤ a))
  | "==" => .ok (truth (a = b))
  | "!=" => .ok (truth (a ≠ b))
  | "&" => .ok (wrapped (Nat.land (bits a) (bits b) : Nat))
  | "^" => .ok (wrapped (Nat.xor (bits a) (bits b) : Nat))
  | _ => .ok (wrapped (Nat.lor (bits a) (bits b) : Nat))

/-- Values that variables have got, the latest first. -/
abbrev Given := List (String × Int)

/-- The value of an expression, where `look` gives the texts of variables. -/
def value (look : String → String) : Expression → StateT Given (Except Trouble) Int
  | .number n => return n
  | .variable name => current name
  | .negative e => return wrapped (-(← value look e))
  | .complement e => return -(← value look e) - 1
  | .denial e => return truth ((← value look e) == 0)
  | .binary "&&" left right => do
    if (← value look left) = 0 then passed right 0 else return truth ((← value look right) != 0)
  | .binary "||" left right => do
    if (← value look left) ≠ 0 then passed right 1 else return truth ((← value look right) != 0)
  | .binary sign left right => do
    let a ← value look left
    let b ← value look right
    combine sign a b
  | .choice condition yes no => do
    if (← value look condition) ≠ 0 then
      let n ← value look yes
      passed no n
    else
      let _ ← passed yes 0
      value look no
  | .broken before message => do
    match before with
    | some e =>
      let _ ← value look e
    | none => pure ()
    throw (.illFormed message)
  | .assign name sign e => do
    let new ← value look e
    let result ← match sign with
      | none => pure new
      | some sign => do
        let old ← current name
        combine sign old new
    modify ((name, result) :: ·)
    return result
where
  /-- The number, after an expression that is read and has no effect. -/
  passed (e : Expression) (n : Int) : StateT Given (Except Trouble) Int :=
    match e.fault? with
    | some message => throw (.illFormed message)
    | none => return n
  /-- The number that a variable holds. -/
  current (name : String) : StateT Given (Except Trouble) Int := do
    match (← get).lookup name with
    | some n => return n
    | none => match ofText? (look name) with
      | some n => return n
      | none => throw (.notNumber (look name))

end Expression

end GatedRepair.Shell
