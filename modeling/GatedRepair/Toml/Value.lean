import GatedRepair.Json.Reader
import GatedRepair.Number
import GatedRepair.Text.Character
import GatedRepair.Text.Lines
import GatedRepair.Time

/-!
# Values in TOML
-/

/-!
## Texts in TOML

Texts stand in double quotes with escapes or in single quotes as they are, and both kinds can go over several lines.
-/

namespace GatedRepair.Toml

/-- A character outside the basic Latin block. -/
def isWide (c : Char) : Bool := 0x80 ≤ c.toNat

/-- A character that can stand in double quotes. -/
def isBasicChar (c : Char) : Bool := c == '\t' || (' ' ≤ c && c ≤ '~' && c != '"' && c != '\\') || isWide c

/-- A character that can stand in single quotes. -/
def isLiteralChar (c : Char) : Bool := c == '\t' || (' ' ≤ c && c ≤ '~' && c != '\'') || isWide c

/-- A character that can stand in a comment. -/
def isCommentChar (c : Char) : Bool := c == '\t' || (' ' ≤ c && c ≤ '~') || isWide c

def isBlank (c : Char) : Bool := c == ' ' || c == '\t'

def skipBlanks (text : List Char) : List Char := text.dropWhile isBlank

/-- The text after a line end. -/
def newline? : List Char → Option (List Char)
  | '\n' :: rest => some rest
  | '\r' :: '\n' :: rest => some rest
  | _ => none

/-- The character with a number that is written with so many hexadecimal digits, and the text after it. -/
def numbered? (count : Nat) (text : List Char) : Option (Char × List Char) := do
  let digits ← (text.take count).mapM Number.hexDigit?
  let n := digits.foldl (fun n d => n * 16 + d) 0
  if digits.length = count ∧ n.isValidChar then some (Char.ofNat n, text.drop count) else none

/-- The character that an escape stands for, and the text after it. -/
def escape? : List Char → Option (Char × List Char)
  | 'b' :: rest => some ('\x08', rest)
  | 'f' :: rest => some ('\x0c', rest)
  | 'n' :: rest => some ('\n', rest)
  | 'r' :: rest => some ('\r', rest)
  | 't' :: rest => some ('\t', rest)
  | 'u' :: rest => numbered? 4 rest
  | 'U' :: rest => numbered? 8 rest
  | '\\' :: rest => some ('\\', rest)
  | '"' :: rest => some ('"', rest)
  | _ => none

/-- The text up to the closing double quote, after what was read of it before, backwards, and what follows. -/
def basicText? : Nat → List Char → List Char → Option (List Char × List Char)
  | 0, _, _ => none
  | fuel + 1, before, text =>
    match text with
    | '"' :: rest => some (before.reverse, rest)
    | '\\' :: rest =>
      match escape? rest with
      | some (c, rest) => basicText? fuel (c :: before) rest
      | none => none
    | c :: rest => if isBasicChar c then basicText? fuel (c :: before) rest else none
    | [] => none

/-- The text up to the closing single quote, and what follows. -/
def literalText? (text : List Char) : Option (List Char × List Char) :=
  match text.dropWhile isLiteralChar with
  | '\'' :: rest => some (text.takeWhile isLiteralChar, rest)
  | _ => none

/-- The most quotes in a row before the three that close a long text. -/
def looseQuotes : Nat := 2

/-- What a row of quotes means in a long text: those that belong to it, and whether it ends after them. -/
def quoteRow (quote : Char) (text : List Char) : Nat × Bool :=
  let count := (text.takeWhile (· == quote)).length
  if count < 3 then (count, false) else (min (count - 3) looseQuotes, true)

/-- Blanks and line ends are left out after a backslash at the end of a line. -/
def continued? (text : List Char) : Option (List Char) :=
  match newline? (skipBlanks text) with
  | none => none
  | some rest => some (skip rest)
where
  skip : List Char → List Char
    | '\r' :: '\n' :: rest => skip rest
    | c :: rest => if isBlank c || c == '\n' then skip rest else c :: rest
    | [] => []

/-- The text up to three closing quotes, after what was read of it before, backwards, and what follows. Escapes count
between double quotes. -/
def longText? (quote : Char) : Nat → List Char → List Char → Option (List Char × List Char)
  | 0, _, _ => none
  | fuel + 1, before, text =>
    match newline? text with
    | some rest => longText? quote fuel ('\n' :: before) rest
    | none =>
      match text with
      | [] => none
      | c :: rest =>
        if c = quote then
          let (count, closed) := quoteRow quote text
          let before := List.replicate count quote ++ before
          if closed then some (before.reverse, text.drop (count + 3)) else longText? quote fuel before (text.drop count)
        else if quote = '\'' then (if isLiteralChar c then longText? quote fuel (c :: before) rest else none)
        else if c = '\\' then
          match continued? rest with
          | some rest => longText? quote fuel before rest
          | none =>
            match escape? rest with
            | some (c, rest) => longText? quote fuel (c :: before) rest
            | none => none
        else if isBasicChar c then longText? quote fuel (c :: before) rest
        else none

/-- A long text after its three opening quotes. A line end that comes first is left out. -/
def longBody? (quote : Char) (size : Nat) (text : List Char) : Option (List Char × List Char) :=
  longText? quote size [] ((newline? text).getD text)

/-- A text on one line, with its opening quote. The text has fewer characters than `size`, here and below. -/
def shortText? (size : Nat) : List Char → Option (List Char × List Char)
  | '"' :: rest => basicText? size [] rest
  | '\'' :: rest => literalText? rest
  | _ => none

/-- A text of any kind, with its opening quotes. -/
def text? (size : Nat) : List Char → Option (List Char × List Char)
  | '"' :: '"' :: '"' :: rest => longBody? '"' size rest
  | '\'' :: '\'' :: '\'' :: rest => longBody? '\'' size rest
  | text => shortText? size text

/-!
## Numbers in TOML

Whole numbers to several bases, with low lines between the digits, and numbers with a fraction or an exponent.
-/

open Number

/-- Digits, any of which may follow a low line, after those before them, backwards. -/
def moreDigits? (isDigit : Char → Bool) : List Char → List Char → Option (List Char × List Char)
  | before, '_' :: c :: rest => if isDigit c then moreDigits? isDigit (c :: before) rest else none
  | _, ['_'] => none
  | before, c :: rest => if isDigit c then moreDigits? isDigit (c :: before) rest else some (before.reverse, c :: rest)
  | before, [] => some (before.reverse, [])

/-- At least one digit, with low lines between digits. -/
def digits? (isDigit : Char → Bool) : List Char → Option (List Char × List Char)
  | c :: rest => if isDigit c then moreDigits? isDigit [c] rest else none
  | [] => none

/-- A sign that may be left out. -/
def sign : List Char → Bool × List Char
  | '-' :: rest => (true, rest)
  | '+' :: rest => (false, rest)
  | text => (false, text)

/-- A whole number to base ten, in which no zero leads other digits. -/
def whole? : List Char → Option (List Char × List Char)
  | '0' :: rest => some (['0'], rest)
  | text => digits? Text.isAsciiDigit text

/-- The whole numbers are those of 64 bits with a sign. -/
def integerBound : Nat := 9223372036854775808

/-- A whole number as a JSON number. -/
def integer? (negative : Bool) (base : Nat) (digits : List Char) : Option Json := do
  let n ← digits.foldl (extend? base (integerBound + 1) hexDigit?) (some 0)
  if negative then (if n ≤ integerBound then some (.int (-(n : Int))) else none)
  else if n < integerBound then some (.nat n) else none

/-- The bases that a number can be marked with, and their digits. -/
def base? : Char → Option (Nat × (Char → Bool))
  | 'x' => some (16, fun c => (hexDigit? c).isSome)
  | 'o' => some (8, fun c => '0' ≤ c && c ≤ '7')
  | 'b' => some (2, fun c => c == '0' || c == '1')
  | _ => none

/-- The digits of the fraction, if there is one. -/
def fraction? : List Char → Option (List Char × List Char)
  | '.' :: rest => digits? Text.isAsciiDigit rest
  | text => some ([], text)

/-- The sign and the digits of the exponent, if there is one. -/
def exponent? : List Char → Option ((Bool × List Char) × List Char)
  | c :: rest =>
    if c = 'e' || c = 'E' then
      let (negative, rest) := sign rest
      (digits? Text.isAsciiDigit rest).map fun (digits, rest) => ((negative, digits), rest)
    else some ((false, []), c :: rest)
  | [] => some ((false, []), [])

/-- The exponent that digits stand for. One with very many digits counts as very large. -/
def exponentOf (negative : Bool) (digits : List Char) : Int :=
  let counted := digits.dropWhile (· == '0')
  let size : Nat := if 19 < counted.length then Nat.pow 10 19 else (ofDigits? bound64 ('0' :: counted)).getD 0
  if negative then -(size : Int) else size

/-- A number with a fraction or an exponent. One that is too large for a binary number is refused unless it is
negative. -/
def float? (negative : Bool) (whole fraction : List Char) (exponent : Bool × List Char) : Option Json :=
  let tooLarge := Binary64.overflows (whole ++ fraction) (whole.length + exponentOf exponent.1 exponent.2)
  if tooLarge && !negative then none
  else
    let point := if fraction.isEmpty then [] else '.' :: fraction
    let power := if exponent.2.isEmpty then [] else 'e' :: (if exponent.1 then '-' :: exponent.2 else exponent.2)
    let lexeme := String.ofList (whole ++ point ++ power)
    some (.number (if negative then "-" ++ lexeme else lexeme))

/-- A number to base ten with its sign taken off. -/
def decimal? (negative : Bool) (text : List Char) : Option (Json × List Char) := do
  let (whole, rest) ← whole? text
  let (fraction, rest) ← fraction? rest
  let (exponent, rest) ← exponent? rest
  if fraction.isEmpty && exponent.2.isEmpty then return (← integer? negative 10 whole, rest)
  else return (← float? negative whole fraction exponent, rest)

/-- A number, and the text after it. -/
def number? (text : List Char) : Option (Json × List Char) :=
  let (negative, rest) := sign text
  match rest with
  | 'i' :: 'n' :: 'f' :: rest => some (.number "inf", rest)
  | 'n' :: 'a' :: 'n' :: rest => some (.number "nan", rest)
  | _ =>
    let marked := match text with
      | '0' :: letter :: digits => (base? letter).map (·, digits)
      | _ => none
    match marked with
    | some ((base, isDigit), digits) => do
      let (digits, rest) ← digits? isDigit digits
      return (← integer? false base digits, rest)
    | none => decimal? negative rest

end GatedRepair.Toml

/-!
## Dates and times in TOML

A day, a time of day, or both, perhaps with an offset from universal time.
-/

namespace GatedRepair.Toml

open Number Text

/-- A number of exactly so many digits in a range, and the text after it. -/
def field? (count low high : Nat) (text : List Char) : Option (Nat × List Char) :=
  let digits := text.take count
  if digits.length = count && digits.all isAsciiDigit then
    let n := digits.foldl (fun n c => n * 10 + (c.toNat - 48)) 0
    if low ≤ n && n ≤ high then some (n, text.drop count) else none
  else none

def digits2 (n : Nat) : List Char := padded 10 2 n

/-- A day in its written form, and the text after it. -/
def day? (text : List Char) : Option (List Char × List Char) := do
  let (year, rest) ← field? 4 0 9999 text
  let (month, rest) ← field? 2 1 12 (← after? ['-'] rest)
  let (day, rest) ← field? 2 1 31 (← after? ['-'] rest)
  if day ≤ Time.daysIn year month then
    some (padded 10 4 year ++ '-' :: digits2 month ++ '-' :: digits2 day, rest)
  else none

/-- The digits of a fraction of a second that count, without zeros at the end. -/
def fractionOf (digits : List Char) : List Char :=
  match ((digits.take 9).reverse.dropWhile (· == '0')).reverse with
  | [] => []
  | kept => '.' :: kept

/-- A time of day in its written form, and the text after it. -/
def timeOfDay? (text : List Char) : Option (List Char × List Char) := do
  let (hour, rest) ← field? 2 0 23 text
  let (minute, rest) ← field? 2 0 59 (← after? [':'] rest)
  let (second, rest) ← field? 2 0 60 (← after? [':'] rest)
  let clock := digits2 hour ++ ':' :: digits2 minute ++ ':' :: digits2 second
  match rest with
  | '.' :: more =>
    let digits := more.takeWhile isAsciiDigit
    if digits.isEmpty then none else some (clock ++ fractionOf digits, more.drop digits.length)
  | rest => some (clock, rest)

/-- The offset in its written form, if there is one, and the text after it. An offset of nothing is written as an addition. -/
def offset? (text : List Char) : Option (List Char × List Char) :=
  match text with
  | 'Z' :: rest => some (['Z'], rest)
  | 'z' :: rest => some (['Z'], rest)
  | c :: rest =>
    if c = '+' || c = '-' then do
      let (hour, rest) ← field? 2 0 23 rest
      let (minute, rest) ← field? 2 0 59 (← after? [':'] rest)
      let sign := if hour = 0 && minute = 0 then '+' else c
      return (sign :: digits2 hour ++ ':' :: digits2 minute, rest)
    else some ([], text)
  | [] => some ([], [])

/-- The text begins like a day or a time of day. -/
def beginsMoment (text : List Char) : Bool :=
  let digits := (text.takeWhile isAsciiDigit).length
  (digits = 4 && text[4]? = some '-') || (digits = 2 && text[2]? = some ':')

/-- A day with what may follow it: a time of day, and an offset. -/
def dayAndMore? (day rest : List Char) : Option (List Char × List Char) :=
  match rest with
  | c :: more =>
    if c = 'T' || c = 't' || c = ' ' then
      match timeOfDay? more with
      | some (clock, rest) => do
        let (offset, rest) ← offset? rest
        return (day ++ 'T' :: clock ++ offset, rest)
      | none => if beginsMoment more then none else some (day, rest)
    else some (day, rest)
  | [] => some (day, rest)

/-- The name under which a date or time is told apart from texts and numbers. -/
def momentKey : String := "$__toml_private_datetime"

/-- A date or time, and the text after it. -/
def moment? (text : List Char) : Option (Json × List Char) := do
  let (written, rest) ← match day? text with
    | some (day, rest) => dayAndMore? day rest
    | none => timeOfDay? text
  return (.record [(momentKey, .text (String.ofList written))], rest)

end GatedRepair.Toml
