import GatedRepair.Number

/-!
# Reading JSON

A text becomes tokens in one pass, and the tokens are folded into a value.
-/

/-!
## JSON values

A number keeps the text it was written with, and an object keeps its members in order, so that nothing of a
document is decided before it is known what a value is wanted as.
-/

namespace GatedRepair

/-- A JSON value. A string with an escape for half of a character stands for no text and holds `none`. -/
inductive Json where
  | null
  | bool (value : Bool)
  | number (lexeme : String)
  | string (text : Option String)
  | array (items : List Json)
  | object (members : List (Option String × Json))
  deriving Repr, Inhabited, BEq

namespace Json

def text (s : String) : Json := .string (some s)

def nat (n : Nat) : Json := .number n.repr

/-- An integer with its sign. -/
def int (n : Int) : Json := .number (if n < 0 then "-" ++ n.natAbs.repr else n.natAbs.repr)

def float (x : Number.Binary64) : Json := .number x.text

/-- An object with named members. -/
def record (members : List (String × Json)) : Json := .object (members.map fun (name, value) => (some name, value))

/-- A value that may be absent; absence is written as null. -/
def ofOption {α : Type} (write : α → Json) : Option α → Json
  | none => .null
  | some value => write value

def ofList {α : Type} (write : α → Json) (values : List α) : Json := .array (values.map write)

/-- The member of an object with a name; the last one, if several bear it. -/
def get? (value : Json) (name : String) : Option Json :=
  match value with
  | .object members => members.foldl (fun found entry => if entry.1 == some name then some entry.2 else found) none
  | _ => none

end Json

end GatedRepair

/-!
## JSON numbers

The grammar of number texts, and what such a text stands for as a natural number, an integer or a binary
number.
-/

namespace GatedRepair.Json

open GatedRepair.Number

/-- The parts of a number text: a sign, the digits before and after the point, and the exponent with its sign
and digits. -/
structure NumberParts where
  negative : Bool
  whole : List Char
  fraction : Option (List Char)
  exponent : Option (Bool × List Char)
  deriving Repr, DecidableEq

/-- A character that can occur in a number text. -/
def isNumberChar (c : Char) : Bool := (digit? c).isSome || c == '-' || c == '+' || c == '.' || c == 'e' || c == 'E'

/-- The exponent of a number text: the letter, a sign that may be left out, and digits. -/
def exponent? (text : List Char) : Option (Option (Bool × List Char)) :=
  match text with
  | [] => some none
  | letter :: rest =>
    let signed := match rest with
      | '+' :: digits => (false, digits)
      | '-' :: digits => (true, digits)
      | digits => (false, digits)
    if (letter == 'e' || letter == 'E') && !signed.2.isEmpty && signed.2.all (digit? · |>.isSome) then some (some signed)
    else none

/-- The parts of a text that is a number: no zero leads other digits, and digits follow a point. -/
def numberParts? (text : List Char) : Option NumberParts :=
  let (negative, text) := match text with
    | '-' :: rest => (true, rest)
    | _ => (false, text)
  let isDigit := fun c => (digit? c).isSome
  let whole := text.takeWhile isDigit
  let rest := text.dropWhile isDigit
  if whole.isEmpty || (whole.head? == some '0' && 1 < whole.length) then none else
    match rest with
    | '.' :: rest =>
      let fraction := rest.takeWhile isDigit
      if fraction.isEmpty then none
      else (exponent? (rest.dropWhile isDigit)).map fun e => ⟨negative, whole, some fraction, e⟩
    | rest => (exponent? rest).map fun e => ⟨negative, whole, none, e⟩

/-- A significand below `2 ^ 64` and a count: digits are taken into the significand while it stays below the
bound, the others are counted. -/
def takeDigits (significand : Nat) (digits : List Char) : Nat × Nat :=
  match digits with
  | [] => (significand, 0)
  | c :: rest =>
    match extend? 10 bound64 digit? (some significand) c with
    | some more => takeDigits more rest
    | none => (significand, rest.length + 1)

/-- The binary number of a number text, or nothing when it is too large. Digits past the significand of 64 bits
are dropped. -/
def NumberParts.float? (parts : NumberParts) : Option Binary64 :=
  let (significand, dropped) := takeDigits 0 parts.whole
  let fraction := parts.fraction.getD []
  let (significand, ignored) := takeDigits significand fraction
  let scale : Int := (dropped : Int) - ((fraction.length - ignored : Nat) : Int)
  let signed := fun (x : Binary64) => if parts.negative then x.negate else x
  match parts.exponent with
  | none => (Binary64.ofDecimal? significand scale).map signed
  | some (down, digits) =>
    match ofDigits? (Nat.pow 2 31) digits with
    | some e => (Binary64.ofDecimal? significand (if down then scale - e else scale + e)).map signed
    | none => if significand ≠ 0 ∧ !down then none else some (signed Binary64.zero)

/-- The integer of a number text without fraction or exponent. A negative zero is no integer. -/
def NumberParts.integer? (parts : NumberParts) : Option Int :=
  match parts.fraction, parts.exponent, ofDigits? bound64 parts.whole with
  | none, none, some n => if parts.negative then (if n = 0 then none else some (-(n : Int))) else some n
  | _, _, _ => none

/-- The value as a natural number below a bound. -/
def natural? (bound : Nat) : Json → Option Nat
  | .number lexeme => do
    let n ← (← numberParts? lexeme.toList).integer?
    if 0 ≤ n ∧ n.natAbs < bound then some n.natAbs else none
  | _ => none

/-- The value as an integer of 32 bits. -/
def integer32? : Json → Option Int
  | .number lexeme => do
    let n ← (← numberParts? lexeme.toList).integer?
    if -2147483648 ≤ n ∧ n < 2147483648 then some n else none
  | _ => none

/-- The value as a binary number. -/
def float? : Json → Option Binary64
  | .number lexeme => (numberParts? lexeme.toList).bind (·.float?)
  | _ => none

/-!
## JSON tokens

A text becomes tokens in one pass over its characters. Between two tokens there may be blanks.
-/

inductive Token where
  | openList
  | closeList
  | openObject
  | closeObject
  | comma
  | colon
  | null
  | bool (value : Bool)
  | number (lexeme : String)
  | string (text : Option String)
  deriving Repr, DecidableEq

/-- The part of a string that has been read: its characters, the last one first, the first half of a character
that waits for its second, and whether a half was left alone. -/
structure Written where
  back : List Char
  half : Option Nat
  broken : Bool
  deriving Repr

namespace Written

def empty : Written := ⟨[], none, false⟩

/-- One more character. A half that waits is left alone. -/
def push (w : Written) (c : Char) : Written := ⟨c :: w.back, none, w.broken || w.half.isSome⟩

/-- One more code unit of an escape: a whole character or half of one. -/
def pushUnit (w : Written) (unit : Nat) : Written :=
  if 0xDC00 ≤ unit ∧ unit ≤ 0xDFFF then
    match w.half with
    | some high => ⟨Char.ofNat (0x10000 + (high - 0xD800) * 0x400 + (unit - 0xDC00)) :: w.back, none, w.broken⟩
    | none => { w with broken := true }
  else if 0xD800 ≤ unit ∧ unit ≤ 0xDBFF then ⟨w.back, some unit, w.broken || w.half.isSome⟩
  else w.push (Char.ofNat unit)

/-- The text that was written, if no half was left alone. -/
def text (w : Written) : Option String :=
  if w.broken || w.half.isSome then none else some (String.ofList w.back.reverse)

end Written

/-- Where the scanner stands: between tokens or inside one. -/
inductive Mode where
  | between
  | number (back : List Char)
  | word (back : List Char)
  | string (written : Written)
  | escape (written : Written)
  | unit (written : Written) (digits : Nat) (value : Nat)
  deriving Repr

/-- The scanner's state: the tokens found, the last one first, and where it stands. -/
structure Scan where
  tokens : List Token
  mode : Mode
  deriving Repr

def Scan.start : Scan := ⟨[], .between⟩

def isJsonBlank (c : Char) : Bool := c == ' ' || c == '\t' || c == '\n' || c == '\r'

/-- The word as a token. -/
def wordToken? (word : List Char) : Option Token :=
  if word = "null".toList then some .null
  else if word = "true".toList then some (.bool true)
  else if word = "false".toList then some (.bool false)
  else none

def numberToken? (lexeme : List Char) : Option Token :=
  (numberParts? lexeme).map fun _ => .number (String.ofList lexeme)

/-- The character that a one-letter escape stands for. -/
def escaped? (c : Char) : Option Char :=
  match c with
  | '"' => some '"'
  | '\\' => some '\\'
  | '/' => some '/'
  | 'b' => some (Char.ofNat 8)
  | 'f' => some (Char.ofNat 12)
  | 'n' => some '\n'
  | 'r' => some '\r'
  | 't' => some '\t'
  | _ => none

/-- A token's first character, or a blank. -/
def Scan.begin (tokens : List Token) (c : Char) : Option Scan :=
  match c with
  | '[' => some ⟨.openList :: tokens, .between⟩
  | ']' => some ⟨.closeList :: tokens, .between⟩
  | '\x7b' => some ⟨.openObject :: tokens, .between⟩
  | '\x7d' => some ⟨.closeObject :: tokens, .between⟩
  | ',' => some ⟨.comma :: tokens, .between⟩
  | ':' => some ⟨.colon :: tokens, .between⟩
  | '"' => some ⟨tokens, .string .empty⟩
  | c =>
    if isJsonBlank c then some ⟨tokens, .between⟩
    else if c == '-' || (digit? c).isSome then some ⟨tokens, .number [c]⟩
    else if 'a' ≤ c ∧ c ≤ 'z' then some ⟨tokens, .word [c]⟩
    else none

/-- The scanner's state after one more character. -/
def Scan.step (scan : Scan) (c : Char) : Option Scan :=
  match scan.mode with
  | .between => begin scan.tokens c
  | .number back =>
    if isNumberChar c then some ⟨scan.tokens, .number (c :: back)⟩
    else do begin ((← numberToken? back.reverse) :: scan.tokens) c
  | .word back =>
    if 'a' ≤ c ∧ c ≤ 'z' then some ⟨scan.tokens, .word (c :: back)⟩
    else do begin ((← wordToken? back.reverse) :: scan.tokens) c
  | .string written =>
    if c = '"' then some ⟨.string written.text :: scan.tokens, .between⟩
    else if c = '\\' then some ⟨scan.tokens, .escape written⟩
    else if c.toNat < 32 then none
    else some ⟨scan.tokens, .string (written.push c)⟩
  | .escape written =>
    if c = 'u' then some ⟨scan.tokens, .unit written 0 0⟩
    else (escaped? c).map fun plain => ⟨scan.tokens, .string (written.push plain)⟩
  | .unit written digits value => do
    let value := value * 16 + (← hexDigit? c)
    if digits = 3 then some ⟨scan.tokens, .string (written.pushUnit value)⟩
    else some ⟨scan.tokens, .unit written (digits + 1) value⟩

/-- The tokens, when the text ends here. -/
def Scan.finish (scan : Scan) : Option (List Token) :=
  match scan.mode with
  | .between => some scan.tokens.reverse
  | .number back => do some (((← numberToken? back.reverse) :: scan.tokens).reverse)
  | .word back => do some (((← wordToken? back.reverse) :: scan.tokens).reverse)
  | _ => none

/-- The tokens of a text. -/
def tokens? (text : List Char) : Option (List Token) := (text.foldlM Scan.step Scan.start).bind Scan.finish

end GatedRepair.Json

/-!
## Reading JSON

The tokens of a document are folded into its value. What is still open is kept as a stack of containers, so
nesting costs no more than length.
-/

namespace GatedRepair.Json

/-- A container that is still open, with what it holds so far, the last item first. -/
inductive Frame where
  | items (back : List Json)
  | members (back : List (Option String × Json)) (name : Option String)
  deriving Repr

/-- What has been read, and what may come next. -/
inductive Stage where
  /-- A value has to come. -/
  | value (stack : List Frame)
  /-- The first item of a list has to come, or the list's end. -/
  | firstItem (stack : List Frame)
  /-- The first name of an object has to come, or the object's end. -/
  | firstName (stack : List Frame)
  /-- The next name of an object has to come. -/
  | nextName (back : List (Option String × Json)) (stack : List Frame)
  /-- The colon after a name has to come. -/
  | colon (back : List (Option String × Json)) (name : Option String) (stack : List Frame)
  /-- A value is complete; its container goes on or ends. -/
  | after (value : Json) (stack : List Frame)
  deriving Repr

/-- A token where a value has to come. -/
def Stage.open? (stack : List Frame) : Token → Option Stage
  | .null => some (.after .null stack)
  | .bool b => some (.after (.bool b) stack)
  | .number lexeme => some (.after (.number lexeme) stack)
  | .string text => some (.after (.string text) stack)
  | .openList => some (.firstItem stack)
  | .openObject => some (.firstName stack)
  | _ => none

/-- What has been read after one more token. -/
def Stage.step : Stage → Token → Option Stage
  | .value stack, token => open? stack token
  | .firstItem stack, .closeList => some (.after (.array []) stack)
  | .firstItem stack, token => open? (.items [] :: stack) token
  | .firstName stack, .closeObject => some (.after (.object []) stack)
  | .firstName stack, .string name => some (.colon [] name stack)
  | .nextName back stack, .string name => some (.colon back name stack)
  | .colon back name stack, .colon => some (.value (.members back name :: stack))
  | .after done (.items back :: stack), .comma => some (.value (.items (done :: back) :: stack))
  | .after done (.items back :: stack), .closeList => some (.after (.array (done :: back).reverse) stack)
  | .after done (.members back name :: stack), .comma => some (.nextName ((name, done) :: back) stack)
  | .after done (.members back name :: stack), .closeObject =>
    some (.after (.object ((name, done) :: back).reverse) stack)
  | _, _ => none

/-- The value of a whole document. -/
def Stage.finish : Stage → Option Json
  | .after done [] => some done
  | _ => none

/-- The value that a row of tokens spells. -/
def ofTokens? (tokens : List Token) : Option Json := (tokens.foldlM Stage.step (.value [])).bind Stage.finish

/-- The value that a text spells. -/
def parse? (text : String) : Option Json := (tokens? text.toList).bind ofTokens?

end GatedRepair.Json
