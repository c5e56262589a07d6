import GatedRepair.Machine.Program.Basic
import GatedRepair.Number

/-!
# Formats

A format is written with values put in for its directives, as often as it takes to use up the values.
-/

namespace GatedRepair

open Number

/-- A directive of a format: how a value is converted and how it is made to fit. -/
structure Directive where
  flags : List Char
  width : Nat
  precision : Option Nat
  conversion : Char
  deriving Repr

/-- Who writes the format, which shows in the complaints. -/
inductive FormatStyle where
  | shell
  | program
  deriving DecidableEq, Repr

/-- What has been written, the last part first, the values that are left, the complaints, the last one first, and
whether no more is to be written. -/
structure Formatting where
  back : List (List Char)
  values : List String
  complaints : List String
  status : Nat
  ended : Bool

namespace Formatting

/-- The next value, if there is one. -/
def next (f : Formatting) : Option String × Formatting := (f.values.head?, { f with values := f.values.drop 1 })

def put (f : Formatting) (chars : List Char) : Formatting := { f with back := chars :: f.back }

def complain (f : Formatting) (message : String) : Formatting :=
  { f with complaints := message :: f.complaints, status := 1 }

end Formatting

namespace Directive

/-- Digits to a base, with letters of one case. -/
def digitsOf (base : Nat) (capitals : Bool) (n : Nat) : List Char :=
  (Nat.toDigits base n).map fun c => if capitals then c.toUpper else c

/-- A text made as wide as it has to be. Zeros go between a sign and the digits. -/
def fit (d : Directive) (sign body : List Char) (zeros : Bool) : List Char :=
  let missing := d.width - (sign.length + body.length)
  if d.flags.contains '-' then sign ++ body ++ List.replicate missing ' '
  else if zeros then sign ++ List.replicate missing '0' ++ body
  else List.replicate missing ' ' ++ sign ++ body

/-- The sign of a number that has one. -/
def signOf (d : Directive) (negative : Bool) : List Char :=
  if negative then ['-'] else if d.flags.contains '+' then ['+'] else if d.flags.contains ' ' then [' '] else []

/-- A whole number as the directive wants it. -/
def whole (d : Directive) (n : Int) : List Char :=
  let signed := d.conversion = 'd' || d.conversion = 'i'
  let size := if signed then n.natAbs else (n % 18446744073709551616).toNat
  let base := match d.conversion with
    | 'o' => 8
    | 'x' => 16
    | 'X' => 16
    | _ => 10
  let digits := digitsOf base (d.conversion = 'X') size
  let digits := if size = 0 && d.precision = some 0 then [] else digits
  let digits := List.replicate (d.precision.getD 1 - digits.length) '0' ++ digits
  let mark : List Char := if !d.flags.contains '#' || size = 0 then []
    else if d.conversion = 'o' then ['0']
    else if d.conversion = 'x' then ['0', 'x']
    else if d.conversion = 'X' then ['0', 'X']
    else []
  let sign := if signed then d.signOf (n < 0) else []
  d.fit (sign ++ mark) digits (d.flags.contains '0' && d.precision.isNone)

/-- The exponent of the leading digit of a positive number, from a guess that is too small. -/
def leadingExponent (q : Rat) (guess : Int) : Nat → Int
  | 0 => guess
  | fuel + 1 => if (10 : Rat) ^ (guess + 1) ≤ q then leadingExponent q (guess + 1) fuel else guess

/-- A number with an exponent, and so many places after the point: the digits and the exponent. -/
def scientific (places : Nat) (q : Rat) : List Char × Int :=
  let size := if q < 0 then -q else q
  if size = 0 then ((fixedPlaces places 0).toList, 0)
  else
    let guess : Int := Int.fdiv (((size.num.natAbs.log2 : Int) - (size.den.log2 : Int)) * 30103) 100000 - 1
    let e := leadingExponent size guess 4
    let digits := (fixedPlaces places (size / (10 : Rat) ^ e)).toList
    if digits.take 2 = ['1', '0'] then ((fixedPlaces places (size / (10 : Rat) ^ (e + 1))).toList, e + 1) else (digits, e)

def exponentText (e : Int) : List Char :=
  ['e', if e < 0 then '-' else '+'] ++ padded 10 2 e.natAbs

/-- Digits without zeros at the end of their fraction. -/
def withoutZeros (digits : List Char) : List Char :=
  if digits.contains '.' then
    match digits.reverse.dropWhile (· == '0') with
    | '.' :: back => back.reverse
    | back => back.reverse
  else digits

/-- A number with a fraction as the directive wants it. -/
def fractional (d : Directive) (q : Rat) : List Char :=
  let size := if q < 0 then -q else q
  let places := d.precision.getD 6
  let body := match d.conversion.toLower with
    | 'f' => (fixedPlaces places size).toList
    | 'e' =>
      let (digits, e) := scientific places size
      digits ++ exponentText e
    | _ =>
      let places := max places 1
      let (digits, e) := scientific (places - 1) size
      if e < -4 || (places : Int) ≤ e then withoutZeros digits ++ exponentText e
      else withoutZeros (fixedPlaces ((places : Int) - 1 - e).toNat size).toList
  let body := if d.conversion.isUpper then body.map Char.toUpper else body
  d.fit (d.signOf (q < 0)) body (d.flags.contains '0')

end Directive

/-- A whole number at the start of a text, and what follows it: nothing was read if that is the whole text. -/
def leadingWhole (text : List Char) : Int × List Char :=
  let body := text.dropWhile fun c => c = ' ' || c = '\t' || c = '\n'
  let (negative, digits) := match body with
    | '-' :: rest => (true, rest)
    | '+' :: rest => (false, rest)
    | rest => (false, rest)
  let (base, digits) := match digits with
    | '0' :: 'x' :: c :: rest => if (hexDigit? c).isSome then (16, c :: rest) else (8, digits)
    | '0' :: 'X' :: c :: rest => if (hexDigit? c).isSome then (16, c :: rest) else (8, digits)
    | '0' :: _ => (8, digits)
    | _ => (10, digits)
  let found := digits.takeWhile fun c => (hexDigit? c).any (· < base)
  if found.isEmpty then (0, text)
  else
    let n : Int := found.foldl (fun n c => n * base + (hexDigit? c).getD 0) 0
    (if negative then -n else n, digits.drop found.length)

/-- The exponent after its letter, if there is one, and what follows it. Exponents that are too large to matter are cut
down. -/
def leadingExponentOf (letters : List Char) (text : List Char) : Int × List Char :=
  match text with
  | c :: more =>
    if letters.contains c then
      let (down, digits) := match more with
        | '-' :: more => (true, more)
        | '+' :: more => (false, more)
        | more => (false, more)
      let found := digits.takeWhile Char.isDigit
      if found.isEmpty then (0, text)
      else
        let n : Nat := min 5000 (found.foldl (fun n c => n * 10 + (digit? c).getD 0) 0)
        (if down then -(n : Int) else n, digits.drop found.length)
    else (0, text)
  | [] => (0, [])

/-- A number with a fraction at the start of a text, and what follows it. -/
def leadingFraction (text : List Char) : Rat × List Char :=
  let body := text.dropWhile fun c => c = ' ' || ('\t' ≤ c && c ≤ '\r')
  let (negative, digits) := match body with
    | '-' :: rest => (true, rest)
    | '+' :: rest => (false, rest)
    | rest => (false, rest)
  let isHex := fun (c : Char) => (hexDigit? c).isSome
  let (base, digits) : Nat × List Char := match digits with
    | '0' :: x :: c :: rest =>
      if (x = 'x' || x = 'X') && (isHex c || c = '.' && (rest.head?.any isHex)) then (16, c :: rest) else (10, digits)
    | _ => (10, digits)
  let isDigit := if base = 16 then isHex else Char.isDigit
  let before := digits.takeWhile isDigit
  let rest := digits.drop before.length
  let (after, rest) := match rest with
    | '.' :: more => (more.takeWhile isDigit, more.dropWhile isDigit)
    | rest => ([], rest)
  if before.isEmpty && after.isEmpty then (0, text)
  else
    let n : Nat := (before ++ after).foldl (fun n c => n * base + (hexDigit? c).getD 0) 0
    let (e, rest) := leadingExponentOf (if base = 16 then ['p', 'P'] else ['e', 'E']) rest
    let size : Rat :=
      if base = 16 then (n : Rat) * (2 : Rat) ^ (e - 4 * (after.length : Int))
      else (n : Rat) * (10 : Rat) ^ (e - (after.length : Int))
    (if negative then -size else size, rest)

/-- A number as a word gives it. -/
inductive Quantity where
  | finite (q : Rat)
  | infinite (negative : Bool)
  /-- The word says that it is no number. -/
  | unordered
  deriving DecidableEq, Repr

/-- The number at the start of a text, and what follows it. -/
def leadingQuantity? (text : List Char) : Option (Quantity × List Char) :=
  let body := text.dropWhile fun c => c = ' ' || ('\t' ≤ c && c ≤ '\r')
  let (negative, word) := match body with
    | '-' :: rest => (true, rest)
    | '+' :: rest => (false, rest)
    | rest => (false, rest)
  let spells := fun (name : String) => name.toList.isPrefixOf (word.map Char.toLower)
  if spells "infinity" then some (.infinite negative, word.drop 8)
  else if spells "inf" then some (.infinite negative, word.drop 3)
  else if spells "nan" then some (.unordered, word.drop 3)
  else
    let (q, rest) := leadingFraction text
    if rest.length = text.length then none else some (.finite q, rest)

/-- A number as a word of the machine holds it: one that is too large is infinite, and one that is too small is zero. -/
def Quantity.held (x : Quantity) : Quantity :=
  match x with
  | .finite q =>
    let near := Binary64.nearest q
    if !near.inRange then .infinite (q < 0) else if near.mantissa = 0 then .finite 0 else x
  | x => x

/-- A number as the directive wants it, if it is no finite one, too. -/
def Directive.quantity (d : Directive) (style : FormatStyle) (x : Quantity) : List Char :=
  let named := fun (negative : Bool) (name : String) =>
    d.fit (d.signOf negative) (if d.conversion.isUpper then name.toUpper else name).toList false
  match x with
  | .finite q => d.fractional (if style = .shell then (Binary64.nearest q).toRat else q)
  | .infinite negative => named negative "inf"
  | .unordered => named false "nan"

namespace Formatting

/-- A number from the next value, with a complaint if the value is none, or if its number is too large and is cut down. -/
def number {α : Type} [BEq α] (style : FormatStyle) (zero : α) (ofNat : Nat → α) (cut : α → α)
    (read : List Char → α × List Char) (f : Formatting) : α × Formatting :=
  match f.next with
  | (none, f) => (zero, f)
  | (some value, f) =>
    match value.toList with
    | [] => (zero, f)
    | '"' :: c :: _ => (ofNat c.toNat, f)
    | '\'' :: c :: _ => (ofNat c.toNat, f)
    | chars =>
      let (full, rest) := read chars
      let n := cut full
      let shown := if style = .shell then value else Program.quotedWord value
      if n != full then (n, f.complain ("printf: " ++ shown ++ ": Numerical result out of range\n"))
      else if rest.isEmpty then (n, f)
      else if rest.length = chars.length then
        (n, f.complain ("printf: " ++ shown ++ (if style = .shell then ": expected numeric value\n" else ": expected a numeric value\n")))
      else
        (n, f.complain ("printf: " ++ shown ++ (if style = .shell then ": not completely converted\n" else ": value not completely converted\n")))

/-- The nearest whole number that a word of the machine holds, with a sign or without one: then a negative number may be as
large as a positive one, and one that is too large has no sign. -/
def heldWhole (signed : Bool) (n : Int) : Int :=
  if signed then max (-9223372036854775808) (min 9223372036854775807 n)
  else if 18446744073709551615 < n.natAbs then 18446744073709551615 else n

def nextWhole (style : FormatStyle) (signed : Bool) (f : Formatting) : Int × Formatting :=
  f.number style 0 (fun n => (n : Int)) (heldWhole signed) leadingWhole

/-- Writes a value as a directive says. -/
def direct (style : FormatStyle) (d : Directive) (f : Formatting) : Formatting :=
  let cut := fun (chars : List Char) => (d.precision.map chars.take).getD chars
  if ['d', 'i', 'o', 'u', 'x', 'X'].contains d.conversion then
    let (n, f) := f.nextWhole style (d.conversion = 'd' || d.conversion = 'i')
    f.put (d.whole n)
  else if ['e', 'f', 'g', 'E', 'F', 'G'].contains d.conversion then
    let (x, f) := f.number style (.finite 0) (fun n => .finite n) (if style = .shell then Quantity.held else id)
      fun text => (leadingQuantity? text).getD (.finite 0, text)
    f.put (d.quantity style x)
  else
    let (value, f) := f.next
    let chars := (value.getD "").toList
    match d.conversion with
    | 'c' => f.put (d.fit [] [chars.headD '\x00'] false)
    | 'b' =>
      let (chars, ended) := (if style = .shell then EscapeStyle.value else .fullValue).text chars
      { f.put (d.fit [] (cut chars) false) with ended }
    | _ => f.put (d.fit [] (cut chars) false)

/-- A number in a directive, which may be the next value. -/
def measure (style : FormatStyle) (f : Formatting) (text : List Char) : Option Int × Formatting × List Char :=
  match text with
  | '*' :: rest =>
    let (n, f) := f.nextWhole style true
    (some n, f, rest)
  | text =>
    let digits := text.takeWhile Char.isDigit
    (if digits.isEmpty then none else some (digits.foldl (fun n c => n * 10 + ((digit? c).getD 0 : Nat)) (0 : Int)), f,
      text.drop digits.length)

/-- Writes a directive, whose text follows the sign that begins it. It may make no sense. -/
def directive (style : FormatStyle) (f : Formatting) (text : List Char) : Except String (Formatting × List Char) :=
  let flags := text.takeWhile (['#', '-', '+', ' ', '0'].contains ·)
  let (width, f, rest) := f.measure style (text.drop flags.length)
  let (precision, f, rest) := match rest with
    | '.' :: rest =>
      let (n, f, rest) := f.measure style rest
      (some (n.getD 0), f, rest)
    | rest => (none, f, rest)
  let rest := if style = .shell then rest else rest.dropWhile (['h', 'l', 'j', 'z', 't', 'L'].contains ·)
  let shown := String.ofList ('%' :: text.take (text.length - rest.length + 1))
  let wrong := match style, rest with
    | .shell, [] => "printf: missing format character\n"
    | .shell, _ => "printf: " ++ shown ++ ": invalid directive\n"
    | .program, _ => "printf: " ++ shown ++ ": invalid conversion specification\n"
  match rest with
  | c :: rest =>
    if ['d', 'i', 'o', 'u', 'x', 'X', 'e', 'f', 'g', 'E', 'F', 'G', 'c', 's', 'b'].contains c then
      let width := width.getD 0
      let flags := if width < 0 then '-' :: flags else flags
      let precision := precision.bind fun n => if n < 0 then none else some n.toNat
      .ok (f.direct style ⟨flags, min width.natAbs 100000, precision.map (min 100000), c⟩, rest)
    else .error wrong
  | [] => .error wrong

/-- Writes a format once. -/
def once (style : FormatStyle) : Nat → Formatting → List Char → Formatting
  | 0, f, _ => f
  | fuel + 1, f, text =>
    if f.ended then f
    else match text with
      | [] => f
      | '%' :: '%' :: rest => once style fuel (f.put ['%']) rest
      | '%' :: rest =>
        match f.directive style rest with
        | .ok (f, rest) => once style fuel f rest
        | .error message => { f.complain message with ended := true, status := if style = .shell then 2 else 1 }
      | '\\' :: rest =>
        match (if style = .shell then EscapeStyle.format else .fullFormat).escape rest with
        | some (signs, rest) => once style fuel (f.put signs) rest
        | none => { f with ended := true }
      | c :: rest => once style fuel (f.put [c]) rest

/-- Writes a format as often as it takes to use up the values. -/
def rounds (style : FormatStyle) (text : List Char) : Nat → Formatting → Formatting
  | 0, f => f
  | fuel + 1, f =>
    let after := once style (text.length + 1) f text
    if after.ended || after.values.isEmpty then after
    else if after.values.length = f.values.length then
      if style = .program then
        { after with complaints := ("printf: warning: ignoring excess arguments, starting with " ++ Program.quotedWord (after.values.headD "") ++ "\n") :: after.complaints }
      else after
    else rounds style text fuel after

/-- A format with values: what is written, the complaints and the status. -/
def all (style : FormatStyle) (text : String) (values : List String) : String × List String × Nat :=
  let f := rounds style text.toList (values.length + 1) ⟨[], values, [], 0, false⟩
  (String.ofList f.back.reverse.flatten, f.complaints.reverse, f.status)

end Formatting

/-- Writes a format with the other arguments as values. -/
def Program.printf : Program := fun start =>
  match (match start.arguments with
    | "--" :: rest => rest
    | rest => rest) with
  | [] => start.misused "printf" "missing operand" 1
  | text :: values =>
    let (out, complaints, status) := Formatting.all .program text values
    { start.ended status with written := complaints.map (Stream.err, ·) ++ [(Stream.out, out)] }

end GatedRepair

/-!
## Programs that count and wait
-/

namespace GatedRepair.Program

open Number

/-- A number of a sequence: its value, the characters that it takes, and its places, which are not known for some. -/
structure SeqOperand where
  value : Quantity
  width : Int
  places : Option Nat

/-- The number that a word gives, or whether the word says that it is none. -/
def SeqOperand.ofWord (word : String) : Except Bool SeqOperand :=
  match leadingQuantity? word.toList with
  | some (.unordered, []) => .error true
  | some (value, []) =>
    let body := word.toList.dropWhile fun c => c = '+' || c = ' ' || ('\t' ≤ c && c ≤ '\r')
    let before := body.takeWhile (· ≠ '.')
    let isExponent := fun (c : Char) => c = 'e' || c = 'E'
    let pointed := before.length < body.length
    let isFinite := match value with
      | .finite _ => true
      | _ => false
    if body.any (fun c => c = 'x' || c = 'X') || !isFinite then
      .ok ⟨value, 0, if pointed || body.contains 'p' then none else some 0⟩
    else
      let fraction := ((body.drop (before.length + 1)).takeWhile (!isExponent ·)).length
      let places : Int := fraction
      let extra : Int := if !pointed then 0 else if fraction = 0 then -1
        else if (before.getLast?.any Char.isDigit) then 0 else 1
      let width : Int := body.length + extra
      let mantissa := body.takeWhile (!isExponent ·)
      if mantissa.length = body.length then .ok ⟨value, width, some places.toNat⟩
      else
        let (e, _) := leadingExponentOf ['e', 'E'] (body.drop mantissa.length)
        let width := width - (body.length - mantissa.length : Nat)
        if e < 0 then
          let undone : Int := if pointed then (if fraction = 0 then 1 else 0) else 1
          .ok ⟨value, width + undone + -e, some (places - e).toNat⟩
        else
          let places := places - min places e
          let point : Int := if pointed && places = 0 && fraction ≠ 0 then 1 else 0
          .ok ⟨value, width - point + (e - min (fraction : Int) e), some places.toNat⟩
  | _ => .error false

/-- How the numbers of a sequence are written: what stands before and after each, and how it is made. -/
structure SeqFormat where
  before : List Char
  after : List Char
  directive : Directive

/-- A number as the format has it. -/
def SeqFormat.number (f : SeqFormat) (q : Rat) : List Char :=
  let d := f.directive
  if d.conversion = 'f' && d.precision = some 0 && q.den = 1 then
    d.fit (d.signOf (q < 0)) q.num.natAbs.repr.toList (d.flags.contains '0')
  else d.fractional q

/-- The text up to a directive, with doubled signs taken once, and what follows the sign of the directive. -/
def upToDirective : List Char → List Char × Option (List Char)
  | [] => ([], none)
  | '%' :: '%' :: rest =>
    let (text, found) := upToDirective rest
    ('%' :: text, found)
  | '%' :: rest => ([], some rest)
  | c :: rest =>
    let (text, found) := upToDirective rest
    (c :: text, found)

/-- The format that a text spells, or what is wrong with it. -/
def SeqFormat.ofText (text : String) : Except String SeqFormat :=
  let shown := "format " ++ quotedWord text
  match upToDirective text.toList with
  | (_, none) => .error (shown ++ " has no % directive")
  | (before, some rest) =>
    let flags := rest.takeWhile (['-', '+', '#', '0', ' ', '\''].contains ·)
    let rest := rest.drop flags.length
    let width := rest.takeWhile Char.isDigit
    let rest := rest.drop width.length
    let (precision, rest) : Option (List Char) × List Char := match rest with
      | '.' :: more => (some (more.takeWhile Char.isDigit), more.dropWhile Char.isDigit)
      | rest => (none, rest)
    let number := fun (digits : List Char) => min 10000 (digits.foldl (fun n c => n * 10 + (digit? c).getD 0) 0)
    let rest := match rest with
      | 'L' :: rest => rest
      | rest => rest
    match rest with
    | [] => .error (shown ++ " ends in %")
    | c :: rest =>
      if !(['e', 'f', 'g', 'a', 'E', 'F', 'G', 'A'].contains c) then .error (shown ++ " has unknown %" ++ String.singleton c ++ " directive")
      else match upToDirective rest with
        | (after, none) => .ok ⟨before, after, ⟨flags, number width, precision.map number, c⟩⟩
        | _ => .error (shown ++ " has too many % directives")

/-- The format that the numbers themselves ask for. -/
def SeqFormat.standard (equal : Bool) (first step last : SeqOperand) : SeqFormat :=
  match first.places, step.places, last.places with
  | some a, some s, some z =>
    let places := max a s
    let firstWidth := first.width + ((places : Int) - a) + (if a = 0 && places ≠ 0 then 1 else 0)
    let lastWidth := last.width + ((places : Int) - z) + (if z ≠ 0 && places = 0 then -1 else if z = 0 && places ≠ 0 then 1 else 0)
    ⟨[], [], ⟨if equal then ['0'] else [], if equal then (max firstWidth lastWidth).toNat else 0, some places, 'f'⟩⟩
  | _, _, _ => ⟨[], [], ⟨[], 0, none, 'g'⟩⟩

/-- The most numbers that are written of a sequence without an end. -/
def seqLimit : Nat := 200000

/-- How many numbers there are from one to another; nothing if they do not end. -/
def seqCount (first step : Rat) (last : Quantity) : Option Nat :=
  match last with
  | .finite last =>
    if (if step < 0 then first < last else last < first) then some 0 else some (((last - first) / step).floor.toNat + 1)
  | .infinite negative => if negative == decide (step < 0) then none else some 0
  | .unordered => some 0

/-- The numbers of a sequence as texts. One past the end is written too, if it reads as the last one. -/
def seqTexts (f : SeqFormat) (first step : Rat) (last : Quantity) (count : Nat) : List String :=
  let text := fun (q : Rat) => String.ofList (f.before ++ f.number q ++ f.after)
  let plain := f.directive.conversion = 'f' && f.directive.precision = some 0 && f.directive.width = 0 && f.directive.flags.isEmpty &&
    f.before.isEmpty && f.after.isEmpty && first.den = 1 && step.den = 1
  let numbers := (List.range count).map fun (i : Nat) =>
    if plain then toString (first.num + (i : Int) * step.num) else text (first + (i : Rat) * step)
  let next := first + (count : Rat) * step
  let shown := f.number next
  let isExtra := count ≠ 0 && last = .finite (leadingFraction shown).1 && f.number (next - step) ≠ shown
  if isExtra && !plain then numbers ++ [text next] else numbers

/-- What the options of `seq` say. -/
structure SeqOptions where
  separator : String
  equal : Bool
  format : Option String

/-- The options of `seq` and the words after them. A word that is a number ends the options. -/
def seqOptions (o : SeqOptions) : Nat → List String → Except String (SeqOptions × List String)
  | 0, words => .ok (o, words)
  | fuel + 1, words =>
    match words with
    | "--" :: rest => .ok (o, rest)
    | word :: rest =>
      let named := fun (name : List Char) =>
        let bare := name.takeWhile (· ≠ '=')
        let value? := if bare.length < name.length then some (String.ofList (name.drop (bare.length + 1))) else none
        let withValue := fun (use : String → SeqOptions) => match value?, rest with
          | some value, _ => seqOptions (use value) fuel rest
          | none, value :: rest => seqOptions (use value) fuel rest
          | none, [] => .error ("option '" ++ word ++ "' requires an argument")
        let isStart := fun (full : String) => bare ≠ [] && bare.isPrefixOf full.toList
        if isStart "equal-width" then
          if value?.isSome then .error ("option '--equal-width' doesn't allow an argument") else seqOptions { o with equal := true } fuel rest
        else if isStart "separator" then withValue fun separator => { o with separator }
        else if isStart "format" then withValue fun format => { o with format := some format }
        else .error ("unrecognized option '" ++ word ++ "'")
      let rec letters (o : SeqOptions) : List Char → Except String (SeqOptions × Option Char)
        | [] => .ok (o, none)
        | 'w' :: more => letters { o with equal := true } more
        | c :: more =>
          if c ≠ 's' && c ≠ 'f' then .error (Options.unknownLetter c)
          else if more.isEmpty then .ok (o, some c)
          else if c = 's' then .ok ({ o with separator := String.ofList more }, none)
          else .ok ({ o with format := some (String.ofList more) }, none)
      match word.toList with
      | '-' :: '-' :: name => named name
      | '-' :: c :: more =>
        if c.isDigit || c = '.' then .ok (o, words)
        else match letters o (c :: more), rest with
          | .error e, _ => .error e
          | .ok (o, none), rest => seqOptions o fuel rest
          | .ok (o, some 's'), value :: rest => seqOptions { o with separator := value } fuel rest
          | .ok (o, some _), value :: rest => seqOptions { o with format := some value } fuel rest
          | .ok (_, some c), [] => .error (Options.valueMissing c)
      | _ => .ok (o, words)
    | [] => .ok (o, [])

/-- The first number, the step and the last number, or what is wrong with the words. -/
def seqOperands (words : List String) : Except String (SeqOperand × SeqOperand × SeqOperand) := do
  let operand := fun (word : String) => (SeqOperand.ofWord word).mapError fun isNone =>
    (if isNone then "invalid 'not-a-number' argument: " else "invalid floating point argument: ") ++ quotedWord word
  let one : SeqOperand := ⟨.finite 1, 1, some 0⟩
  match words with
  | [] => .error "missing operand"
  | [last] => return (one, one, ← operand last)
  | [first, last] => return (← operand first, one, ← operand last)
  | [first, step, last] =>
    let a ← operand first
    let s ← operand step
    if s.value = .finite 0 then .error ("invalid Zero increment value: " ++ quotedWord step)
    else return (a, s, ← operand last)
  | _ :: _ :: _ :: extra :: _ => .error ("extra operand " ++ quotedWord extra)

/-- Writes the numbers from one to another. -/
def seq : Program := fun start =>
  match seqOptions ⟨"\n", false, none⟩ (start.arguments.length + 1) start.arguments with
  | .error e => start.misused "seq" e 1
  | .ok (o, words) =>
    let format? := o.format.mapM SeqFormat.ofText
    match words, format?, seqOperands words with
    | [], _, _ => start.misused "seq" "missing operand" 1
    | _ :: _ :: _ :: extra :: _, _, _ => start.misused "seq" ("extra operand " ++ quotedWord extra) 1
    | _, .error e, _ => start.complained ("seq: " ++ e ++ "\n") 1
    | _, .ok (some _), _ =>
      if o.equal then start.misused "seq" "format string may not be specified when printing equal width strings" 1
      else finish o words (format?.toOption.getD none) start
    | _, .ok none, _ => finish o words none start
where
  /-- Writes the numbers that the words give. -/
  finish (o : SeqOptions) (words : List String) (format : Option SeqFormat) (start : Start) : Ran :=
    match seqOperands words with
    | .error e => start.misused "seq" e 1
    | .ok (first, step, last) =>
      let f := format.getD (SeqFormat.standard o.equal first step last)
      match first.value, step.value with
      | .finite a, .finite s =>
        let count := seqCount a s last.value
        let texts := seqTexts f a s last.value (min (count.getD seqLimit) 2000000)
        let ran := start.wrote (if texts.isEmpty then "" else o.separator.intercalate texts ++ "\n")
        if count.isNone then { ran with wait := endlessTime } else ran
      | _, _ => start.ended 0

/-- The microseconds that a text of seconds, perhaps with a unit, stands for. -/
def microseconds? (text : String) : Option Nat :=
  match leadingQuantity? text.toList with
  | some (value, rest) =>
    let unit : Option Nat := match rest with
      | [] => some 1
      | ['s'] => some 1
      | ['m'] => some 60
      | ['h'] => some 3600
      | ['d'] => some 86400
      | _ => none
    match unit, value with
    | some unit, .finite q => if q < 0 then none else some (q * (unit : Rat) * 1000000).ceil.toNat
    | some _, .infinite false => some endlessTime
    | _, _ => none
  | none => none

/-- Waits. -/
def sleep : Program :=
  withOptions "sleep" { letters := [], valued := [], names := [], leading := false } 1 (hintFor "sleep") fun o start =>
    let words := o.operands
    if start.arguments.isEmpty then start.misused "sleep" "missing operand" 1
    else
      let wrong := words.filter fun word => (microseconds? word).isNone
      if wrong.isEmpty then { start.ended 0 with wait := (words.filterMap microseconds?).foldl (· + ·) 0 }
      else
        start.complained (String.join (wrong.map fun word => "sleep: invalid time interval " ++ quotedWord word ++ "\n") ++ hintFor "sleep") 1

end GatedRepair.Program
