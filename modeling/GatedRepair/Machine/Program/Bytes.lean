import GatedRepair.Machine.LinePattern
import GatedRepair.Machine.Program.Basic

/-!
# Sets of bytes

A set is written with single bytes, ranges, names of classes, and bytes that are repeated.
-/

namespace GatedRepair.Program

open Number

/-- A part of a set. -/
inductive ByteItem where
  | one (c : Char)
  | range (low high : Char)
  | named (name : String) (ranges : List (Char × Char))
  | equal (c : Char)
  | many (c : Char) (count : Nat)
  /-- As often as it takes. -/
  | filler (c : Char)
  deriving Repr

namespace ByteItem

def charsBetween (low high : Char) : List Char := (List.range (high.toNat + 1 - low.toNat)).map fun i => Char.ofNat (low.toNat + i)

/-- The bytes of a part; so many of one that fills up. -/
def chars (missing : Nat) : ByteItem → List Char
  | .one c => [c]
  | .range low high => charsBetween low high
  | .named _ ranges => ranges.flatMap fun (low, high) => charsBetween low high
  | .equal c => [c]
  | .many c count => List.replicate count c
  | .filler c => List.replicate missing c

def isFiller : ByteItem → Bool
  | .filler _ => true
  | _ => false

def isNamed : ByteItem → Bool
  | .named .. => true
  | _ => false

/-- The names of the two classes that are cases of each other. -/
def case? : ByteItem → Option String
  | .named name _ => if name = "upper" || name = "lower" then some name else none
  | _ => none

end ByteItem

/-- Characters of a set, each with whether it was written with a backslash, and the remarks about them. -/
def unquoted : List Char → List (Char × Bool) × List String
  | [] => ([], [])
  | ['\\'] => ([('\\', false)], ["tr: warning: an unescaped backslash at end of string is not portable\n"])
  | '\\' :: a :: b :: c :: rest =>
    if EscapeStyle.isOctal a && EscapeStyle.isOctal b && EscapeStyle.isOctal c then
      if a ≤ '3' then
        let (more, remarks) := unquoted rest
        ((EscapeStyle.byteOf 8 [a, b, c], true) :: more, remarks)
      else
        let (more, remarks) := unquoted (c :: rest)
        let shown := fun (digits : List Char) => String.ofList digits
        ((EscapeStyle.byteOf 8 [a, b], true) :: more,
          ("tr: warning: the ambiguous octal escape \\" ++ shown [a, b, c] ++ " is being\n\tinterpreted as the 2-byte sequence \\0" ++
            shown [a, b] ++ ", " ++ shown [c] ++ "\n") :: remarks)
    else if EscapeStyle.isOctal a && EscapeStyle.isOctal b then
      let (more, remarks) := unquoted (c :: rest)
      ((EscapeStyle.byteOf 8 [a, b], true) :: more, remarks)
    else
      let (more, remarks) := unquoted (b :: c :: rest)
      ((letter a, true) :: more, remarks)
  | ['\\', a, b] =>
    if EscapeStyle.isOctal a && EscapeStyle.isOctal b then ([(EscapeStyle.byteOf 8 [a, b], true)], [])
    else
      let (more, remarks) := unquoted [b]
      ((letter a, true) :: more, remarks)
  | ['\\', a] => ([(letter a, true)], [])
  | c :: rest =>
    let (more, remarks) := unquoted rest
    ((c, false) :: more, remarks)
where
  /-- What a backslash makes of one character. -/
  letter (c : Char) : Char :=
    if EscapeStyle.isOctal c then EscapeStyle.byteOf 8 [c] else if c = 'e' then c else (EscapeStyle.simple? c).getD c

/-- The bytes up to a sign and a closing bracket, and what follows. -/
def upToSign? (sign : Char) : List (Char × Bool) → Option (List Char × List (Char × Bool))
  | [] => none
  | [_] => none
  | c :: d :: rest =>
    if c = (sign, false) && d = (']', false) then some ([], rest)
    else (upToSign? sign (d :: rest)).map fun (name, rest) => (c.1 :: name, rest)

/-- The digits of a repetition after its asterisk, and what follows the closing bracket. -/
def repeatDigits? : List (Char × Bool) → Option (List Char × List (Char × Bool))
  | (']', false) :: rest => some ([], rest)
  | (c, false) :: rest => (repeatDigits? rest).map fun (digits, rest) => (c :: digits, rest)
  | _ => none

/-- The number that digits spell; a zero in front means that they are octal. -/
def countNumber? (digits : List Char) : Option Nat :=
  let base := if digits.head? = some '0' then 8 else 10
  if digits.all fun c => (digit? c).any (· < base) then some (digits.foldl (fun n c => base * n + (digit? c).getD 0) 0) else none

/-- A repeated byte after an opening bracket, and what follows it. -/
def repeated? (text : List (Char × Bool)) : Except String (Option (ByteItem × List (Char × Bool))) :=
  match text with
  | (c, _) :: ('*', false) :: rest =>
    match repeatDigits? rest with
    | none => .ok none
    | some (digits, rest) => match countNumber? digits with
      | some 0 => .ok (some (.filler c, rest))
      | some n => .ok (some (.many c n, rest))
      | none => .error ("invalid repeat count " ++ quotedWord (String.ofList digits) ++ " in [c*n] construct")
  | _ => .ok none

/-- A byte as it is shown in a complaint. -/
def byteShown (c : Char) : String :=
  if ' ' ≤ c && c ≤ '~' then String.singleton c
  else "\\" ++ String.ofList (List.replicate (3 - (Nat.toDigits 8 c.toNat).length) '0' ++ Nat.toDigits 8 c.toNat)

/-- A class or a byte that stands for its equals, after an opening bracket and a sign, and what follows; nothing if it may be a
repeated byte. -/
def signed? (sign : Char) (text : List (Char × Bool)) : Except String (Option (ByteItem × List (Char × Bool))) :=
  match upToSign? sign text with
  | none => .ok none
  | some (name, rest) =>
    let perhapsRepeated : Bool := match text with
      | ('*', false) :: digits => (digits.dropWhile fun d => d.1.isDigit && !d.2).head? = some (']', false)
      | _ => false
    let shown := String.join (name.map byteShown)
    if name.isEmpty then
      .error (if sign = ':' then "missing character class name '[::]'" else "missing equivalence class character '[==]'")
    else if sign = ':' then
      match Shell.Glob.classOf? name with
      | some ranges => .ok (some (.named (String.ofList name) ranges, rest))
      | none => if perhapsRepeated then .ok none else .error ("invalid character class " ++ quotedWord shown)
    else match name with
      | [c] => .ok (some (.equal c, rest))
      | _ =>
        if perhapsRepeated then .ok none
        else .error (shown ++ ": equivalence class operand must be a single character")

/-- The parts of a set. -/
def byteItems : Nat → List (Char × Bool) → Except String (List ByteItem)
  | 0, _ => .ok []
  | fuel + 1, text =>
    match text with
    | [] => .ok []
    | c :: rest =>
      if text.length < 3 then .ok (text.map fun d => .one d.1)
      else do
        let found ← if c = ('[', false) then
            match rest with
            | (':', false) :: more => do pure ((← signed? ':' more).or (← repeated? rest))
            | ('=', false) :: more => do pure ((← signed? '=' more).or (← repeated? rest))
            | _ => repeated? rest
          else pure none
        match found, rest with
        | some (item, rest), _ => return item :: (← byteItems fuel rest)
        | none, ('-', false) :: d :: rest =>
          if d.1 < c.1 then
            .error ("range-endpoints of '" ++ byteShown c.1 ++ "-" ++ byteShown d.1 ++ "' are in reverse collating sequence order")
          else return .range c.1 d.1 :: (← byteItems fuel rest)
        | none, rest => return .one c.1 :: (← byteItems fuel rest)

/-- The parts of the set that an operand names, and the remarks about it. -/
def byteSetOf (operand : String) : Except String (List ByteItem) × List String :=
  let (text, remarks) := unquoted operand.toList
  (byteItems (text.length + 1) text, remarks)

end GatedRepair.Program

/-!
## Changing single bytes

The bytes of one set become those of another at the same places, or bytes are taken out, or neighbours that are equal become
one.
-/

namespace GatedRepair.Program

/-- All bytes. -/
def allBytes : List Char := ByteItem.charsBetween '\x00' '\xff'

/-- What tells whether a byte is in a set. -/
def membership (set : List Char) : Char → Bool :=
  let table := set.foldl (fun (table : Array Bool) c => table.setIfInBounds c.toNat true) (Array.replicate 256 false)
  fun c => table[c.toNat]?.getD false

/-- Neighbouring copies of a character that has a property become one. -/
def squeezed (has : Char → Bool) (text : List Char) : List Char :=
  (text.foldl (fun back c => if back.head? = some c && has c then back else c :: back) []).reverse

/-- A byte of the first set; at the start of a class that is a case, the name of the class and how many bytes it has. -/
abbrev Source := Char × Option (String × Nat)

def sources (item : ByteItem) : List Source :=
  let chars := item.chars 0
  match item.case?, chars with
  | some name, c :: more => (c, some (name, chars.length)) :: more.map (·, none)
  | _, _ => chars.map (·, none)

/-- A byte of the second set, or the name of a class that is a case. -/
inductive Target where
  | char (c : Char)
  | case (name : String)

def targets (missing : Nat) (item : ByteItem) : List Target :=
  match item.case? with
  | some name => [.case name]
  | none => (item.chars missing).map .char

/-- The pairs that turn one case into another. -/
def casePairs (source target : String) : List (Char × Char) :=
  if source = target then []
  else if source = "lower" then (ByteItem.charsBetween 'a' 'z').map fun c => (c, c.toUpper)
  else (ByteItem.charsBetween 'A' 'Z').map fun c => (c, c.toLower)

/-- What each byte becomes, and the bytes that are left over in the first set. Classes that are cases stand at the same
places. -/
def pairUp : List Source → List Target → Except String (List (Char × Char) × List Source)
  | sources, [] => .ok ([], sources)
  | (c, some (name, size)) :: sources, .case target :: more => do
    let (pairs, left) ← pairUp (sources.drop (size - 1)) more
    return ((if name = target then [(c, c)] else casePairs name target) ++ pairs, left)
  | _, .case _ :: _ => .error "misaligned [:upper:] and/or [:lower:] construct"
  | [], _ => .ok ([], [])
  | (c, _) :: sources, .char d :: more => do
    let (pairs, left) ← pairUp sources more
    return ((c, d) :: pairs, left)

/-- The byte that the bytes which are left over become. -/
def lastTarget (items : List ByteItem) : Except String Char :=
  match items.getLast? with
  | none => .error "when not truncating set1, string2 must be non-empty"
  | some item =>
    if item.isNamed then .error "when translating with string1 longer than string2,\nthe latter string must not end with a character class"
    else match item with
      | .filler c => .ok c
      | item => match (item.chars 0).getLast? with
        | some c => .ok c
        | none => .error "when not truncating set1, string2 must be non-empty"

/-- What each byte becomes. The first set may stand for all other bytes, and may be cut to the length of the second. -/
def bytePairs (complemented cutting : Bool) (first second : List ByteItem) : Except String (List (Char × Char)) := do
  let written := first.flatMap (·.chars 0)
  let source : List Source :=
    if complemented then
      let has := membership written
      (allBytes.filter fun c => !has c).map (·, none)
    else first.flatMap sources
  let missing := source.length - (second.flatMap (·.chars 0)).length
  if 1 < (second.filter (·.isFiller)).length then .error "only one [c*] repeat construct may appear in string2"
  if second.any fun | .equal _ => true | _ => false then .error "[=c=] expressions may not appear in string2 when translating"
  if second.any fun item => item.isNamed && item.case?.isNone then
    .error "when translating, the only character classes that may appear in\nstring2 are 'upper' and 'lower'"
  let target : List Target :=
    if complemented then (second.flatMap (·.chars missing)).map .char else second.flatMap (targets missing)
  let (pairs, left) ← pairUp source target
  let pairs ← if left.isEmpty || cutting then .ok pairs
    else (lastTarget second).map fun last => pairs ++ left.map fun s => (s.1, last)
  let size := (second.flatMap (·.chars missing)).length
  let uniform := size ≤ source.length && pairs.all fun p => some p.2 = pairs.head?.map (·.2)
  if complemented && first.any (·.isNamed) && !uniform then
    .error "when translating with complemented character classes,\nstring2 must map all characters in the domain to one"
  return pairs

/-- What is done with the bytes of the input. -/
def byteChange (o : Options) (first : List ByteItem) (second : Option (List ByteItem)) : Except String (List Char → List Char) := do
  if first.any (·.isFiller) then .error "the [c*] repeat construct may not appear in string1"
  let complemented := o.has 'c' || o.has 'C'
  let written := membership (first.flatMap (·.chars 0))
  let isMeant := fun (c : Char) => written c != complemented
  match o.has 'd', o.has 's', second with
  | true, _, none => return (·.filter fun c => !isMeant c)
  | false, _, none => return squeezed isMeant
  | true, _, some items =>
    if items.any (·.isFiller) then .error "the [c*] construct may appear in string2 only when translating"
    let has := membership (items.flatMap (·.chars 0))
    return fun input => squeezed has (input.filter fun c => !isMeant c)
  | false, squeezing, some items =>
    let pairs ← bytePairs complemented (o.has 't') first items
    let table := pairs.foldl (fun (table : Array Char) (c, d) => table.setIfInBounds c.toNat d) allBytes.toArray
    let changed := fun (input : List Char) => input.map fun c => table[c.toNat]?.getD c
    let has := membership (pairs.map (·.2) ++ items.flatMap (·.chars 0))
    return fun input => if squeezing then squeezed has (changed input) else changed input

/-- Changes, removes or joins single bytes of the input. -/
def tr : Program :=
  withOptions "tr"
    { letters := ['c', 'C', 'd', 's', 't'], valued := []
      names := [("complement", 'c'), ("delete", 'd'), ("squeeze-repeats", 's'), ("truncate-set1", 't')], leading := true }
    1 (hintFor "tr") fun o start =>
    let deleting := o.has 'd'
    let squeezing := o.has 's'
    let least := if deleting == squeezing then 2 else 1
    let most := if deleting && !squeezing then 1 else 2
    match o.operands with
    | [] => start.misused "tr" "missing operand" 1
    | first :: more =>
      if o.operands.length < least then
        start.complained ("tr: missing operand after " ++ quotedWord first ++ "\n" ++
          (if deleting then "Two strings must be given when both deleting and squeezing repeats.\n"
            else "Two strings must be given when translating.\n") ++ hintFor "tr") 1
      else match o.operands[most]? with
        | some extra =>
          start.complained ("tr: extra operand " ++ quotedWord extra ++ "\n" ++
            (if o.operands.length = 2 then "Only one string may be given when deleting without squeezing repeats.\n" else "") ++ hintFor "tr") 1
        | none =>
          let (source, remarks) := byteSetOf first
          let second : Option (Except String (List ByteItem) × List String) := more.head?.map byteSetOf
          let remarks := remarks ++ (if source.toOption.isSome then (second.map (·.2)).getD [] else [])
          let change := source.bind fun source => match second with
            | none => byteChange o source none
            | some (target, _) => target.bind fun target => byteChange o source (some target)
          match change with
          | .error message => start.complained (String.join remarks ++ "tr: " ++ message ++ "\n") 1
          | .ok change =>
            if let some e := start.trouble then
              start.complained (String.join remarks ++ "tr: read error: " ++ e.words ++ "\n") 1
            else
            { start.ended 0 with
              written := remarks.map (Stream.err, ·) ++ [(Stream.out, String.ofList (change start.input.toList))], rest := "" }

end GatedRepair.Program
