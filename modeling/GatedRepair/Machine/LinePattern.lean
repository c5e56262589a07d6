import GatedRepair.Text.Lines

/-!
# Patterns for names and for lines
-/

/-!
## Patterns for names

In a pattern an asterisk stands for any text, a question mark for any character, and brackets for one of several
characters. A character that is quoted stands for itself.
-/

namespace GatedRepair.Shell

/-- A character, and whether it is quoted. -/
abbrev Mark := Char × Bool

/-- One part of a pattern. -/
inductive Glob where
  | exactly (c : Char)
  /-- Any text. -/
  | anything
  /-- Any character. -/
  | anyone
  /-- One of the characters between the bounds, or none of them. -/
  | set (negated : Bool) (ranges : List (Char × Char))
  deriving DecidableEq, Repr

namespace Glob

/-- The characters of the classes that have names. -/
def classOf? (name : List Char) : Option (List (Char × Char)) :=
  match String.ofList name with
  | "alpha" => some [('A', 'Z'), ('a', 'z')]
  | "digit" => some [('0', '9')]
  | "alnum" => some [('0', '9'), ('A', 'Z'), ('a', 'z')]
  | "upper" => some [('A', 'Z')]
  | "lower" => some [('a', 'z')]
  | "space" => some [('\t', '\r'), (' ', ' ')]
  | "blank" => some [('\t', '\t'), (' ', ' ')]
  | "punct" => some [('!', '/'), (':', '@'), ('[', '`'), ('\x7b', '~')]
  | "xdigit" => some [('0', '9'), ('A', 'F'), ('a', 'f')]
  | "print" => some [(' ', '~')]
  | "graph" => some [('!', '~')]
  | "cntrl" => some [('\x00', '\x1f'), ('\x7f', '\x7f')]
  | _ => none

/-- The ranges of a set after its opening bracket, and what follows the closing one. -/
def ranges? (first : Bool) : Nat → List Mark → Option (List (Char × Char) × List Mark)
  | 0, _ => none
  | fuel + 1, marks =>
    match marks with
    | [] => none
    | (']', false) :: rest => if first then more fuel ']' rest else some ([], rest)
    | ('[', false) :: (':', false) :: rest =>
      let name := (rest.takeWhile fun m => m.1.isAlpha).map (·.1)
      match classOf? name, rest.drop name.length with
      | some found, (':', _) :: (']', _) :: rest =>
        (ranges? false fuel rest).map fun (ranges, rest) => (found ++ ranges, rest)
      | _, _ => more fuel '[' ((':', false) :: rest)
    | (c, _) :: rest => more fuel c rest
where
  /-- The ranges from one that begins with a character. -/
  more (fuel : Nat) (c : Char) (rest : List Mark) : Option (List (Char × Char) × List Mark) :=
    match rest with
    | ('-', false) :: (d, quoted) :: rest =>
      if d = ']' && !quoted then (ranges? false fuel (('-', true) :: (d, quoted) :: rest)).map fun (ranges, rest) => ((c, c) :: ranges, rest)
      else (ranges? false fuel rest).map fun (ranges, rest) => ((c, d) :: ranges, rest)
    | rest => (ranges? false fuel rest).map fun (ranges, rest) => ((c, c) :: ranges, rest)

/-- The pattern that characters make. -/
def ofMarks : Nat → List Mark → List Glob
  | 0, _ => []
  | fuel + 1, marks =>
    match marks with
    | [] => []
    | ('*', false) :: rest => anything :: ofMarks fuel rest
    | ('?', false) :: rest => anyone :: ofMarks fuel rest
    | ('\\', false) :: (c, _) :: rest => exactly c :: ofMarks fuel rest
    | ('[', false) :: rest =>
      let (negated, body) := match rest with
        | ('!', false) :: body => (true, body)
        | ('^', false) :: body => (true, body)
        | body => (false, body)
      match ranges? true (body.length + 1) body with
      | some (ranges, rest) => set negated ranges :: ofMarks fuel rest
      | none => exactly '[' :: ofMarks fuel rest
    | (c, _) :: rest => exactly c :: ofMarks fuel rest

/-- The pattern accepts a character. -/
def accepts (g : Glob) (c : Char) : Bool :=
  match g with
  | exactly d => c = d
  | anything => true
  | anyone => true
  | set negated ranges => (ranges.any fun (low, high) => low ≤ c && c ≤ high) != negated

/-- The positions after which a text can go on, when it can stand so far: which of the rests of a pattern match from
here. An element tells of the pattern from there on. -/
def rests : List Glob → List (List Glob)
  | [] => [[]]
  | anything :: more => (anything :: more) :: rests more
  | g :: more => [g :: more]

/-- The rests of patterns after one more character. Of equal rests one is kept. -/
def advance (states : List (List Glob)) (c : Char) : List (List Glob) :=
  (states.flatMap fun
    | [] => []
    | anything :: more => rests (anything :: more)
    | g :: more => if g.accepts c then rests more else []).foldl
    (fun kept state => if kept.any (·.length = state.length) then kept else state :: kept) []

/-- The pattern matches a text as a whole. -/
def fits (pattern : List Glob) (text : List Char) : Bool := (text.foldl advance (rests pattern)).any (·.isEmpty)

/-- The pattern has parts that stand for several texts. -/
def isOpen (pattern : List Glob) : Bool := pattern.any fun
  | exactly _ => false
  | _ => true

end Glob

/-- The pattern that marked characters make. -/
def globOf (marks : List Mark) : List Glob := Glob.ofMarks (marks.length + 1) marks

end GatedRepair.Shell

/-!
## Patterns for lines

From a place in a line a pattern can end at several places, and all of them are found. What a group matched is remembered
only as long as the pattern asks for it again.
-/

namespace GatedRepair

inductive LinePattern where
  | empty
  /-- One of the characters between the bounds, or none of them. -/
  | set (negated : Bool) (ranges : List (Char × Char))
  | sequence (first second : LinePattern)
  | either (first second : LinePattern)
  /-- As often as the bounds say. -/
  | many (body : LinePattern) (least : Nat) (most : Option Nat)
  /-- What is matched is remembered under a number. -/
  | group (n : Nat) (body : LinePattern)
  /-- The text that was remembered under a number. -/
  | again (n : Nat)
  | lineStart
  | lineEnd
  /-- Where a word begins, ends, or does one of both, or neither. -/
  | wordStart
  | wordEnd
  | wordEdge
  | noWordEdge
  deriving Repr

namespace LinePattern

def exactly (c : Char) : LinePattern := .set false [(c, c)]

def wordRanges : List (Char × Char) := [('0', '9'), ('A', 'Z'), ('_', '_'), ('a', 'z')]

def blankRanges : List (Char × Char) := [('\t', '\r'), (' ', ' ')]

/-- The pattern for a text itself. -/
def ofText (text : List Char) : LinePattern := text.foldr (fun c p => .sequence (exactly c) p) .empty

/-- The pattern asks for something that was remembered. -/
def asksAgain : LinePattern → Bool
  | .again _ => true
  | .sequence first second => first.asksAgain || second.asksAgain
  | .either first second => first.asksAgain || second.asksAgain
  | .many body _ _ => body.asksAgain
  | .group _ body => body.asksAgain
  | _ => false

/-- The same pattern, with nothing remembered. -/
def forgetting : LinePattern → LinePattern
  | .sequence first second => .sequence first.forgetting second.forgetting
  | .either first second => .either first.forgetting second.forgetting
  | .many body least most => .many body.forgetting least most
  | .group _ body => body.forgetting
  | p => p

def isWordChar (c : Char) : Bool := c.isAlphanum || c == '_'

/-- There is a character of a word at a place. -/
def wordAt (row : Array Char) (i : Nat) : Bool := (row[i]?.map isWordChar).getD false

/-- There is a character of a word before a place. -/
def wordBefore (line : Array Char) (i : Nat) : Bool := 0 < i && wordAt line (i - 1)

/-- A character is in one of the ranges; if case does not count, so may be its other case. -/
def inRanges (anyCase : Bool) (ranges : List (Char × Char)) (c : Char) : Bool :=
  let within := fun (c : Char) => ranges.any fun (low, high) => low ≤ c && c ≤ high
  within c || anyCase && (within c.toLower || within c.toUpper)

/-- A place in a line, with where the texts begin and end that are remembered. -/
structure Place where
  stop : Nat
  groups : List (Nat × Nat × Nat)
  deriving DecidableEq

/-- Each place once. -/
def distinct (places : List Place) : List Place := places.foldl (fun kept p => if kept.contains p then kept else p :: kept) []

/-- The places that can be reached by so many steps at most, and those that were reached. -/
def closure (step : Place → List Place) : Nat → List Place → List Place → List Place
  | 0, reached, _ => reached
  | fuel + 1, reached, fresh =>
    let next := (distinct (fresh.flatMap step)).filter fun p => !reached.contains p
    if next.isEmpty then reached else closure step fuel (next ++ reached) next

/-- Equal characters, if need be in either case. -/
def sameText (anyCase : Bool) (a b : Array Char) : Bool :=
  if anyCase then a.map Char.toLower == b.map Char.toLower else a == b

/-- The places where the pattern can end when it begins at a place. -/
def ends (anyCase : Bool) (row : Array Char) : LinePattern → Place → List Place
  | .empty, p => [p]
  | .set negated ranges, p => match row[p.stop]? with
    | some c => if inRanges anyCase ranges c != negated then [{ p with stop := p.stop + 1 }] else []
    | none => []
  | .sequence first second, p => distinct ((ends anyCase row first p).flatMap (ends anyCase row second))
  | .either first second, p => distinct (ends anyCase row first p ++ ends anyCase row second p)
  | .many body least most, p =>
    let step := ends anyCase row body
    let begun := (List.range least).foldl (fun places _ => distinct (places.flatMap step)) [p]
    closure step ((most.map (· - least)).getD (row.size + 1)) begun begun
  | .group n body, p => (ends anyCase row body p).map fun q =>
    { q with groups := (n, p.stop, q.stop) :: q.groups.filter (·.1 ≠ n) }
  | .again n, p => match p.groups.find? (·.1 = n) with
    | some (_, start, stop) =>
      let size := stop - start
      if sameText anyCase (row.extract start stop) (row.extract p.stop (p.stop + size)) then [{ p with stop := p.stop + size }]
      else []
    | none => []
  | .lineStart, p => if p.stop = 0 then [p] else []
  | .lineEnd, p => if p.stop = row.size then [p] else []
  | .wordStart, p => if wordAt row p.stop && !wordBefore row p.stop then [p] else []
  | .wordEnd, p => if wordBefore row p.stop && !wordAt row p.stop then [p] else []
  | .wordEdge, p => if wordBefore row p.stop != wordAt row p.stop then [p] else []
  | .noWordEdge, p => if wordBefore row p.stop == wordAt row p.stop then [p] else []

end LinePattern

end GatedRepair

/-!
### Searching lines

The first part of a line that a pattern matches is the longest one from where it begins, and its groups match as much as
they can, the first group first.
-/

namespace GatedRepair.LinePattern

/-- The text that a group matched, if it did. -/
def Place.group? (p : Place) (n : Nat) : Option (Nat × Nat) := p.groups.lookup n

/-- The first of two places that begin together is the better one. -/
def Place.isBetter (p q : Place) : Bool :=
  if p.stop ≠ q.stop then q.stop < p.stop
  else
    let size := fun (p : Place) (n : Nat) => ((p.group? n).map fun (first, stop) => stop - first + 1).getD 0
    match [1, 2, 3, 4, 5, 6, 7, 8, 9].find? fun n => size p n ≠ size q n with
    | some n => size q n < size p n
    | none => false

/-- The best of some places. -/
def Place.best? (places : List Place) : Option Place :=
  places.foldl (fun best p => match best with
    | some q => if p.isBetter q then some p else some q
    | none => some p) none

/-- The best match that begins at a place. -/
def matchAt? (p : LinePattern) (anyCase : Bool) (line : Array Char) (i : Nat) : Option Place :=
  Place.best? (p.ends anyCase line ⟨i, []⟩)

/-- Where the first match from a place on begins, and the match. -/
def search? (p : LinePattern) (anyCase : Bool) (line : Array Char) (start : Nat) : Option (Nat × Place) :=
  ((List.range (line.size + 1 - start)).map (start + ·)).findSome? fun i =>
    (p.matchAt? anyCase line i).map fun place => (i, place)

end GatedRepair.LinePattern

/-!
## Sets of characters in brackets
-/

namespace GatedRepair.LinePattern

def unmatchedBracket : String := "Unmatched [, [^, [:, [., or [="

/-- One thing in brackets. -/
inductive SetItem where
  | char (c : Char)
  | ranges (ranges : List (Char × Char))

/-- The name that stands between a sign and the same sign with a closing bracket, and what follows. -/
def signedName? (sign : Char) : List Char → Option (List Char × List Char)
  | [] => none
  | [_] => none
  | c :: d :: rest =>
    if c = sign && d = ']' then some ([], rest) else (signedName? sign (d :: rest)).map fun (name, rest) => (c :: name, rest)

/-- The first thing in a text that goes on in brackets. A hyphen that is not the first one must be the last. -/
def setItem (hyphen : Bool) (text : List Char) : Except String (SetItem × List Char) :=
  match text with
  | [] => .error unmatchedBracket
  | '[' :: ':' :: rest => match signedName? ':' rest with
    | none => .error unmatchedBracket
    | some (name, rest) => match Shell.Glob.classOf? name with
      | some ranges => .ok (.ranges ranges, rest)
      | none => .error "Invalid character class name"
  | '[' :: '.' :: rest => single '.' rest
  | '[' :: '=' :: rest => single '=' rest
  | '-' :: c :: rest => if hyphen || c = ']' then .ok (.char '-', c :: rest) else .error "Invalid range end"
  | c :: rest => .ok (.char c, rest)
where
  /-- A character that is named by itself. -/
  single (sign : Char) (rest : List Char) : Except String (SetItem × List Char) :=
    match signedName? sign rest with
    | none => .error unmatchedBracket
    | some ([c], rest) => .ok (.char c, rest)
    | some _ => .error "Invalid collation character"

/-- The ranges up to the closing bracket, after those before, the characters that stand alone, backwards, and what follows. -/
def setItems : Nat → Bool → List (Char × Char) → Option (List Char) → List Char →
    Except String (List (Char × Char) × Option (List Char) × List Char)
  | 0, _, _, _, _ => .error unmatchedBracket
  | fuel + 1, first, ranges, plain, text =>
    match text, first with
    | ']' :: rest, false => .ok (ranges, plain, rest)
    | text, first => do
      let (item, rest) ← setItem first text
      let isRange := match rest with
        | '-' :: ']' :: _ => false
        | '-' :: _ => true
        | _ => false
      if isRange then
        let (last, rest) ← setItem true (rest.drop 1)
        match item, last with
        | .char low, .char high =>
          if high < low then .error "Invalid range end" else setItems fuel false ((low, high) :: ranges) none rest
        | _, _ => .error "Invalid range end"
      else
        match item with
        | .char c => setItems fuel false ((c, c) :: ranges) (plain.map (c :: ·)) rest
        | .ranges found => setItems fuel false (found ++ ranges) none rest

/-- A set after its opening bracket, what follows, and whether it looks as if the name of a class was meant. -/
def bracket (text : List Char) : Except String (LinePattern × Bool × List Char) := do
  let (negated, body) := match text with
    | '^' :: body => (true, body)
    | body => (false, body)
  if body.isEmpty then .error "Invalid regular expression"
  let (ranges, plain, rest) ← setItems (body.length + 1) true [] (some []) body
  let named := match plain with
    | some back => back.head? = some ':' && back.getLast? = some ':' && back.any (· ≠ ':')
    | none => false
  return (.set negated ranges, named, rest)

/-!
## Reading patterns

A pattern is written in the plain or in the extended way, which differ in the signs that need a backslash. A sign of
repetition that has nothing before it is a character in the plain way, and left out with a remark in the extended one.
-/

/-- How patterns are written. -/
inductive Style where
  | plain
  | extended
  deriving DecidableEq

/-- What has been read: how many groups were begun, which ones are complete, what was remarked, backwards, and whether a
set looks as if the name of a class was meant. -/
structure Notes where
  begun : Nat := 0
  complete : List Nat := []
  remarks : List String := []
  confusing : Bool := false

/-- A pattern that was read, what follows it, and what was noted. -/
abbrev Reading := LinePattern × List Char × Notes

/-- The largest number of repetitions. -/
def mostRepetitions : Nat := 32767

/-- What ends a bound of a repetition. -/
inductive BoundEnd where
  | comma
  | brace
  | nothing

/-- A bound of a repetition. -/
inductive Bound where
  | missing
  | wrong
  | number (n : Nat)

/-- A bound, what ends it, and what follows. -/
def readBound (style : Style) (bound : Bound) : List Char → Bound × BoundEnd × List Char
  | [] => (.wrong, .nothing, [])
  | c :: rest =>
    match style, c, rest with
    | .extended, '\x7d', rest => (bound, .brace, rest)
    | .plain, '\\', '\x7d' :: rest => (bound, .brace, rest)
    | _, ',', rest => (bound, .comma, rest)
    | _, _, _ =>
      let bound := match bound, c.isDigit with
        | .missing, true => Bound.number (c.toNat - 48)
        | .number n, true => .number (min (mostRepetitions + 1) (10 * n + (c.toNat - 48)))
        | _, _ => .wrong
      readBound style bound rest

/-- The bounds of a repetition, after the opening brace, and what follows the sign that closes it. If they are not bounds,
the brace can be text in the extended way. -/
def bounds (style : Style) (text : List Char) : Except String (Option (Nat × Option Nat × List Char)) :=
  let wrong := Except.error "Invalid content of \\\x7b\\\x7d"
  let unreadable := fun (ending : BoundEnd) => match style, ending with
    | .extended, _ => Except.ok none
    | .plain, .nothing => .error "Unmatched \\\x7b"
    | .plain, _ => wrong
  let finish := fun (least : Nat) (most : Option Nat) (rest : List Char) =>
    if most.any (· < least) then wrong
    else if mostRepetitions < most.getD least then Except.error "Regular expression too big"
    else .ok (some (least, most, rest))
  let upper := fun (least : Nat) (rest : List Char) => match readBound style .missing rest with
    | (.wrong, ending, _) => unreadable ending
    | (.missing, .brace, rest) => finish least none rest
    | (.number n, .brace, rest) => finish least (some n) rest
    | _ => wrong
  match readBound style .missing text with
  | (.wrong, ending, _) => unreadable ending
  | (.missing, .comma, rest) => upper 0 rest
  | (.missing, _, _) => wrong
  | (.number n, .comma, rest) => upper n rest
  | (.number n, _, rest) => finish n (some n) rest

/-- The repetition that stands at the start of a text: its bounds, and what follows. A wrong one is an error, unless it can
be text. -/
def repetition? (style : Style) (text : List Char) : Except String (Option (Nat × Option Nat × List Char)) :=
  match style, text with
  | _, '*' :: rest => .ok (some (0, none, rest))
  | .extended, '+' :: rest => .ok (some (1, none, rest))
  | .extended, '?' :: rest => .ok (some (0, some 1, rest))
  | .plain, '\\' :: '+' :: rest => .ok (some (1, none, rest))
  | .plain, '\\' :: '?' :: rest => .ok (some (0, some 1, rest))
  | .extended, '\x7b' :: rest => bounds .extended rest
  | .plain, '\\' :: '\x7b' :: rest => bounds .plain rest
  | _, _ => .ok none

/-- A pattern with the repetitions that follow it. -/
def repeated (style : Style) : Nat → LinePattern → List Char → Except String (LinePattern × List Char)
  | 0, p, text => .ok (p, text)
  | fuel + 1, p, text => do
    match ← repetition? style text with
    | some (least, most, rest) => repeated style fuel (.many p least most) rest
    | none => return (p, text)

/-- What is left when a repetition with nothing before it is left out, and the sign that the remark shows. -/
def vainRepetition? (text : List Char) : Option (String × List Char) :=
  match text with
  | '*' :: rest => some ("*", rest)
  | '+' :: rest => some ("+", rest)
  | '?' :: rest => some ("?", rest)
  | '\x7b' :: rest => match bounds .extended rest with
    | .ok (some (_, _, rest)) => some ("\x7b...\x7d", rest)
    | _ => none
  | _ => none

/-- What a backslash in front of a character means, unless it is the character. -/
def escaped? (c : Char) : Option LinePattern :=
  match c with
  | 'w' => some (.set false wordRanges)
  | 'W' => some (.set true wordRanges)
  | 's' => some (.set false blankRanges)
  | 'S' => some (.set true blankRanges)
  | 'b' => some .wordEdge
  | 'B' => some .noWordEdge
  | '<' => some .wordStart
  | '>' => some .wordEnd
  | '`' => some .lineStart
  | '\'' => some .lineEnd
  | _ => none

/-- The text goes on with the end of a group or of an alternative, or ends. -/
def isBoundary (style : Style) (depth : Nat) (text : List Char) : Bool :=
  match style, text with
  | _, [] => true
  | .plain, '\\' :: ')' :: _ => true
  | .plain, '\\' :: '|' :: _ => true
  | .extended, ')' :: _ => 0 < depth
  | .extended, '|' :: _ => true
  | _, _ => false

mutual

/-- A pattern with its alternatives. -/
def readAll (style : Style) : Nat → Nat → List Char → Notes → Except String Reading
  | 0, _, _, _ => .error "Regular expression too big"
  | fuel + 1, depth, text, notes => do
    let (first, rest, notes) ← readSequence style fuel depth true .empty text notes
    match style, rest with
    | .plain, '\\' :: '|' :: rest =>
      let (second, rest, notes) ← readAll style fuel depth rest notes
      return (.either first second, rest, notes)
    | .extended, '|' :: rest =>
      let (second, rest, notes) ← readAll style fuel depth rest notes
      return (.either first second, rest, notes)
    | _, rest => return (first, rest, notes)

/-- Further parts after those before, up to the end of a group or of an alternative. -/
def readSequence (style : Style) : Nat → Nat → Bool → LinePattern → List Char → Notes → Except String Reading
  | 0, _, _, _, _, _ => .error "Regular expression too big"
  | fuel + 1, depth, atStart, before, text, notes => do
    let goOn := fun (p : LinePattern) (rest : List Char) (notes : Notes) => do
      let (p, rest) ← repeated style rest.length p rest
      readSequence style fuel depth false (.sequence before p) rest notes
    let group := fun (rest : List Char) => do
      let n := notes.begun + 1
      let (body, rest, notes) ← readAll style fuel (depth + 1) rest { notes with begun := n }
      let close := fun (rest : List Char) => goOn (.group n body) rest { notes with complete := n :: notes.complete }
      match style, rest with
      | .plain, '\\' :: ')' :: rest => close rest
      | .extended, ')' :: rest => close rest
      | _, _ => .error "Unmatched ( or \\("
    let start := fun (rest : List Char) => readSequence style fuel depth true (.sequence before .lineStart) rest notes
    if isBoundary style depth text then
      match depth, style, text with
      | 0, .plain, '\\' :: ')' :: _ => .error "Unmatched ) or \\)"
      | _, _, _ => return (before, text, notes)
    else
      match (if atStart && style = .extended then vainRepetition? text else none) with
      | some (sign, rest) =>
        readSequence style fuel depth true before rest
          { notes with remarks := (sign ++ " at start of expression") :: notes.remarks }
      | none =>
        match style, text with
        | .plain, '\\' :: '(' :: rest => group rest
        | .extended, '(' :: rest => group rest
        | .extended, '^' :: rest => if atStart then start rest else goOn .lineStart rest notes
        | .extended, '$' :: rest => goOn .lineEnd rest notes
        | .plain, '^' :: rest => if atStart then start rest else goOn (exactly '^') rest notes
        | .plain, '$' :: rest => goOn (if isBoundary style depth rest then .lineEnd else exactly '$') rest notes
        | _, '.' :: rest => goOn (.set true []) rest notes
        | _, '[' :: rest =>
          let (p, named, rest) ← bracket rest
          goOn p rest { notes with confusing := notes.confusing || named }
        | _, '\\' :: c :: rest =>
          if '1' ≤ c && c ≤ '9' then
            let n := c.toNat - 48
            if notes.complete.contains n then goOn (.again n) rest notes else .error "Invalid back reference"
          else goOn ((escaped? c).getD (exactly c)) rest notes
        | _, ['\\'] => .error "Trailing backslash"
        | _, c :: rest => goOn (exactly c) rest notes
        | _, [] => return (before, [], notes)

end

/-- The pattern that a text spells, with all its groups, and what was noted. -/
def parseKeeping (style : Style) (text : List Char) : Except String (LinePattern × Notes) := do
  let (p, _, notes) ← readAll style (4 * text.length + 8) 0 text {}
  return (p, notes)

/-- The pattern that a text spells, which remembers only what it asks for again, and what was noted. -/
def parse (style : Style) (text : List Char) : Except String (LinePattern × Notes) := do
  let (p, notes) ← parseKeeping style text
  return (if p.asksAgain then p else p.forgetting, notes)

end GatedRepair.LinePattern
