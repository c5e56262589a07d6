import GatedRepair.Json.Reader
import GatedRepair.Toml.Value

/-!
# Tables of a TOML document

A document is read section by section into a tree of tables. Each table remembers how it came to be, since that decides
whether it can be wanted to.
-/

namespace GatedRepair.Toml

/-- How a table came to be: it has a header of its own, it lies on the way to a header, or on the way of a dotted
key. -/
inductive Origin where
  | header
  | passed
  | dotted
  deriving DecidableEq, Repr

mutual

/-- What stands under a key. A finished value cannot be wanted to. Of several tables under a key the last one comes first,
and after it the earlier ones, backwards. -/
inductive Node where
  | value (v : Json)
  | table (t : Table)
  | tables (last : Table) (earlier : List Table)

/-- A table that is being wanted to: how it came to be, how many entries it has had, and the entries. -/
inductive Table where
  | mk (origin : Origin) (count : Nat) (entries : Entries)

/-- The entries of a table, each with its position among them, as a search tree by the hashes of the keys. -/
inductive Entries where
  | leaf
  | branch (left : Entries) (key : String) (position : Nat) (node : Node) (right : Entries)

end

namespace Entries

/-- What stands under a key. -/
def find? (wanted : String) : Entries → Option Node
  | leaf => none
  | branch left key _ node right =>
    if wanted = key then some node
    else if wanted.hash < key.hash then left.find? wanted
    else right.find? wanted

/-- The entries with a node under a key. An entry that is replaced keeps its position. -/
def put (wanted : String) (place : Nat) (new : Node) : Entries → Entries
  | leaf => branch leaf wanted place new leaf
  | branch left key position node right =>
    if wanted = key then branch left key position new right
    else if wanted.hash < key.hash then branch (left.put wanted place new) key position node right
    else branch left key position node (right.put wanted place new)

end Entries

namespace Table

/-- A table without entries. -/
def empty (origin : Origin) : Table := mk origin 0 .leaf

def origin : Table → Origin
  | mk origin _ _ => origin

/-- The same entries in a table that came to be in another way. -/
def withOrigin (t : Table) (origin : Origin) : Table :=
  match t with
  | mk _ count entries => mk origin count entries

/-- What stands under a key. -/
def find? (t : Table) (key : String) : Option Node :=
  match t with
  | mk _ _ entries => entries.find? key

/-- The table with a node under a key. -/
def put (t : Table) (key : String) (node : Node) : Table :=
  match t with
  | mk origin count entries => mk origin (count + 1) (entries.put key count node)

/-- Changes the table at the end of a path. Tables that are missing on the way come to be, and of several tables under a
key the last one counts. A dotted key does not pass through a table that has a header. -/
def alter (opened : Origin) (change : Table → Option Table) : List String → Table → Option Table
  | [], t => change t
  | key :: path, t =>
    match t.find? key with
    | none => (alter opened change path (empty opened)).map fun inner => t.put key (.table inner)
    | some (.value _) => none
    | some (.table inner) =>
      if opened = .dotted && inner.origin = .header then none
      else (alter opened change path inner).map fun inner => t.put key (.table inner)
    | some (.tables last earlier) =>
      (alter opened change path last).map fun last => t.put key (.tables last earlier)

/-- Puts a value under a key that is not taken. A dotted key needs a table that came to be by dotted keys, and any other
key one that did not. -/
def insertValue (isDotted : Bool) (key : String) (v : Json) (t : Table) : Option Table :=
  if (t.origin == .dotted) != isDotted || (t.find? key).isSome then none else some (t.put key (.value v))

end Table

/-- A value with the path of keys that it stands under. -/
structure Pair where
  path : List String
  key : String
  value : Json

/-- Puts a value where its keys say. -/
def Pair.insert (p : Pair) (t : Table) : Option Table :=
  t.alter .dotted (Table.insertValue (!p.path.isEmpty) p.key p.value) p.path

/-- Puts several values into a table. -/
def insertAll (t : Table) (pairs : List Pair) : Option Table := pairs.foldlM (fun t p => p.insert t) t

/-- A header, which may be one of several under the same keys, and the values after it. -/
structure Section where
  repeated : Bool
  path : List String
  key : String
  pairs : List Pair

/-- Puts a section under its key. A table can be given a header if it merely lies on the way to others. -/
def Section.place (s : Section) (t : Table) : Option Table :=
  let fresh := fun node => (insertAll (.empty .header) s.pairs).map fun inner => t.put s.key (node inner)
  match s.repeated, t.find? s.key with
  | false, none => fresh .table
  | false, some (.table old) =>
    if old.origin = .passed then
      (insertAll (old.withOrigin .header) s.pairs).map fun inner => t.put s.key (.table inner)
    else none
  | true, none => fresh (.tables · [])
  | true, some (.tables last earlier) => fresh (.tables · (last :: earlier))
  | _, _ => none

/-- Puts a section where its header says. -/
def Section.insert (s : Section) (t : Table) : Option Table := t.alter .passed s.place s.path

/-- The table that the values before the first header and the sections after them make. -/
def assemble (pairs : List Pair) (sections : List Section) : Option Table := do
  let t ← insertAll (.empty .header) pairs
  sections.foldlM (fun t s => s.insert t) t

/-- The members of an object in the order of their positions. -/
def inOrder (members : List (Nat × String × Json)) : Json :=
  .record ((members.mergeSort fun a b => a.1 ≤ b.1).map (·.2))

mutual

/-- A node as a JSON value. -/
def Node.toJson : Node → Json
  | .value v => v
  | .table t => t.toJson
  | .tables last earlier => .array (earlierToJson earlier [last.toJson])

/-- A table as a JSON object. -/
def Table.toJson : Table → Json
  | .mk _ _ entries => inOrder (entries.toJson [])

/-- The entries with their positions, put in front of others. -/
def Entries.toJson : Entries → List (Nat × String × Json) → List (Nat × String × Json)
  | .leaf, more => more
  | .branch left key position node right, more =>
    left.toJson ((position, key, node.toJson) :: right.toJson more)

/-- Tables put in front of later ones. -/
def earlierToJson : List Table → List Json → List Json
  | [], later => later
  | t :: earlier, later => earlierToJson earlier (t.toJson :: later)

end

/-!
## Reading TOML

A document is a sequence of lines: values under keys, headers of tables, comments and empty lines. It reads as a JSON
object.
-/

/-- Values that are nested this deep are refused. -/
def depthLimit : Nat := 80

/-- A character of a key without quotes. -/
def isKeyChar (c : Char) : Bool := Text.isAsciiAlphanumeric c || c == '_' || c == '-'

/-- A key without dots. The text has fewer characters than `size`, here and below. -/
def simpleKey? (size : Nat) (text : List Char) : Option (String × List Char) :=
  let bare := text.takeWhile isKeyChar
  if bare.isEmpty then (shortText? size text).map fun (chars, rest) => (String.ofList chars, rest)
  else some (String.ofList bare, text.drop bare.length)

/-- At most so many keys with dots between them. -/
def keys? (size : Nat) : Nat → List Char → Option (List String × List Char)
  | 0, _ => none
  | most + 1, text => do
    let (key, rest) ← simpleKey? size (skipBlanks text)
    match skipBlanks rest with
    | '.' :: rest =>
      let (more, rest) ← keys? size most rest
      return (key :: more, rest)
    | rest => return ([key], rest)

/-- A key with the path before it. -/
def keyPath? (size : Nat) (text : List Char) : Option ((List String × String) × List Char) := do
  let (keys, rest) ← keys? size (depthLimit - 1) text
  return ((keys.dropLast, ← keys.getLast?), rest)

/-- The text after blanks, line ends and comments. -/
def skipBreaks (comment : Bool) : List Char → List Char
  | [] => []
  | '\r' :: '\n' :: rest => skipBreaks false rest
  | c :: rest =>
    if c = '\n' then skipBreaks false rest
    else if comment then (if isCommentChar c then skipBreaks true rest else c :: rest)
    else if isBlank c then skipBreaks false rest
    else if c = '#' then skipBreaks true rest
    else c :: rest

/-- The text after the end of the line, before which there may be blanks and a comment. -/
def lineEnd? (text : List Char) : Option (List Char) :=
  let text := skipBlanks text
  let text := match text with
    | '#' :: rest => rest.dropWhile isCommentChar
    | text => text
  if text.isEmpty then some [] else newline? text

/-- A value that holds no others, and the text after it. -/
def scalar? (size : Nat) (text : List Char) : Option (Json × List Char) :=
  match text with
  | '"' :: _ => (text? size text).map fun (chars, rest) => (.text (String.ofList chars), rest)
  | '\'' :: _ => (text? size text).map fun (chars, rest) => (.text (String.ofList chars), rest)
  | 't' :: 'r' :: 'u' :: 'e' :: rest => some (.bool true, rest)
  | 'f' :: 'a' :: 'l' :: 's' :: 'e' :: rest => some (.bool false, rest)
  | _ => if beginsMoment text then moment? text else number? text

mutual

/-- A value at a depth, and the text after it. -/
def value? (size : Nat) : Nat → Nat → List Char → Option (Json × List Char)
  | 0, _, _ => none
  | fuel + 1, depth, text =>
    match text with
    | '[' :: rest => if depthLimit ≤ depth + 1 then none else items? size fuel (depth + 1) [] rest
    | '\x7b' :: rest =>
      if depthLimit ≤ depth + 1 then none
      else do
        let (pairs, rest) ← match skipBlanks rest with
          | '\x7d' :: rest => some ([], rest)
          | rest => pairs? size fuel (depth + 1) [] rest
        let table ← insertAll (.empty .header) pairs
        return (table.toJson, rest)
    | text => scalar? size text

/-- The elements of an array up to its end, after those before them, backwards. -/
def items? (size : Nat) : Nat → Nat → List Json → List Char → Option (Json × List Char)
  | 0, _, _, _ => none
  | fuel + 1, depth, before, text =>
    match skipBreaks false text with
    | ']' :: rest => some (.array before.reverse, rest)
    | text =>
      match value? size fuel depth text with
      | none => none
      | some (item, rest) =>
        match skipBreaks false rest with
        | ']' :: rest => some (.array (item :: before).reverse, rest)
        | ',' :: rest => items? size fuel depth (item :: before) rest
        | _ => none

/-- The members of a table on one line up to its end, after those before them, backwards. -/
def pairs? (size : Nat) : Nat → Nat → List Pair → List Char → Option (List Pair × List Char)
  | 0, _, _, _ => none
  | fuel + 1, depth, before, text =>
    match keyPath? size text with
    | some ((path, key), '=' :: rest) =>
      match value? size fuel depth (skipBlanks rest) with
      | none => none
      | some (v, rest) =>
        match skipBlanks rest with
        | '\x7d' :: rest => some ((⟨path, key, v⟩ :: before).reverse, rest)
        | ',' :: rest => pairs? size fuel depth (⟨path, key, v⟩ :: before) rest
        | _ => none
    | _ => none

end

/-- A line of a document that says something. -/
inductive Line where
  | pair (p : Pair)
  | header (repeated : Bool) (path : List String) (key : String)

/-- A key with its value on a line. -/
def pairLine? (size : Nat) (text : List Char) : Option (Line × List Char) := do
  let ((path, key), rest) ← keyPath? size text
  let (v, rest) ← value? size (2 * size) 0 (skipBlanks (← Text.after? ['='] rest))
  return (.pair ⟨path, key, v⟩, ← lineEnd? rest)

/-- The header of a section on a line, after its first bracket. -/
def headerLine? (size : Nat) (text : List Char) : Option (Line × List Char) :=
  match text with
  | '[' :: rest => do
    let ((path, key), rest) ← keyPath? size rest
    return (.header true path key, ← lineEnd? (← Text.after? [']'] (← Text.after? [']'] rest)))
  | rest => do
    let ((path, key), rest) ← keyPath? size rest
    return (.header false path key, ← lineEnd? (← Text.after? [']'] rest))

/-- The next line, if it says something, and the text after it. -/
def line? (size : Nat) (text : List Char) : Option (Option Line × List Char) :=
  let said := fun (line, rest) => (some line, rest)
  match text with
  | '#' :: _ => (lineEnd? text).map (none, ·)
  | '[' :: rest => (headerLine? size rest).map said
  | text =>
    match newline? text with
    | some rest => some (none, rest)
    | none => (pairLine? size text).map said

/-- The lines of a text that say something, backwards, after those before them. -/
def lines? (size : Nat) : Nat → List Line → List Char → Option (List Line)
  | 0, _, _ => none
  | fuel + 1, before, text =>
    match skipBlanks text with
    | [] => some before
    | text =>
      match line? size text with
      | none => none
      | some (none, rest) => lines? size fuel before rest
      | some (some line, rest) => lines? size fuel (line :: before) rest

/-- A line put in front of the values before the next header and the sections from there on. -/
def Line.cons (later : List Pair × List Section) : Line → List Pair × List Section
  | .pair p => (p :: later.1, later.2)
  | .header repeated path key => ([], ⟨repeated, path, key, later.1⟩ :: later.2)

/-- The document that a text spells, after a byte order mark that may be left out. -/
def parse? (text : String) : Option Json := do
  let chars := match text.toList with
    | '\uFEFF' :: rest => rest
    | chars => chars
  let size := chars.length + 1
  let (pairs, sections) := (← lines? size size [] chars).foldl Line.cons ([], [])
  return (← assemble pairs sections).toJson

end GatedRepair.Toml
