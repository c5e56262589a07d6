import GatedRepair.Json.Reader
import GatedRepair.Number

/-!
# Writing JSON and taking it apart
-/

/-!
## Writing JSON

On one line, or on many with two blanks for each level of nesting. An empty list or object stays on its line.
-/

namespace GatedRepair.Json

/-- A character inside a string. Quotes, backslashes and control characters are escaped. -/
def escapeChar (c : Char) : List Char :=
  match c with
  | '"' => ['\\', '"']
  | '\\' => ['\\', '\\']
  | '\n' => ['\\', 'n']
  | '\r' => ['\\', 'r']
  | '\t' => ['\\', 't']
  | c =>
    if c.toNat = 8 then ['\\', 'b']
    else if c.toNat = 12 then ['\\', 'f']
    else if c.toNat < 32 then '\\' :: 'u' :: Number.padded 16 4 c.toNat
    else [c]

/-- A text as a string in quotes. -/
def quoted (text : String) : List Char := '"' :: (text.toList.flatMap escapeChar ++ ['"'])

def quotedOption (text : Option String) : List Char := quoted (text.getD "")

/-- A new line with the blanks of a level of nesting. -/
def newLine (level : Nat) : List Char := '\n' :: List.replicate (2 * level) ' '

mutual

/-- A value on one line. -/
def compactChars : Json → List Char
  | .null => "null".toList
  | .bool true => "true".toList
  | .bool false => "false".toList
  | .number lexeme => lexeme.toList
  | .string text => quotedOption text
  | .array items => '[' :: compactItems items
  | .object members => '\x7b' :: compactMembers members

/-- The items of a list up to its end. -/
def compactItems : List Json → List Char
  | [] => [']']
  | [last] => compactChars last ++ [']']
  | item :: more => compactChars item ++ ',' :: compactItems more

/-- The members of an object up to its end. -/
def compactMembers : List (Option String × Json) → List Char
  | [] => ['\x7d']
  | [(name, value)] => quotedOption name ++ ':' :: (compactChars value ++ ['\x7d'])
  | (name, value) :: more => quotedOption name ++ ':' :: (compactChars value ++ ',' :: compactMembers more)

end

mutual

/-- A value at a level of nesting. -/
def prettyChars (level : Nat) : Json → List Char
  | .null => "null".toList
  | .bool true => "true".toList
  | .bool false => "false".toList
  | .number lexeme => lexeme.toList
  | .string text => quotedOption text
  | .array [] => ['[', ']']
  | .array (item :: more) => '[' :: (newLine (level + 1) ++ prettyChars (level + 1) item ++ prettyItems level more)
  | .object [] => ['\x7b', '\x7d']
  | .object ((name, value) :: more) =>
    '\x7b' :: (newLine (level + 1) ++ quotedOption name ++ ':' :: ' ' :: prettyChars (level + 1) value
      ++ prettyMembers level more)

/-- The items of a list after the first, up to its end. -/
def prettyItems (level : Nat) : List Json → List Char
  | [] => newLine level ++ [']']
  | item :: more => ',' :: (newLine (level + 1) ++ prettyChars (level + 1) item ++ prettyItems level more)

/-- The members of an object after the first, up to its end. -/
def prettyMembers (level : Nat) : List (Option String × Json) → List Char
  | [] => newLine level ++ ['\x7d']
  | (name, value) :: more =>
    ',' :: (newLine (level + 1) ++ quotedOption name ++ ':' :: ' ' :: prettyChars (level + 1) value
      ++ prettyMembers level more)

end

/-- The text of a value on one line. -/
def compact (value : Json) : String := String.ofList (compactChars value)

/-- The text of a value on many lines. -/
def pretty (value : Json) : String := String.ofList (prettyChars 0 value)

/-!
## Taking JSON values apart

A record is written as an object, whose unknown members are passed over, or as a list of its members in their
order. Every reader says nothing when the value does not fit.
-/

/-- The members of a record that were found. A record written as a list has to give every member that has no
value of its own. -/
structure Members where
  positional : Bool
  found : List (String × Json)

/-- What formats decide in different ways: the content of a name that carries nothing, and whether a record that is
written as a list may be followed by more. -/
structure Manner where
  isNothing : Json → Bool
  more : Bool

def isNull : Json → Bool
  | .null => true
  | _ => false

def isEmpty : Json → Bool
  | .array items => items.isEmpty
  | .object members => members.isEmpty
  | _ => false

namespace Manner

/-- In JSON documents null stands for nothing, and a record is as long as it is. -/
def json : Manner := ⟨isNull, false⟩

/-- In TOML documents, which know no null, an empty array or table stands for nothing. -/
def toml : Manner := ⟨isEmpty, true⟩

end Manner

/-- The members that a value gives of a record with the given names. An object gives no member twice. -/
def membersIn? (manner : Manner) (names : List String) : Json → Option Members
  | .object entries => do
    let named ← entries.mapM fun (name, value) => name.map fun text => (text, value)
    let known := named.filter fun entry => names.contains entry.1
    if (known.map Prod.fst).Nodup then some ⟨false, known⟩ else none
  | .array items => if items.length ≤ names.length || manner.more then some ⟨true, names.zip items⟩ else none
  | _ => none

/-- The members that a value of a JSON document gives of a record with the given names. -/
def members? : List String → Json → Option Members := membersIn? .json

namespace Members

def get? (members : Members) (name : String) : Option Json := members.found.lookup name

/-- A member that has to be there. -/
def required {α : Type} (members : Members) (name : String) (read : Json → Option α) : Option α :=
  (members.get? name).bind read

/-- A member that has a value of its own when it is missing. -/
def defaulted {α : Type} (members : Members) (name : String) (standard : α) (read : Json → Option α) : Option α :=
  match members.get? name with
  | none => some standard
  | some value => read value

/-- A member that may be null, or missing in an object. -/
def nullable {α : Type} (members : Members) (name : String) (read : Json → Option (Option α)) : Option (Option α) :=
  match members.get? name with
  | none => if members.positional then none else some none
  | some value => read value

end Members

/-- A value that may be null. -/
def option? {α : Type} (read : Json → Option α) : Json → Option (Option α)
  | .null => some none
  | value => (read value).map some

def text? : Json → Option String
  | .string text => text
  | _ => none

def bool? : Json → Option Bool
  | .bool b => some b
  | _ => none

def list? {α : Type} (read : Json → Option α) : Json → Option (List α)
  | .array items => items.mapM read
  | _ => none

/-- Puts a value under a key into a list that is sorted by keys without repetition. -/
def putSorted {α : Type} (key : String) (value : α) : List (String × α) → List (String × α)
  | [] => [(key, value)]
  | entry :: more =>
    if key < entry.1 then (key, value) :: entry :: more
    else if key = entry.1 then (key, value) :: more
    else entry :: putSorted key value more

/-- An object as a dictionary sorted by its keys. Of several members with a key the last one counts. -/
def dictionary? {α : Type} (read : Json → Option α) : Json → Option (List (String × α))
  | .object entries =>
    entries.foldlM (fun found (name, value) => do return putSorted (← name) (← read value) found) []
  | _ => none

/-- A name out of a fixed set, alone or as the only member of an object that carries nothing. -/
def oneOf? {α : Type} (ofName : String → Option α) (nothing : Json → Bool) : Json → Option α
  | .string text => text.bind ofName
  | .object [(name, value)] => if nothing value then name.bind ofName else none
  | _ => none

end GatedRepair.Json
