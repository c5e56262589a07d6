import GatedRepair.Number
import GatedRepair.Text.Character

/-!
# Lines and parts of texts
-/

/-!
## Lines

Two views of a text as lines: `pieces` keeps every line's ending, `lines` drops it. Joining the pieces
gives the text back.
-/

namespace GatedRepair.Text

/-- Puts one character in front of the pieces of the text that follows it. -/
def consPiece (c : Char) (found : List (List Char)) : List (List Char) :=
  if c = '\n' then ['\n'] :: found else
    match found with
    | [] => [[c]]
    | piece :: more => (c :: piece) :: more

/-- The pieces of a text, cut after each newline. No piece is empty, and only the last can lack its
newline. -/
def pieces (text : List Char) : List (List Char) := text.foldr consPiece []

/-- The line that a piece holds: without its newline, nor the carriage return before that newline. -/
def unterminated (piece : List Char) : List Char :=
  match piece.reverse with
  | '\n' :: '\r' :: back => back.reverse
  | '\n' :: back => back.reverse
  | _ => piece

/-- The lines of a text without their endings. -/
def lines (text : List Char) : List (List Char) := (pieces text).map unterminated

/-- Texts joined with a separator between two neighbours. -/
def join (separator : List Char) (parts : List (List Char)) : List Char := separator.intercalate parts

/-- The lines of a string. -/
def linesOf (text : String) : List String := (lines text.toList).map String.ofList

/-- The text ends in a newline. -/
def endsInNewline (text : List Char) : Bool := text.getLast? == some '\n'

@[simp] theorem pieces_nil : pieces [] = [] := rfl

@[simp] theorem pieces_cons (c : Char) (text : List Char) : pieces (c :: text) = consPiece c (pieces text) := rfl

theorem flatten_consPiece (c : Char) (found : List (List Char)) : (consPiece c found).flatten = c :: found.flatten := by
  unfold consPiece
  split
  · next h => simp [h]
  · cases found <;> simp

theorem flatten_pieces (text : List Char) : (pieces text).flatten = text := by
  induction text with
  | nil => rfl
  | cons c text ih => rw [pieces_cons, flatten_consPiece, ih]

theorem ne_nil_of_mem_consPiece {c : Char} {found : List (List Char)} (h : ∀ piece ∈ found, piece ≠ [])
    {piece : List Char} (member : piece ∈ consPiece c found) : piece ≠ [] := by
  unfold consPiece at member
  split at member
  · rcases List.mem_cons.1 member with rfl | member
    · simp
    · exact h _ member
  · cases found with
    | nil => simp at member; simp [member]
    | cons first more =>
      rcases List.mem_cons.1 member with rfl | member
      · simp
      · exact h _ (List.mem_cons_of_mem _ member)

theorem ne_nil_of_mem_pieces {text piece : List Char} (member : piece ∈ pieces text) : piece ≠ [] := by
  induction text generalizing piece with
  | nil => simp at member
  | cons c text ih => exact ne_nil_of_mem_consPiece (fun _ h => ih h) member

/-!
## Parts of texts

Cutting a text to a size, finding one text in another, and cutting a text at a character.
-/

/-! ### Cutting a text to a number of characters -/

/-- At most `max` characters of a text. A text that is too long shows it by three dots at its end, which count,
unless there is room for no more than three characters. -/
def truncate (text : String) (max : Nat) : String :=
  let chars := text.toList
  if chars.length ≤ max then text
  else if max ≤ 3 then String.ofList (chars.take max)
  else String.ofList (chars.take (max - 3) ++ ['.', '.', '.'])

/-- The last `max` characters of a text. -/
def tail (text : String) (max : Nat) : String :=
  let chars := text.toList
  String.ofList (chars.drop (chars.length - max))

theorem length_truncate_le (text : String) (max : Nat) : (truncate text max).length ≤ max := by
  simp only [truncate, ← String.length_toList]
  split
  · assumption
  · split
    · simp only [String.toList_ofList, List.length_take]; omega
    · simp only [String.toList_ofList, List.length_append, List.length_take, List.length_cons, List.length_nil]; omega

theorem length_tail_le (text : String) (max : Nat) : (tail text max).length ≤ max := by
  simp only [tail, ← String.length_toList, String.toList_ofList, List.length_drop]
  omega

/-! ### Finding one text in another -/

/-- The text from the first place where `needle` stands. -/
def fromFirst? (needle : List Char) : List Char → Option (List Char)
  | [] => if needle.isEmpty then some [] else none
  | c :: rest => if needle.isPrefixOf (c :: rest) then some (c :: rest) else fromFirst? needle rest

/-- The text holds `needle` somewhere. -/
def contains (text needle : String) : Bool := (fromFirst? needle.toList text.toList).isSome

/-- The text without every leading copy of `lead`, which has to be non-empty to be dropped. -/
def dropLeading (lead : List Char) (text : List Char) : List Char :=
  if _h : lead ≠ [] ∧ lead.isPrefixOf text = true then dropLeading lead (text.drop lead.length) else text
termination_by text.length
decreasing_by
  obtain ⟨nonempty, front⟩ := _h
  have := (List.isPrefixOf_iff_prefix.1 front).length_le
  have := List.length_pos_iff.2 nonempty
  simp; omega

/-- The text after `lead`, if it begins with it. -/
def after? (lead text : List Char) : Option (List Char) :=
  if lead.isPrefixOf text then some (text.drop lead.length) else none

theorem after?_eq_some_iff {lead text rest : List Char} : after? lead text = some rest ↔ text = lead ++ rest := by
  unfold after?
  constructor
  · split
    · next h =>
      obtain ⟨tail, rfl⟩ := List.isPrefixOf_iff_prefix.1 h
      simp [eq_comm]
    · simp
  · rintro rfl
    simp

/-!
### Cutting a text at a character

The parts of a text between two neighbouring copies of a separator, and joining them again.
-/

/-- Puts one character in front of the parts of the text that follows it. -/
def consPart (separator c : Char) (found : List (List Char)) : List (List Char) :=
  if c = separator then [] :: found else
    match found with
    | [] => [[c]]
    | part :: more => (c :: part) :: more

/-- The parts of a text between the separators. There is always one more part than there are separators. -/
def split (separator : Char) (text : List Char) : List (List Char) := text.foldr (consPart separator) [[]]

/-- The text up to the last separator and the text after it. -/
def splitLast? (separator : Char) (text : List Char) : Option (List Char × List Char) :=
  let back := text.reverse
  match back.dropWhile (· ≠ separator) with
  | [] => none
  | _ :: front => some (front.reverse, (back.takeWhile (· ≠ separator)).reverse)

/-- The text up to the first separator and the text after it. -/
def splitFirst? (separator : Char) (text : List Char) : Option (List Char × List Char) :=
  match text.dropWhile (· ≠ separator) with
  | [] => none
  | _ :: rest => some (text.takeWhile (· ≠ separator), rest)

theorem consPart_ne_nil (separator c : Char) (found : List (List Char)) : consPart separator c found ≠ [] := by
  unfold consPart
  split
  · simp
  · split <;> simp

theorem split_ne_nil (separator : Char) (text : List Char) : split separator text ≠ [] := by
  cases text with
  | nil => simp [split]
  | cons c text => exact consPart_ne_nil _ _ _

/-- Joining the parts with the separator gives the text back. -/
theorem intercalate_split (separator : Char) (text : List Char) :
    [separator].intercalate (split separator text) = text := by
  induction text with
  | nil => simp [split, List.intercalate]
  | cons c text ih =>
    have step : split separator (c :: text) = consPart separator c (split separator text) := rfl
    rw [step]
    unfold consPart
    split
    · next h =>
      subst h
      cases hs : split c text with
      | nil => exact absurd hs (split_ne_nil c text)
      | cons part more => rw [hs] at ih; simp_all [List.intercalate]
    · cases hs : split separator text with
      | nil => exact absurd hs (split_ne_nil separator text)
      | cons part more =>
        rw [hs] at ih
        cases more <;> simp_all [List.intercalate]

/-!
## Texts as parts of identifiers

A slug keeps letters and digits and puts a low line for anything else. A fingerprint of 64 bits tells texts apart
whose slugs are cut.
-/

/-- The text without surrounding blanks and leading `./`, cut to `max` characters, with a low line for every
character that is no basic Latin letter or digit. -/
def slug (text : List Char) (max : Nat) : List Char :=
  ((dropLeading ['.', '/'] (trim text)).take max).map fun c => if isAsciiAlphanumeric c then c else '_'

/-- One step of the fingerprint. -/
def mixByte (hash : UInt64) (byte : UInt8) : UInt64 := (hash ^^^ byte.toUInt64) * 0x100000001b3

/-- The fingerprint of a text: 16 hexadecimal digits computed from its bytes. -/
def fingerprint (text : String) : List Char :=
  Number.padded 16 16 (text.toUTF8.toList.foldl mixByte 0xcbf29ce484222325).toNat

/-- The most characters that a segment of an identifier shows of a slug. -/
def slugLimit : Nat := 120

/-- A text as a segment of an identifier: its slug, or if that is long, the slug's start, a hyphen and the
fingerprint of the whole text. -/
def segment (text : String) : List Char :=
  let whole := dropLeading ['.', '/'] (trim text.toList)
  let slugged := slug text.toList whole.length
  if slugged.length ≤ slugLimit then slugged
  else slugged.take (slugLimit - 17) ++ '-' :: fingerprint (trimmed text)

theorem length_slug_le (text : List Char) (max : Nat) : (slug text max).length ≤ max := by
  simp only [slug, List.length_map, List.length_take]; omega

theorem isSlugChar_of_mem_slug {text : List Char} {max : Nat} {c : Char} (member : c ∈ slug text max) :
    isAsciiAlphanumeric c = true ∨ c = '_' := by
  obtain ⟨d, -, rfl⟩ := List.mem_map.1 member
  by_cases h : isAsciiAlphanumeric d = true <;> simp [h]

/-!
## Bytes and texts

What texts bytes are read as where they need not be texts.
-/

/-!
### Reading bytes as text

Bytes that are no text are shown as replacement characters: one for each run of bytes that could begin a character
but does not go on with it, and one for any other stray byte.
-/

/-- The shape of a character that begins with a byte: how many bytes follow, the bits of the character in the first
one, and the bounds of the second one. -/
def leadShape? (byte : Nat) : Option (Nat × Nat × Nat × Nat) :=
  if byte < 0x80 then some (0, byte, 0, 0)
  else if 0xC2 ≤ byte ∧ byte ≤ 0xDF then some (1, byte - 0xC0, 0x80, 0xBF)
  else if byte = 0xE0 then some (2, 0, 0xA0, 0xBF)
  else if byte = 0xED then some (2, 0xD, 0x80, 0x9F)
  else if 0xE1 ≤ byte ∧ byte ≤ 0xEF then some (2, byte - 0xE0, 0x80, 0xBF)
  else if byte = 0xF0 then some (3, 0, 0x90, 0xBF)
  else if byte = 0xF4 then some (3, 4, 0x80, 0x8F)
  else if 0xF1 ≤ byte ∧ byte ≤ 0xF3 then some (3, byte - 0xF0, 0x80, 0xBF)
  else none

/-- A reader of bytes: the characters so far, the last one first, and what the character that has been begun still
needs: the number of bytes, the bits so far, and the bounds of the next byte. -/
structure LossyReader where
  back : List Char
  begun : Option (Nat × Nat × Nat × Nat)

def replacement : Char := '\uFFFD'

/-- A byte where a character begins. -/
def LossyReader.begin (back : List Char) (byte : Nat) : LossyReader :=
  match leadShape? byte with
  | some (0, bits, _, _) => ⟨Char.ofNat bits :: back, none⟩
  | some shape => ⟨back, some shape⟩
  | none => ⟨replacement :: back, none⟩

/-- The reader after one more byte. -/
def LossyReader.step (r : LossyReader) (b : UInt8) : LossyReader :=
  let byte := b.toNat
  match r.begun with
  | none => begin r.back byte
  | some (needed, bits, low, high) =>
    if low ≤ byte ∧ byte ≤ high then
      let bits := bits * 64 + (byte - 0x80)
      if needed ≤ 1 then ⟨Char.ofNat bits :: r.back, none⟩ else ⟨r.back, some (needed - 1, bits, 0x80, 0xBF)⟩
    else begin (replacement :: r.back) byte

/-- The text that bytes hold, with replacement characters for what is no text. -/
def ofBytes (bytes : ByteArray) : String :=
  match String.fromUTF8? bytes with
  | some text => text
  | none =>
    let r := bytes.toList.foldl LossyReader.step ⟨[], none⟩
    String.ofList ((if r.begun.isSome then replacement :: r.back else r.back).reverse)

/-!
### Texts made of bytes

A shell and its programs know bytes and no characters. So they work on octet texts, in which every character stands for
the byte with its number. Texts become octet texts on the way in, and texts again on the way out.
-/

/-- The octet text of bytes. -/
def octetsOfBytes (bytes : ByteArray) : String := String.ofList (bytes.toList.map fun byte => Char.ofNat byte.toNat)

/-- The bytes of an octet text. -/
def bytesOfOctets (octets : String) : ByteArray :=
  ByteArray.mk (octets.toList.map fun c => UInt8.ofNat c.toNat).toArray

/-- The octet text of a text. -/
def toOctets (text : String) : String := if text.toList.all (·.toNat < 128) then text else octetsOfBytes text.toUTF8

/-- The text of an octet text, with replacement characters for what is no text. -/
def ofOctets (octets : String) : String :=
  if octets.toList.all (·.toNat < 128) then octets else ofBytes (bytesOfOctets octets)

end GatedRepair.Text
