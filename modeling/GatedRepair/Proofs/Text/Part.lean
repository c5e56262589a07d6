import GatedRepair.Proofs.Number.Nearest
import GatedRepair.Proofs.Text.Lines
import GatedRepair.Text.Lines
import Mathlib.Data.List.Basic
import Mathlib.Data.List.TakeWhile

/-!
# Texts that are cut at a separator

A text with a separator in it has the parts of what stands before the separator and of what stands after it
(`split_append`), so parts that are joined are found again. What follows the last separator holds none.
-/

namespace GatedRepair.Text

variable {separator : Char}

/-! ## At every separator -/

theorem split_cons_separator (separator : Char) (text : List Char) :
    split separator (separator :: text) = [] :: split separator text := if_pos rfl

theorem consPart_append {c : Char} {found : List (List Char)} (some : found ≠ []) (more : List (List Char)) :
    consPart separator c (found ++ more) = consPart separator c found ++ more := by
  obtain ⟨part, others, rfl⟩ := List.exists_cons_of_ne_nil some
  unfold consPart
  split <;> rfl

/-- What is cut at a separator is cut on its two sides. -/
theorem split_append (separator : Char) (front back : List Char) :
    split separator (front ++ separator :: back) = split separator front ++ split separator back := by
  induction front with
  | nil => exact split_cons_separator separator back
  | cons c front ih =>
    have step : ∀ text, split separator (c :: text) = consPart separator c (split separator text) := fun _ => rfl
    rw [List.cons_append, step, ih, consPart_append (split_ne_nil _ _), step]

theorem split_of_free {part : List Char} (free : separator ∉ part) : split separator part = [part] := by
  induction part with
  | nil => rfl
  | cons c part ih =>
    have other : c ≠ separator := by
      rintro rfl
      exact free List.mem_cons_self
    have step : split separator (c :: part) = consPart separator c (split separator part) := rfl
    rw [step, ih fun member => free (List.mem_cons_of_mem _ member), consPart, if_neg other]

theorem split_append_separator {part : List Char} (free : separator ∉ part) (text : List Char) :
    split separator (part ++ separator :: text) = part :: split separator text := by
  rw [split_append, split_of_free free, List.singleton_append]

theorem split_append_of_free {part : List Char} (free : separator ∉ part) (text : List Char) :
    split separator (text ++ separator :: part) = split separator text ++ [part] := by
  rw [split_append, split_of_free free]

/-- Parts without the separator that are joined with it are the parts of the text again. -/
theorem split_intercalate {parts : List (List Char)} (some : parts ≠ [])
    (free : ∀ part ∈ parts, separator ∉ part) : split separator ([separator].intercalate parts) = parts := by
  induction parts with
  | nil => exact absurd rfl some
  | cons part more ih =>
    cases more with
    | nil =>
      rw [List.intercalate_singleton]
      exact split_of_free (free part List.mem_cons_self)
    | cons next more =>
      have later : ∀ part ∈ next :: more, separator ∉ part := fun part member => free part (List.mem_cons_of_mem _ member)
      rw [List.intercalate_cons_cons, List.append_assoc, List.singleton_append,
        split_append_separator (free part List.mem_cons_self), ih (by simp) later]

/-! ## At the last separator -/

theorem splitLast?_append {back : List Char} (free : separator ∉ back) (front : List Char) :
    splitLast? separator (front ++ separator :: back) = some (front, back) := by
  have behind : ∀ c ∈ back.reverse, decide (c ≠ separator) = true := fun c inside =>
    decide_eq_true fun same => free (same ▸ List.mem_reverse.mp inside)
  have text : (front ++ separator :: back).reverse = back.reverse ++ separator :: front.reverse := by simp
  simp only [splitLast?, text, List.dropWhile_append_of_pos behind, List.takeWhile_append_of_pos behind]
  simp

theorem splitLast?_of_free {text : List Char} (free : separator ∉ text) : splitLast? separator text = none := by
  have nothing : text.reverse.dropWhile (· ≠ separator) = [] := by
    rw [List.dropWhile_eq_nil_iff]
    exact fun c inside => decide_eq_true fun same => free (same ▸ List.mem_reverse.mp inside)
  simp only [splitLast?, nothing]

end GatedRepair.Text

/-!
## What segments tell apart

A segment shows a short slug in full. No slug holds a hyphen and every segment of a long one does, so no two of these are the
same (`segment_ne_of_long`). A leading `./` is no part of a slug, but the fingerprint of a text behind it is never that of the
text itself, because every byte leads from different states of the fingerprint to different states. So it changes just the
segments that hold a fingerprint (`segment_dotSlash_iff`).
-/

namespace GatedRepair.Text

/-- The slug of a text, however long. -/
def fullSlug (text : String) : List Char := slug text.toList (dropLeading ['.', '/'] (trim text.toList)).length

section
variable {text other : String}

theorem segment_short (short : (fullSlug text).length ≤ slugLimit) : segment text = fullSlug text := if_pos short

theorem segment_long (long : slugLimit < (fullSlug text).length) :
    segment text = (fullSlug text).take (slugLimit - 17) ++ '-' :: fingerprint (trimmed text) := if_neg (Nat.not_le.mpr long)

theorem hyphen_not_mem_fullSlug (text : String) : '-' ∉ fullSlug text := by
  intro inside
  rcases isSlugChar_of_mem_slug inside with letter | line
  · exact absurd letter (by decide)
  · exact absurd line (by decide)

theorem segment_inj_of_short (short : (fullSlug text).length ≤ slugLimit) (short' : (fullSlug other).length ≤ slugLimit) :
    segment text = segment other ↔ fullSlug text = fullSlug other := by
  rw [segment_short short, segment_short short']

/-- The segment of a long slug is that of no short one. -/
theorem segment_ne_of_long (short : (fullSlug text).length ≤ slugLimit) (long : slugLimit < (fullSlug other).length) :
    segment text ≠ segment other := by
  intro same
  rw [segment_short short, segment_long long] at same
  exact hyphen_not_mem_fullSlug text (by simp [same])

end

/-! ### Fingerprints -/

/-- The factor by which a fingerprint is multiplied has an inverse. -/
theorem mixByte_injective (byte : UInt8) : Function.Injective (mixByte · byte) := by
  intro hash other same
  have inverse : (0x100000001b3 : UInt64) * 0xce965057aff6957b = 1 := by decide
  have product : ∀ x : UInt64, x * 0x100000001b3 * 0xce965057aff6957b = x := fun x => by
    rw [UInt64.mul_assoc, inverse, UInt64.mul_one]
  have scaled : (hash ^^^ byte.toUInt64) * 0x100000001b3 = (other ^^^ byte.toUInt64) * 0x100000001b3 := same
  have mixed : hash ^^^ byte.toUInt64 = other ^^^ byte.toUInt64 := by
    rw [← product (hash ^^^ byte.toUInt64), scaled, product]
  exact (UInt64.xor_left_inj _).mp mixed

theorem foldl_mixByte_injective (bytes : List UInt8) : Function.Injective (bytes.foldl mixByte ·) := by
  induction bytes with
  | nil => exact Function.injective_id
  | cons byte more ih =>
    intro hash other same
    exact mixByte_injective byte (ih same)

theorem toList_loop_eq (bytes : ByteArray) (index : Nat) (before : List UInt8) :
    ByteArray.toList.loop bytes index before = before.reverse ++ bytes.data.toList.drop index := by
  induction index, before using ByteArray.toList.loop.induct bytes with
  | case1 index before inside ih =>
    have inside' : index < bytes.data.toList.length := by simpa using inside
    have next : bytes.get! index = bytes.data.toList[index] := getElem!_pos bytes.data index inside
    rw [ByteArray.toList.loop, if_pos inside, ih, List.drop_eq_getElem_cons inside', next]
    simp
  | case2 index before outside =>
    rw [ByteArray.toList.loop, if_neg outside, List.drop_eq_nil_of_le (by simpa using outside), List.append_nil]

theorem utf8_append (left right : String) :
    (left ++ right).toUTF8.toList = left.toUTF8.toList ++ right.toUTF8.toList := by
  simp only [String.toUTF8, String.toByteArray_append, ByteArray.toList, toList_loop_eq]
  simp

theorem fingerprint_inj {text other : String} : fingerprint text = fingerprint other ↔
    text.toUTF8.toList.foldl mixByte 0xcbf29ce484222325 = other.toUTF8.toList.foldl mixByte 0xcbf29ce484222325 := by
  refine ⟨fun same => ?_, fun same => by rw [fingerprint, fingerprint, same]⟩
  have read := congrArg (Number.ofHexDigits? (2 ^ 64)) same
  rw [fingerprint, fingerprint, Number.ofHexDigits?_padded (UInt64.toNat_lt _),
    Number.ofHexDigits?_padded (UInt64.toNat_lt _)] at read
  exact UInt64.toNat_inj.mp (Option.some.inj read)

theorem fingerprint_dotSlash_ne (text : String) : fingerprint ("./" ++ text) ≠ fingerprint text := by
  intro same
  have start := fingerprint_inj.mp same
  rw [utf8_append, List.foldl_append] at start
  exact absurd (foldl_mixByte_injective _ start) (by decide +kernel)

/-! ### A leading `./` -/

section
variable {path : String} (framed : Framed path.toList)
include framed

theorem framed_dotSlash : Framed ("./" ++ path).toList := by
  obtain ⟨c, last, full⟩ := framed.last
  refine ⟨⟨'.', by simp, by decide⟩, c, ?_, full⟩
  rw [String.toList_append, List.getLast?_append, last]
  rfl

theorem fullSlug_dotSlash : fullSlug ("./" ++ path) = fullSlug path := by
  have dropped : dropLeading ['.', '/'] ("./" ++ path).toList = dropLeading ['.', '/'] path.toList := by
    rw [String.toList_append, dropLeading]
    exact dif_pos ⟨by simp, by simp⟩
  simp only [fullSlug, slug, (framed_dotSlash framed).trim_eq, framed.trim_eq, dropped]

/-- A leading `./` changes the segment of a path exactly where its slug is long. -/
theorem segment_dotSlash_iff : segment ("./" ++ path) = segment path ↔ (fullSlug path).length ≤ slugLimit := by
  have slug := fullSlug_dotSlash framed
  constructor
  · intro same
    refine Nat.not_lt.mp fun long => ?_
    rw [segment_long long, segment_long (slug ▸ long), slug, List.append_cancel_left_eq, List.cons.injEq, trimmed, trimmed,
      (framed_dotSlash framed).trim_eq, framed.trim_eq, String.ofList_toList, String.ofList_toList] at same
    exact fingerprint_dotSlash_ne path same.2
  · intro short
    rw [segment_short short, segment_short (slug ▸ short), slug]

end

end GatedRepair.Text
