import GatedRepair.Json.Document
import GatedRepair.Json.Reader
import GatedRepair.Proofs.Number.Nearest
import Mathlib.Data.List.TakeWhile

/-!
# A written value is read back

A value that is written on many lines is scanned into the tokens that spell it (`scanned_value`), and the tokens are folded
into the value again (`parse?_pretty`).
-/

/-!
## The tokens of a written value

A value that is written on many lines is scanned into the tokens that spell it (`scanned_value`), if each of its strings
is a text and each of its numbers has the text of one (`Proper`).
-/

namespace GatedRepair.Json

open Number

mutual

/-- Every string is a text, and every number has the text of one. -/
def Proper : Json → Prop
  | .null => True
  | .bool _ => True
  | .number lexeme => (numberParts? lexeme.toList).isSome = true
  | .string text => text.isSome = true
  | .array items => ProperItems items
  | .object members => ProperMembers members

def ProperItems : List Json → Prop
  | [] => True
  | item :: more => Proper item ∧ ProperItems more

def ProperMembers : List (Option String × Json) → Prop
  | [] => True
  | (name, value) :: more => name.isSome = true ∧ Proper value ∧ ProperMembers more

end

mutual

/-- The tokens that spell a value. -/
def tokens : Json → List Token
  | .null => [.null]
  | .bool b => [.bool b]
  | .number lexeme => [.number lexeme]
  | .string text => [.string text]
  | .array [] => [.openList, .closeList]
  | .array (item :: more) => .openList :: (tokens item ++ itemTokens more)
  | .object [] => [.openObject, .closeObject]
  | .object ((name, value) :: more) => .openObject :: .string name :: .colon :: (tokens value ++ memberTokens more)

/-- The tokens of the items after the first, up to the end of the list. -/
def itemTokens : List Json → List Token
  | [] => [.closeList]
  | item :: more => .comma :: (tokens item ++ itemTokens more)

/-- The tokens of the members after the first, up to the end of the object. -/
def memberTokens : List (Option String × Json) → List Token
  | [] => [.closeObject]
  | (name, value) :: more => .comma :: .string name :: .colon :: (tokens value ++ memberTokens more)

end

/-- The tokens that a scanner gives when a text follows. -/
def scanned (scan : Scan) (text : List Char) : Option (List Token) := (text.foldlM Scan.step scan).bind Scan.finish

theorem scanned_cons (scan : Scan) (c : Char) (text : List Char) :
    scanned scan (c :: text) = (scan.step c).bind fun next => scanned next text := by
  unfold scanned
  rw [List.foldlM_cons]
  cases scan.step c <;> rfl

theorem scanned_of_step {scan next : Scan} {c : Char} (step : scan.step c = some next) (text : List Char) :
    scanned scan (c :: text) = scanned next text := by
  rw [scanned_cons, step]
  rfl

/-- What may follow a value: a comma, a new line, or nothing. -/
def Delimited (text : List Char) : Prop := text = [] ∨ ∃ c more, text = c :: more ∧ (c = ',' ∨ c = '\n')

/-! ### Blanks -/

variable {found : List Token}

theorem scanned_blanks (n : Nat) (text : List Char) :
    scanned ⟨found, .between⟩ (List.replicate n ' ' ++ text) = scanned ⟨found, .between⟩ text := by
  induction n with
  | zero => rfl
  | succ n ih =>
    rw [List.replicate_succ, List.cons_append, scanned_of_step (show Scan.step _ ' ' = some _ from rfl)]
    exact ih

theorem scanned_newLine (level : Nat) (text : List Char) :
    scanned ⟨found, .between⟩ (newLine level ++ text) = scanned ⟨found, .between⟩ text := by
  unfold newLine
  rw [List.cons_append, scanned_of_step (show Scan.step _ '\n' = some _ from rfl)]
  exact scanned_blanks _ _

/-! ### Strings -/

theorem padded_control : ∀ n < 32, padded 16 4 n = ['0', '0', (n / 16).digitChar, (n % 16).digitChar] := by decide

/-- A control character is escaped by its code in four digits. -/
theorem scanned_control {w : Written} {c : Char} (control : c.toNat < 32) (text : List Char) :
    scanned ⟨found, .escape w⟩ ('u' :: (padded 16 4 c.toNat ++ text)) = scanned ⟨found, .string (w.push c)⟩ text := by
  have high := hexDigit?_digitChar (c.toNat / 16) (by omega)
  have low := hexDigit?_digitChar (c.toNat % 16) (by omega)
  have whole : c.toNat / 16 * 16 + c.toNat % 16 = c.toNat := by omega
  rw [padded_control c.toNat control, scanned_of_step (show Scan.step _ 'u' = some _ from rfl)]
  simp only [List.cons_append, List.nil_append]
  rw [scanned_of_step (show Scan.step _ '0' = some ⟨found, .unit w 1 0⟩ from rfl),
    scanned_of_step (show Scan.step _ '0' = some ⟨found, .unit w 2 0⟩ from rfl),
    scanned_of_step (show Scan.step _ _ = some ⟨found, .unit w 3 (c.toNat / 16)⟩ by simp [Scan.step, high])]
  refine scanned_of_step ?_ text
  have plain : ¬ (0xDC00 ≤ c.toNat ∧ c.toNat ≤ 0xDFFF) ∧ ¬ (0xD800 ≤ c.toNat ∧ c.toNat ≤ 0xDBFF) := by omega
  simp only [Scan.step, low, Option.bind_eq_bind, Option.bind_some, if_true, whole, Written.pushUnit, if_neg plain.1,
    if_neg plain.2, Char.ofNat_toNat]

theorem scanned_escapeChar (w : Written) (c : Char) (text : List Char) :
    scanned ⟨found, .string w⟩ (escapeChar c ++ text) = scanned ⟨found, .string (w.push c)⟩ text := by
  have escape : ∀ rest, scanned ⟨found, .string w⟩ ('\\' :: rest) = scanned ⟨found, .escape w⟩ rest := fun rest =>
    scanned_of_step rfl rest
  unfold escapeChar
  split
  · rw [List.cons_append, escape]
    exact scanned_of_step rfl text
  · rw [List.cons_append, escape]
    exact scanned_of_step rfl text
  · rw [List.cons_append, escape]
    exact scanned_of_step rfl text
  · rw [List.cons_append, escape]
    exact scanned_of_step rfl text
  · rw [List.cons_append, escape]
    exact scanned_of_step rfl text
  · next notQuote notBackslash _ _ _ =>
    split
    · next backspace =>
      have same : c = Char.ofNat 8 := by rw [← backspace, Char.ofNat_toNat]
      rw [List.cons_append, escape, same]
      exact scanned_of_step rfl text
    · split
      · next formFeed =>
        have same : c = Char.ofNat 12 := by rw [← formFeed, Char.ofNat_toNat]
        rw [List.cons_append, escape, same]
        exact scanned_of_step rfl text
      · split
        · next control =>
          rw [List.cons_append, escape, List.cons_append]
          exact scanned_control control text
        · next plain =>
          refine scanned_of_step ?_ text
          simp only [Scan.step]
          rw [if_neg notQuote, if_neg notBackslash, if_neg plain]

theorem scanned_escaped (back chars : List Char) (text : List Char) :
    scanned ⟨found, .string ⟨back, none, false⟩⟩ (chars.flatMap escapeChar ++ text) =
      scanned ⟨found, .string ⟨chars.reverse ++ back, none, false⟩⟩ text := by
  induction chars generalizing back with
  | nil => rfl
  | cons c chars ih =>
    have next := ih (c :: back)
    rw [List.flatMap_cons, List.append_assoc, scanned_escapeChar, List.reverse_cons, List.append_assoc]
    exact next

theorem scanned_quoted (text : String) (rest : List Char) :
    scanned ⟨found, .between⟩ (quoted text ++ rest) = scanned ⟨.string (some text) :: found, .between⟩ rest := by
  unfold quoted
  rw [List.cons_append, List.append_assoc, scanned_of_step (show Scan.step _ '"' = some ⟨found, .string .empty⟩ from rfl)]
  have inside := @scanned_escaped found [] text.toList (['"'] ++ rest)
  rw [show Written.empty = ⟨[], none, false⟩ from rfl, inside, List.append_nil]
  refine scanned_of_step ?_ rest
  simp [Scan.step, Written.text]

/-! ### Words -/

/-- A word is complete before whatever may follow a value. -/
theorem scanned_word {back rest : List Char} {token : Token} (spelled : wordToken? back.reverse = some token)
    (delimited : Delimited rest) : scanned ⟨found, .word back⟩ rest = scanned ⟨token :: found, .between⟩ rest := by
  rcases delimited with rfl | ⟨c, more, rfl, rfl | rfl⟩
  · simp [scanned, Scan.finish, spelled]
  · rw [scanned_of_step (show Scan.step _ ',' = some ⟨.comma :: token :: found, .between⟩ by
      simp [Scan.step, spelled, Scan.begin])]
    exact (scanned_of_step rfl more).symm
  · rw [scanned_of_step (show Scan.step _ '\n' = some ⟨token :: found, .between⟩ by
      simp [Scan.step, spelled, Scan.begin, isJsonBlank])]
    exact (scanned_of_step rfl more).symm

theorem scanned_null {rest : List Char} (delimited : Delimited rest) :
    scanned ⟨found, .between⟩ ("null".toList ++ rest) = scanned ⟨.null :: found, .between⟩ rest :=
  @scanned_word found "llun".toList rest _ rfl delimited

theorem scanned_true {rest : List Char} (delimited : Delimited rest) :
    scanned ⟨found, .between⟩ ("true".toList ++ rest) = scanned ⟨.bool true :: found, .between⟩ rest :=
  @scanned_word found "eurt".toList rest _ rfl delimited

theorem scanned_false {rest : List Char} (delimited : Delimited rest) :
    scanned ⟨found, .between⟩ ("false".toList ++ rest) = scanned ⟨.bool false :: found, .between⟩ rest :=
  @scanned_word found "eslaf".toList rest _ rfl delimited

/-! ### Numbers -/

theorem isNumberChar_of_digit {c : Char} (digit : (digit? c).isSome = true) : isNumberChar c = true := by
  simp [isNumberChar, digit]

theorem isNumberChar_signed {letter : Char} {digits : List Char}
    (good : ((letter == 'e' || letter == 'E') && !digits.isEmpty && digits.all (digit? · |>.isSome)) = true) :
    isNumberChar letter = true ∧ ∀ c ∈ digits, isNumberChar c = true := by
  simp only [Bool.and_eq_true, Bool.or_eq_true, beq_iff_eq, List.all_eq_true] at good
  obtain ⟨⟨letter, -⟩, digits⟩ := good
  refine ⟨?_, fun c member => isNumberChar_of_digit (digits c member)⟩
  rcases letter with rfl | rfl <;> rfl

theorem isNumberChar_exponent {text : List Char} {e : Option (Bool × List Char)} (read : exponent? text = some e) :
    ∀ c ∈ text, isNumberChar c = true := by
  unfold exponent? at read
  split at read
  · simp
  · next letter rest =>
    simp only [List.forall_mem_cons]
    split at read
    · dsimp only at read
      split at read
      · next good =>
        obtain ⟨first, digits⟩ := isNumberChar_signed good
        exact ⟨first, List.forall_mem_cons.mpr ⟨rfl, digits⟩⟩
      · cases read
    · dsimp only at read
      split at read
      · next good =>
        obtain ⟨first, digits⟩ := isNumberChar_signed good
        exact ⟨first, List.forall_mem_cons.mpr ⟨rfl, digits⟩⟩
      · cases read
    · dsimp only at read
      split at read
      · next good => exact isNumberChar_signed good
      · cases read

/-- The parts of a text that is a number without its sign. -/
def unsignedParts? (negative : Bool) (text : List Char) : Option NumberParts :=
  let isDigit := fun c => (digit? c).isSome
  let whole := text.takeWhile isDigit
  if whole.isEmpty || (whole.head? == some '0' && 1 < whole.length) then none else
    match text.dropWhile isDigit with
    | '.' :: rest =>
      let fraction := rest.takeWhile isDigit
      if fraction.isEmpty then none
      else (exponent? (rest.dropWhile isDigit)).map fun e => ⟨negative, whole, some fraction, e⟩
    | rest => (exponent? rest).map fun e => ⟨negative, whole, none, e⟩

theorem numberParts?_signed (text : List Char) : numberParts? ('-' :: text) = unsignedParts? true text := rfl

theorem numberParts?_unsigned {text : List Char} (unsigned : ∀ rest, text ≠ '-' :: rest) :
    numberParts? text = unsignedParts? false text := by
  unfold numberParts?
  split
  next negative rest signed =>
  split at signed
  · exact absurd rfl (unsigned _)
  · obtain ⟨rfl, rfl⟩ := Prod.mk.inj signed
    rfl

theorem isNumberChar_front {text rest : List Char} (tail : text.dropWhile (fun c => (digit? c).isSome) = rest)
    (good : ∀ c ∈ rest, isNumberChar c = true) : ∀ c ∈ text, isNumberChar c = true := by
  intro c member
  rw [← List.takeWhile_append_dropWhile (p := fun c => (digit? c).isSome) (l := text), tail] at member
  rcases List.mem_append.mp member with front | back
  · exact isNumberChar_of_digit (List.mem_takeWhile_imp (p := fun c => (digit? c).isSome) front)
  · exact good c back

/-- A number's text without its sign begins with a digit, and has only characters of numbers in it. -/
theorem numberText_unsigned {negative : Bool} {text : List Char} {parts : NumberParts}
    (read : unsignedParts? negative text = some parts) :
    ∃ c more, text = c :: more ∧ (digit? c).isSome = true ∧ ∀ c ∈ text, isNumberChar c = true := by
  unfold unsignedParts? at read
  dsimp only at read
  split at read
  · cases read
  · next good =>
    simp only [Bool.or_eq_true, not_or, Bool.not_eq_true] at good
    have each : ∀ c ∈ text, isNumberChar c = true := by
      split at read
      · next rest tail =>
        split at read
        · cases read
        · obtain ⟨e, exponent, -⟩ := Option.map_eq_some_iff.mp read
          exact isNumberChar_front tail (List.forall_mem_cons.mpr
            ⟨rfl, isNumberChar_front rfl (isNumberChar_exponent exponent)⟩)
      · obtain ⟨e, exponent, -⟩ := Option.map_eq_some_iff.mp read
        exact isNumberChar_front rfl (isNumberChar_exponent exponent)
    cases text with
    | nil => simp at good
    | cons c more =>
      refine ⟨c, more, rfl, ?_, each⟩
      by_contra other
      have nothing := good.1
      rw [List.takeWhile_cons_of_neg (by simpa using other)] at nothing
      simp at nothing

/-- A number's text begins with a minus or a digit, and has only characters of numbers in it. -/
theorem numberText {text : List Char} (number : (numberParts? text).isSome = true) :
    ∃ c more, text = c :: more ∧ (c = '-' ∨ (digit? c).isSome = true) ∧ ∀ c ∈ text, isNumberChar c = true := by
  obtain ⟨parts, read⟩ := Option.isSome_iff_exists.mp number
  by_cases signed : ∃ rest, text = '-' :: rest
  · obtain ⟨rest, rfl⟩ := signed
    rw [numberParts?_signed] at read
    obtain ⟨c, more, rfl, -, each⟩ := numberText_unsigned read
    exact ⟨_, _, rfl, .inl rfl, List.forall_mem_cons.mpr ⟨rfl, each⟩⟩
  · rw [numberParts?_unsigned fun rest same => signed ⟨rest, same⟩] at read
    obtain ⟨c, more, same, digit, each⟩ := numberText_unsigned read
    exact ⟨c, more, same, .inr digit, each⟩

theorem scanned_lexeme {back chars : List Char} (each : ∀ c ∈ chars, isNumberChar c = true) (text : List Char) :
    scanned ⟨found, .number back⟩ (chars ++ text) = scanned ⟨found, .number (chars.reverse ++ back)⟩ text := by
  induction chars generalizing back with
  | nil => rfl
  | cons c chars ih =>
    obtain ⟨first, others⟩ := List.forall_mem_cons.mp each
    rw [List.cons_append, List.reverse_cons, List.append_assoc,
      scanned_of_step (show Scan.step _ c = some ⟨found, .number (c :: back)⟩ by simp [Scan.step, first])]
    exact ih others

theorem scanned_number {lexeme : String} (number : (numberParts? lexeme.toList).isSome = true) {rest : List Char}
    (delimited : Delimited rest) :
    scanned ⟨found, .between⟩ (lexeme.toList ++ rest) = scanned ⟨.number lexeme :: found, .between⟩ rest := by
  obtain ⟨c, more, spelled, first, each⟩ := numberText number
  have begun : Scan.begin found c = some ⟨found, .number [c]⟩ := by
    rcases first with rfl | digit
    · rfl
    · have range : 48 ≤ c.toNat ∧ c.toNat ≤ 57 := by
        by_contra other
        simp [digit?, other] at digit
      unfold Scan.begin
      split <;> first | exact absurd range (by decide) | skip
      have full : isJsonBlank c = false := by
        unfold isJsonBlank
        simp only [Bool.or_eq_false_iff, beq_eq_false_iff_ne]
        refine ⟨⟨⟨?_, ?_⟩, ?_⟩, ?_⟩ <;> rintro rfl <;> exact absurd range (by decide)
      simp [full, digit]
  have token : numberToken? lexeme.toList = some (.number lexeme) := by
    obtain ⟨parts, read⟩ := Option.isSome_iff_exists.mp number
    simp [numberToken?, read]
  have whole : scanned ⟨found, .between⟩ (lexeme.toList ++ rest) = scanned ⟨found, .number lexeme.toList.reverse⟩ rest := by
    rw [spelled, List.cons_append, scanned_of_step (show Scan.step ⟨found, .between⟩ c = some _ from begun),
      scanned_lexeme fun other member => each other (spelled ▸ List.mem_cons_of_mem c member), List.reverse_cons]
  rw [whole]
  rcases delimited with rfl | ⟨c, more, rfl, rfl | rfl⟩
  · simp [scanned, Scan.finish, token]
  · rw [scanned_of_step (show Scan.step _ ',' = some ⟨.comma :: .number lexeme :: found, .between⟩ by
      simp [Scan.step, isNumberChar, digit?, token, Scan.begin])]
    exact (scanned_of_step rfl more).symm
  · rw [scanned_of_step (show Scan.step _ '\n' = some ⟨.number lexeme :: found, .between⟩ by
      simp [Scan.step, isNumberChar, digit?, token, Scan.begin, isJsonBlank])]
    exact (scanned_of_step rfl more).symm

/-! ### Values -/

theorem delimited_newLine (level : Nat) (rest : List Char) : Delimited (newLine level ++ rest) :=
  .inr ⟨'\n', List.replicate (2 * level) ' ' ++ rest, rfl, .inr rfl⟩

theorem delimited_prettyItems (level : Nat) (items : List Json) (rest : List Char) :
    Delimited (prettyItems level items ++ rest) := by
  cases items with
  | nil =>
    rw [prettyItems, List.append_assoc]
    exact delimited_newLine level _
  | cons item more => exact .inr ⟨',', _, by rw [prettyItems, List.cons_append], .inl rfl⟩

theorem delimited_prettyMembers (level : Nat) (members : List (Option String × Json)) (rest : List Char) :
    Delimited (prettyMembers level members ++ rest) := by
  cases members with
  | nil =>
    rw [prettyMembers, List.append_assoc]
    exact delimited_newLine level _
  | cons member more =>
    obtain ⟨name, value⟩ := member
    exact .inr ⟨',', _, by rw [prettyMembers, List.cons_append], .inl rfl⟩

theorem scanned_name {name : Option String} (text : name.isSome = true) (rest : List Char) :
    scanned ⟨found, .between⟩ (quotedOption name ++ ':' :: ' ' :: rest) =
      scanned ⟨.colon :: .string name :: found, .between⟩ rest := by
  obtain ⟨text, rfl⟩ := Option.isSome_iff_exists.mp text
  rw [quotedOption, Option.getD_some, scanned_quoted, scanned_of_step rfl, scanned_of_step rfl]

mutual

/-- The scanner finds the tokens of a written value. -/
theorem scanned_value (value : Json) (proper : Proper value) (level : Nat) (found : List Token) {rest : List Char}
    (delimited : Delimited rest) :
    scanned ⟨found, .between⟩ (prettyChars level value ++ rest) =
      scanned ⟨(tokens value).reverse ++ found, .between⟩ rest := by
  match value with
  | .null => exact scanned_null delimited
  | .bool true => exact scanned_true delimited
  | .bool false => exact scanned_false delimited
  | .number lexeme => exact scanned_number proper delimited
  | .string text =>
    obtain ⟨text, rfl⟩ := Option.isSome_iff_exists.mp proper
    exact scanned_quoted text rest
  | .array [] =>
    rw [prettyChars, List.cons_append, List.cons_append, scanned_of_step rfl, scanned_of_step rfl]
    rfl
  | .array (item :: more) =>
    obtain ⟨first, others⟩ := proper
    rw [prettyChars, List.cons_append, scanned_of_step rfl, List.append_assoc, List.append_assoc, scanned_newLine,
      scanned_value item first (level + 1) _ (delimited_prettyItems level more rest), scanned_items more others, tokens]
    simp
  | .object [] =>
    rw [prettyChars, List.cons_append, List.cons_append, scanned_of_step rfl, scanned_of_step rfl]
    rfl
  | .object ((name, value) :: more) =>
    obtain ⟨text, first, others⟩ := proper
    rw [prettyChars, List.cons_append, scanned_of_step rfl]
    simp only [List.append_assoc, List.cons_append]
    rw [scanned_newLine, scanned_name text,
      scanned_value value first (level + 1) _ (delimited_prettyMembers level more rest), scanned_members more others, tokens]
    simp

theorem scanned_items (items : List Json) (proper : ProperItems items) (level : Nat) (found : List Token)
    (rest : List Char) :
    scanned ⟨found, .between⟩ (prettyItems level items ++ rest) =
      scanned ⟨(itemTokens items).reverse ++ found, .between⟩ rest := by
  match items with
  | [] =>
    rw [prettyItems, List.append_assoc, scanned_newLine]
    exact scanned_of_step rfl rest
  | item :: more =>
    obtain ⟨first, others⟩ := proper
    rw [prettyItems, List.cons_append, scanned_of_step rfl, List.append_assoc, List.append_assoc, scanned_newLine,
      scanned_value item first (level + 1) _ (delimited_prettyItems level more rest), scanned_items more others, itemTokens]
    simp

theorem scanned_members (members : List (Option String × Json)) (proper : ProperMembers members) (level : Nat)
    (found : List Token) (rest : List Char) :
    scanned ⟨found, .between⟩ (prettyMembers level members ++ rest) =
      scanned ⟨(memberTokens members).reverse ++ found, .between⟩ rest := by
  match members with
  | [] =>
    rw [prettyMembers, List.append_assoc, scanned_newLine]
    exact scanned_of_step rfl rest
  | (name, value) :: more =>
    obtain ⟨text, first, others⟩ := proper
    rw [prettyMembers, List.cons_append, scanned_of_step rfl]
    simp only [List.append_assoc, List.cons_append]
    rw [scanned_newLine, scanned_name text,
      scanned_value value first (level + 1) _ (delimited_prettyMembers level more rest), scanned_members more others,
      memberTokens]
    simp

end

theorem tokens?_pretty {value : Json} (proper : Proper value) : tokens? value.pretty.toList = some (tokens value) := by
  have scan := scanned_value value proper 0 [] (.inl rfl)
  rw [List.append_nil, List.append_nil] at scan
  rw [pretty, String.toList_ofList]
  refine Eq.trans scan ?_
  simp [scanned, Scan.finish]

end GatedRepair.Json

/-!
## Reading undoes writing

A value that is written on many lines is read back as it was (`parse?_pretty`).
-/

namespace GatedRepair.Json

/-- What has been read after some tokens. -/
abbrev read (stage : Stage) (tokens : List Token) : Option Stage := tokens.foldlM Stage.step stage

theorem read_of_step {stage next : Stage} {token : Token} (step : stage.step token = some next) (rest : List Token) :
    read stage (token :: rest) = read next rest := by
  unfold read
  rw [List.foldlM_cons, step]
  rfl

/-- The first item of a list is read like any value. -/
theorem read_firstItem (value : Json) (stack : List Frame) (rest : List Token) :
    read (.firstItem stack) (tokens value ++ rest) = read (.value (.items [] :: stack)) (tokens value ++ rest) := by
  match value with
  | .null => rfl
  | .bool _ => rfl
  | .number _ => rfl
  | .string _ => rfl
  | .array [] => rfl
  | .array (_ :: _) => rfl
  | .object [] => rfl
  | .object ((_, _) :: _) => rfl

mutual

/-- The tokens that spell a value are read as that value. -/
theorem read_value (value : Json) (stack : List Frame) (rest : List Token) :
    read (.value stack) (tokens value ++ rest) = read (.after value stack) rest := by
  match value with
  | .null => rfl
  | .bool _ => rfl
  | .number _ => rfl
  | .string _ => rfl
  | .array [] => rfl
  | .array (item :: more) =>
    rw [tokens, List.cons_append, read_of_step rfl, List.append_assoc, read_firstItem, read_value item, read_items more]
    simp
  | .object [] => rfl
  | .object ((name, value) :: more) =>
    rw [tokens, List.cons_append, read_of_step rfl, List.cons_append, read_of_step rfl, List.cons_append, read_of_step rfl,
      List.append_assoc, read_value value, read_members more]
    simp

theorem read_items (items : List Json) (done : Json) (back : List Json) (stack : List Frame) (rest : List Token) :
    read (.after done (.items back :: stack)) (itemTokens items ++ rest) =
      read (.after (.array ((done :: back).reverse ++ items)) stack) rest := by
  match items with
  | [] =>
    rw [itemTokens, List.append_nil]
    rfl
  | item :: more =>
    rw [itemTokens, List.cons_append, read_of_step rfl, List.append_assoc, read_value item, read_items more]
    simp

theorem read_members (members : List (Option String × Json)) (done : Json) (back : List (Option String × Json))
    (name : Option String) (stack : List Frame) (rest : List Token) :
    read (.after done (.members back name :: stack)) (memberTokens members ++ rest) =
      read (.after (.object (((name, done) :: back).reverse ++ members)) stack) rest := by
  match members with
  | [] =>
    rw [memberTokens, List.append_nil]
    rfl
  | (other, value) :: more =>
    rw [memberTokens, List.cons_append, read_of_step rfl, List.cons_append, read_of_step rfl, List.cons_append,
      read_of_step rfl, List.append_assoc, read_value value, read_members more]
    simp

end

/-- A value is read back from its text. -/
theorem parse?_pretty {value : Json} (proper : Proper value) : parse? value.pretty = some value := by
  have whole := read_value value [] []
  rw [List.append_nil] at whole
  unfold parse? ofTokens?
  rw [tokens?_pretty proper, Option.bind_some, show (tokens value).foldlM Stage.step (.value []) = _ from whole]
  rfl

end GatedRepair.Json
