import GatedRepair.Proofs.Diagnostic.Summary
import GatedRepair.Proofs.Pattern.Language

/-!
# Problems with codes

A linter that tells of a problem with a code, and a test runner that tells of a failed test, are read back line by line. The line
with a code comes to its row because every earlier row refuses it: it does not end in a bracket, and behind its place stands a
code, which is no word for a severity.
-/

namespace GatedRepair

open Text Number

/-! ## What is printed -/

/-- A number as a tool may write it, with zeros in front up to a width. -/
structure Numeral where
  value : Nat
  width : Nat

def Numeral.text (n : Numeral) : String := String.ofList (padded 10 n.width n.value)

theorem Numeral.isNumeral {n : Numeral} (small : n.value < bound64) : IsNumeral n.text.toList n.value := by
  rw [text, String.toList_ofList]
  exact isNumeral_padded small n.width

/-- A problem of a linter that gives it a code, of letters with digits behind them. -/
structure CodedProblem where
  file : String
  line : Numeral
  column : Numeral
  letters : String
  number : String
  message : String

namespace CodedProblem

def code (p : CodedProblem) : String := p.letters ++ p.number

/-- The line with which a linter tells of the problem. -/
def print (p : CodedProblem) : String :=
  p.file ++ ":" ++ p.line.text ++ ":" ++ p.column.text ++ ": " ++ p.code ++ " " ++ p.message

structure Printable (p : CodedProblem) : Prop where
  file : IsFileName p.file
  line : p.line.value < bound64
  column : p.column.value < bound64
  letters : p.letters.toList ≠ [] ∧ ∀ c ∈ p.letters.toList, isAsciiUpper c = true
  number : p.number.toList ≠ [] ∧ ∀ c ∈ p.number.toList, isAsciiDigit c = true
  message : Framed p.message.toList ∧ '\n' ∉ p.message.toList
  ending : p.message.toList.getLast? ≠ some ']'

/-- Codes that begin with `F` or `E9` are of errors. -/
def severity (p : CodedProblem) : Severity :=
  if ['F'] <+: p.code.toList ∨ ['E', '9'] <+: p.code.toList then .high else .medium

def diagnostic (p : CodedProblem) : Diagnostic where
  file := some p.file
  line := some p.line.value
  column := some p.column.value
  severity := p.severity
  rule := some p.code
  message := p.message

/-- The defect that the problem is. -/
def defect (now : Timestamp) (p : CodedProblem) : Defect :=
  ((Defect.new .staticAnalysis p.severity (some p.file) (some p.line.value) p.message now).withColumn
    (some p.column.value)).withRule (some p.code)

theorem toList_print (p : CodedProblem) : p.print.toList =
    p.file.toList ++ ':' :: (p.line.text.toList ++ ':' :: (p.column.text.toList ++ ':' :: ' ' ::
      (p.code.toList ++ ' ' :: p.message.toList))) := by
  simp [print]

end CodedProblem

/-- The defect that a failed test is. -/
def FailedTest.defect (now : Timestamp) (f : FailedTest) : Defect :=
  (Defect.new .testFailure .high (some f.file) none (f.reason.getD ("test " ++ f.test ++ " failed")) now).withRule (some f.test)

/-! ## Rows that refuse a line -/

theorem Text.isDigit_of_blank {c : Char} (blank : isBlank c = true) : isDigit c = false := by
  have each : ∀ n ∈ [9, 10, 11, 12, 13, 32, 0x85, 0xA0, 0x1680, 0x2000, 0x2001, 0x2002, 0x2003, 0x2004, 0x2005, 0x2006, 0x2007,
      0x2008, 0x2009, 0x200A, 0x2028, 0x2029, 0x202F, 0x205F, 0x3000],
      (if n < 128 then 48 ≤ n && n ≤ 57 else inRanges digitRanges n) = false := by decide +kernel
  refine each c.toNat ?_
  simp only [isBlank, Bool.or_eq_true, Bool.and_eq_true, beq_iff_eq, decide_eq_true_eq] at blank
  simp only [List.mem_cons, List.not_mem_nil, or_false]
  omega

section
open Pattern Row

variable {file line column rest taken back : List Char} {l c : Nat}

theorem Row.read_eq_none {name : String} {p : Pattern} {meaning : Found → Option LineMeaning} {line : List Char}
    (absent : p.first? line = none) : (ofPattern name p meaning).read line = none := by
  simp only [ofPattern, find?_eq, absent, Option.bind_none]

theorem Diagnostic.recognise_later {row : Row} {rows : List Row} {line : List Char} (unread : row.read line = none) :
    recognise (row :: rows) line = recognise rows line := by
  rw [recognise, List.findSome?_cons, unread]
  rfl

/-- What stands in front of the colon behind a file name, and the number behind it. -/
theorem exists_of_takes_line {parts : List Pattern} {before : Option Char}
    (takes : (all (atStart :: fileName :: colon :: group "line" digits :: parts)).Takes before taken rest) :
    ∃ file line more before', taken = file ++ ':' :: (line ++ more) ∧ (∀ c ∈ file, (c != ':') = true) ∧
      (line ≠ [] ∧ ∀ c ∈ line, isDigit c = true) ∧ (all parts).Takes before' more rest := by
  obtain ⟨_, _, rfl, start, takes⟩ := takes_cons.mp takes
  obtain ⟨rfl, -⟩ := takes_atStart.mp start
  obtain ⟨file, _, rfl, isFile, takes⟩ := takes_cons.mp takes
  obtain ⟨_, _, rfl, isColon, takes⟩ := takes_cons.mp takes
  obtain rfl := takes_char.mp isColon
  obtain ⟨line, more, rfl, isLine, takes⟩ := takes_cons.mp takes
  refine ⟨file, line, more, _, by simp, fun c inside => ?_, takes_some1.mp isLine, takes⟩
  exact (Bool.and_eq_true_iff.mp ((takes_some1.mp isFile).2 c inside)).2

/-- What stands in front of a place's colons, and behind the last. -/
theorem exists_of_takes_place {before : Option Char} (takes : place.Takes before taken rest) :
    ∃ file line column, taken = file ++ ':' :: (line ++ ':' :: column) ∧ (∀ c ∈ file, (c != ':') = true) ∧
      (line ≠ [] ∧ ∀ c ∈ line, isDigit c = true) ∧ ∀ c ∈ column, isDigit c = true := by
  obtain ⟨file, line, _, _, rfl, plain, isLine, takes⟩ := exists_of_takes_line takes
  obtain ⟨_, _, rfl, isColon, takes⟩ := takes_cons.mp takes
  obtain rfl := takes_char.mp isColon
  obtain ⟨column, _, rfl, isColumn, takes⟩ := takes_cons.mp takes
  obtain rfl := takes_nil.mp takes
  exact ⟨file, line, column, by simp, plain, isLine, (takes_some1.mp isColumn).2⟩

/-- Where a line begins with a place, there is no other one at its beginning. -/
theorem rest_of_takes_place (plain : ∀ c ∈ file, isBlank c = false ∧ c ≠ ':') (isLine : IsNumeral line l)
    (isColumn : IsNumeral column c) (stops : ∀ c, rest.head? = some c → isDigit c = false)
    (same : file ++ ':' :: (line ++ ':' :: (column ++ rest)) = taken ++ back) (takes : place.Takes none taken back)
    (stops' : ∀ c, back.head? = some c → isDigit c = false) : back = rest := by
  obtain ⟨file', line', column', rfl, plain', ⟨-, isLine'⟩, isColumn'⟩ := exists_of_takes_place takes
  simp only [List.append_assoc, List.cons_append] at same
  have colon : ∀ text : List Char, ∀ c, (':' :: text).head? = some c → (c != ':') = false := by
    rintro text c ⟨⟩
    rfl
  obtain ⟨-, same⟩ := cut_unique same (fun c inside => bne_iff_ne.mpr (plain c inside).2) plain' (colon _) (colon _)
  obtain ⟨-, same⟩ := cut_unique (List.cons.inj same).2 isLine.digits isLine' (colon_stops _) (colon_stops _)
  obtain ⟨-, same⟩ := cut_unique (List.cons.inj same).2 isColumn.digits isColumn' stops stops'
  exact same.symm

/-- A line that does not end in a bracket is refused where a bracket has to stand at the end. -/
theorem first?_eq_none_of_ending {parts : List Pattern} {text : List Char} {c : Char} (starts : Starts (all parts)) (n : Nat)
    (parts_end : parts.drop n = [char c, atEnd]) (other : text.getLast? ≠ some c) : (all parts).first? text = none := by
  refine starts.first?_eq_none fun taken back split takes => other ?_
  obtain ⟨front, tail, rfl, last⟩ := takes_drop n takes
  rw [parts_end] at last
  obtain ⟨_, _, rfl, isLast, last⟩ := takes_cons.mp last
  obtain rfl := takes_char.mp isLast
  obtain ⟨_, _, rfl, isEnd, last⟩ := takes_cons.mp last
  obtain ⟨rfl, ended⟩ := takes_atEnd.mp isEnd
  obtain rfl := takes_nil.mp last
  obtain rfl : back = [] := ended
  simp [split]

end

namespace CodedProblem

open Pattern Row

variable {p : CodedProblem}

theorem Printable.code_full (printable : p.Printable) : ∀ c ∈ p.code.toList, isBlank c = false := by
  intro c inside
  have range : 48 ≤ c.toNat ∧ c.toNat ≤ 90 := by
    rw [code, String.toList_append] at inside
    rcases List.mem_append.mp inside with letter | digit
    · have upper := printable.letters.2 c letter
      simp only [isAsciiUpper, Bool.and_eq_true, decide_eq_true_eq] at upper
      omega
    · have digit := printable.number.2 c digit
      simp only [isAsciiDigit, Bool.and_eq_true, decide_eq_true_eq] at digit
      omega
  simp only [isBlank, Bool.or_eq_false_iff, Bool.and_eq_false_iff, beq_eq_false_iff_ne, decide_eq_false_iff_not]
  omega

theorem Printable.framed_code (printable : p.Printable) : Framed p.code.toList :=
  framed_of_full (by simp [code, printable.letters.1]) printable.code_full

theorem Printable.behind_place (printable : p.Printable) {taken back : List Char} (same : p.print.toList = taken ++ back)
    (takes : place.Takes none taken back) (stops : ∀ c, back.head? = some c → isDigit c = false) :
    back = ':' :: ' ' :: (p.code.toList ++ ' ' :: p.message.toList) := by
  rw [toList_print] at same
  exact rest_of_takes_place printable.file.2 (Numeral.isNumeral printable.line) (Numeral.isNumeral printable.column) (colon_stops _)
    same takes stops

theorem Printable.split_code (printable : p.Printable) {taken gap back : List Char}
    (same : p.print.toList = taken ++ (':' :: (gap ++ back))) (takes : place.Takes none taken (':' :: (gap ++ back)))
    (isGap : ∀ c ∈ gap, isBlank c = true) (stops : ∀ c, back.head? = some c → isBlank c = false) :
    p.code.toList ++ ' ' :: p.message.toList = back := by
  have behind : gap ++ back = [' '] ++ (p.code.toList ++ ' ' :: p.message.toList) :=
    (List.cons.inj (printable.behind_place same takes (colon_stops _))).2
  exact (cut_unique behind isGap (List.forall_mem_singleton.mpr rfl) stops (printable.framed_code.head?_append _)).2.symm

/-- No word for a severity stands where the code does. -/
theorem Printable.first?_generic (printable : p.Printable) {words : List String} {parts : List Pattern}
    (plain : ∀ word ∈ words, word.toList ≠ [] ∧ (word.toList.map asciiLower).all isAsciiLower = true) :
    (all (place :: maybe colon :: blanks1 :: group "sev" (first (words.map anyCase)) :: blanks1 :: parts)).first?
      p.print.toList = none := by
  refine Starts.first?_eq_none (starts_atStart.cons.cons) fun taken back split takes => ?_
  obtain ⟨placed, _, rfl, isPlace, takes⟩ := takes_cons.mp takes
  obtain ⟨mark, _, rfl, isMark, takes⟩ := takes_cons.mp takes
  obtain ⟨gap, _, rfl, isGap, takes⟩ := takes_cons.mp takes
  obtain ⟨name, _, rfl, isName, takes⟩ := takes_cons.mp takes
  obtain ⟨gap', rest, rfl, isGap', -⟩ := takes_cons.mp takes
  obtain ⟨filled, blank⟩ := takes_some1.mp isGap
  obtain ⟨filled', blank'⟩ := takes_some1.mp isGap'
  obtain ⟨b, more, rfl⟩ := List.exists_cons_of_ne_nil filled
  obtain ⟨b', more', rfl⟩ := List.exists_cons_of_ne_nil filled'
  simp only [List.append_assoc] at split isPlace
  rcases takes_maybe.mp isMark with isColon | rfl
  · obtain rfl := takes_char.mp isColon
    rw [List.singleton_append] at split isPlace
    -- The word would be the code, in which there is a digit.
    obtain ⟨found, member, isWord⟩ := exists_of_takes_first (takes_group.mp isName)
    obtain ⟨word, among, rfl⟩ := List.mem_map.mp member
    have same := lower_of_takes_anyCase isWord
    have letters : ∀ c ∈ name, isBlank c = false ∧ isAsciiDigit c = false := fun c inside =>
      letter_of_lower (List.all_eq_true.mp (plain word among).2 _ (same ▸ List.mem_map_of_mem inside))
    have any : name ≠ [] := by
      rintro rfl
      exact (plain word among).1 (List.map_eq_nil_iff.mp same.symm)
    have framed := framed_of_full any fun c inside => (letters c inside).1
    have behind := printable.split_code split isPlace blank (framed.head?_append _)
    have stops : ∀ c, (b' :: more' ++ (rest ++ back)).head? = some c → notBlank c = false := by
      rintro c ⟨⟩
      simp [notBlank, blank' b' (by simp)]
    have code := (cut_unique behind (fun c inside => by simp [notBlank, printable.code_full c inside])
      (fun c inside => by simp [notBlank, letters c inside]) (by rintro c ⟨⟩; rfl) stops).1
    obtain ⟨d, digits, number⟩ := List.exists_cons_of_ne_nil printable.number.1
    have inside : d ∈ p.code.toList := by simp [CodedProblem.code, number]
    have digit := printable.number.2 d (by simp [number])
    rw [code] at inside
    exact absurd digit (by simp [letters d inside])
  · -- A blank would stand where the colon does.
    have behind := printable.behind_place split isPlace fun c head => by
      obtain rfl := Option.some.inj head
      exact isDigit_of_blank (blank b (by simp))
    obtain ⟨rfl, -⟩ := List.cons.inj behind
    exact absurd (blank ':' (by simp)) (by decide)

/-- No word that begins with a small letter stands where the code does. -/
theorem Printable.first?_compiler (printable : p.Printable) {words : List String} {parts : List Pattern}
    (small : ∀ word ∈ words, word.toList.head?.any isAsciiLower = true) :
    (all (place :: colon :: blanks1 :: group "sev" (first (words.map Pattern.text)) :: parts)).first? p.print.toList = none := by
  refine Starts.first?_eq_none (starts_atStart.cons.cons) fun taken back split takes => ?_
  obtain ⟨placed, _, rfl, isPlace, takes⟩ := takes_cons.mp takes
  obtain ⟨mark, _, rfl, isColon, takes⟩ := takes_cons.mp takes
  obtain ⟨gap, _, rfl, isGap, takes⟩ := takes_cons.mp takes
  obtain ⟨name, rest, rfl, isName, -⟩ := takes_cons.mp takes
  obtain rfl := takes_char.mp isColon
  obtain ⟨found, member, isWord⟩ := exists_of_takes_first (takes_group.mp isName)
  obtain ⟨word, among, rfl⟩ := List.mem_map.mp member
  obtain ⟨c, head, lower⟩ := Option.any_eq_true _ _ |>.mp (small word among)
  obtain ⟨more, begins⟩ := List.head?_eq_some_iff.mp head
  obtain rfl := (takes_text.mp isWord).trans begins
  simp only [List.append_assoc, List.cons_append, List.nil_append] at split isPlace
  have lower_eq : asciiLower c = c := by
    simp only [isAsciiLower, Bool.and_eq_true, decide_eq_true_eq] at lower
    rw [asciiLower, if_neg]
    simp only [isAsciiUpper, Bool.and_eq_true, decide_eq_true_eq]
    omega
  have behind := printable.split_code split isPlace (takes_some1.mp isGap).2 fun d head => by
    obtain rfl := Option.some.inj head
    exact (letter_of_lower (lower_eq.symm ▸ lower)).1
  obtain ⟨d, letters, first⟩ := List.exists_cons_of_ne_nil printable.letters.1
  have upper := printable.letters.2 d (by simp [first])
  obtain rfl : d = c := by
    rw [code, String.toList_append, first] at behind
    exact (List.cons.inj behind).1
  simp only [isAsciiLower, isAsciiUpper, Bool.and_eq_true, decide_eq_true_eq] at lower upper
  omega

theorem Printable.getLast?_print (printable : p.Printable) : p.print.toList.getLast? ≠ some ']' := by
  obtain ⟨last, ends, -⟩ := printable.message.1.last
  obtain ⟨front, split⟩ := List.getLast?_eq_some_iff.mp ends
  have other := printable.ending
  rw [ends] at other
  have whole : p.print.toList = p.file.toList ++ ':' :: (p.line.text.toList ++ ':' :: (p.column.text.toList ++ ':' :: ' ' ::
      (p.code.toList ++ ' ' :: front))) ++ [last] := by
    simp [toList_print, split]
  rwa [whole, List.getLast?_concat]

/-- The letters and the digits stand where a code is looked for. -/
theorem Printable.prefers_code (printable : p.Printable) (before : Option Char) (groups : Groups) :
    Prefers (.seq (some1 isAsciiUpper) digits) (.of before (p.code.toList ++ ' ' :: p.message.toList) groups)
      (.of (p.number.toList.getLast?.or (p.letters.toList.getLast?.or before)) (' ' :: p.message.toList) groups) := by
  have upper : ∀ c, (p.number.toList ++ ' ' :: p.message.toList).head? = some c → isAsciiUpper c = false := by
    obtain ⟨d, digits, number⟩ := List.exists_cons_of_ne_nil printable.number.1
    have digit := printable.number.2 d (by simp [number])
    rw [number]
    rintro c ⟨⟩
    simp only [isAsciiDigit, isAsciiUpper, Bool.and_eq_true, Bool.and_eq_false_iff, decide_eq_true_eq,
      decide_eq_false_iff_not] at digit ⊢
    omega
  have decimal : ∀ c ∈ p.number.toList, isDigit c = true := by
    intro c inside
    have digit := printable.number.2 c inside
    simp only [isAsciiDigit, Bool.and_eq_true, decide_eq_true_eq] at digit
    rw [isDigit, if_pos (by omega)]
    simpa using digit
  rw [CodedProblem.code, String.toList_append, List.append_assoc]
  exact (prefers_some1 printable.letters.1 printable.letters.2 upper).seq
    (prefers_some1 printable.number.1 decimal (by rintro c ⟨⟩; rfl))

theorem severity_code (p : CodedProblem) :
    (if p.code.startsWith "F" || p.code.startsWith "E9" then Severity.high else .medium) = p.severity := by
  simp only [severity, Bool.or_eq_true, String.startsWith_string_iff]
  rfl

/-- A problem with a code is read as it was printed. -/
theorem recognise_print (printable : p.Printable) :
    Diagnostic.recognise (Tables.standard .staticAnalysis) p.print.toList = some (.diagnostic p.diagnostic) := by
  have isLine := Numeral.isNumeral printable.line
  have isColumn := Numeral.isNumeral printable.column
  -- The earlier rows refuse the line.
  refine (Diagnostic.recognise_later (read_eq_none ?_)).trans ?_
  · exact first?_eq_none_of_ending (starts_atStart.cons.cons) 9 rfl printable.getLast?_print
  refine (Diagnostic.recognise_later (read_eq_none ?_)).trans ?_
  · exact @Printable.first?_generic p printable ["critical", "fatal", "error", "warning", "info", "note", "hint"] _ (by decide)
  refine (Diagnostic.recognise_later (read_eq_none ?_)).trans ?_
  · exact @Printable.first?_compiler p printable ["fatal error", "error", "warning", "note"] _ (by decide)
  rw [toList_print]
  have located := prefers_place printable.file.1 printable.file.2 isLine isColumn
    (colon_stops (' ' :: (p.code.toList ++ ' ' :: p.message.toList)))
  refine recognise_first (located.cons <| (prefers_char ':').cons <| (prefers_blanks1 (printable.framed_code.head?_append _)).cons <|
    ((printable.prefers_code _ _).group "code").cons <| (prefers_blanks1 ?_).cons <|
    (prefers_restOfLine printable.message.1 printable.message.2 _ _).cons <| prefers_atEnd.cons prefers_nil) ?_
  · simpa using printable.message.1.head?_append []
  generalize read : Found.mk _ _ = found
  have file : textOf found "file" = some (String.ofList p.file.toList) :=
    textOf_of_group (by rw [← read]; simp) printable.file.framed
  have line : numberOf found "line" = some p.line.value := numberOf_of_group (by rw [← read]; simp) isLine
  have column : numberOf found "col" = some p.column.value := numberOf_of_group (by rw [← read]; simp) isColumn
  have code : textOf found "code" = some (String.ofList p.code.toList) :=
    textOf_of_group (by rw [← read]; simp) printable.framed_code
  have message : textOf found "msg" = some (String.ofList p.message.toList) :=
    textOf_of_group (by rw [← read]; simp) printable.message.1
  simp only [String.ofList_toList] at file code message
  simp only [Row.coded, file, line, column, code, message, Option.map_some, Option.getD_some, p.severity_code]
  rfl

theorem Printable.readBack (printable : p.Printable) : Diagnostic.ReadBack .staticAnalysis p.print p.diagnostic := by
  refine ⟨Diagnostic.countedLines_framed ?_ ?_, recognise_print printable, rfl, printable.message.1⟩
  · have whole := printable.file.framed.append printable.message.1
      (':' :: (p.line.text.toList ++ ':' :: (p.column.text.toList ++ ':' :: ' ' :: (p.code.toList ++ [' ']))))
    simpa [toList_print] using whole
  · have file := newline_not_mem_of_full fun c inside => (printable.file.2 c inside).1
    have code := newline_not_mem_of_full printable.code_full
    have line : '\n' ∉ p.line.text.toList := fun inside =>
      absurd ((Numeral.isNumeral printable.line).digits _ inside) (by decide)
    have column : '\n' ∉ p.column.text.toList := fun inside =>
      absurd ((Numeral.isNumeral printable.column).digits _ inside) (by decide)
    simp [toList_print, file, code, line, column, printable.message.2]

theorem toDefect_diagnostic (now : Timestamp) (framed : Framed p.message.toList) :
    Diagnostic.toDefect .staticAnalysis now p.diagnostic = p.defect now := by
  rw [Diagnostic.toDefect, Diagnostic.finalMessage_framed framed]
  rfl

end CodedProblem

/-! ## Failed tests -/

namespace FailedTest

variable {f : FailedTest}

theorem Printable.framed_message (printable : f.Printable) : Framed f.diagnostic.message.toList := by
  cases given : f.reason with
  | none =>
    have begins : Framed "test".toList := by decide
    have ends : Framed "failed".toList := by decide
    have whole := begins.append ends (" ".toList ++ (f.test.toList ++ " ".toList))
    simpa [diagnostic, given] using whole
  | some reason => simpa [diagnostic, given] using (printable.reason reason given).1

theorem Printable.readBack (printable : f.Printable) : Diagnostic.ReadBack .testFailure f.print f.diagnostic := by
  refine ⟨Diagnostic.countedLines_framed ?_ ?_, recognise_print printable, rfl, printable.framed_message⟩
  · have begins : Framed "FAILED".toList := by decide
    cases given : f.reason with
    | none =>
      have whole := begins.append printable.test.framed (' ' :: (f.file.toList ++ [':', ':']))
      simpa [toList_print, given, reasonText] using whole
    | some reason =>
      have whole := begins.append (printable.reason reason given).1
        (' ' :: (f.file.toList ++ ':' :: ':' :: (f.test.toList ++ [' ', '-', ' '])))
      simpa [toList_print, given, reasonText] using whole
  · have file := newline_not_mem_of_full fun c inside => (printable.file.2 c inside).1
    have test := newline_not_mem_of_full printable.test.2
    cases given : f.reason with
    | none => simp [toList_print, given, reasonText, file, test]
    | some reason => simp [toList_print, given, reasonText, file, test, (printable.reason reason given).2]

theorem Printable.toDefect_diagnostic (printable : f.Printable) (now : Timestamp) :
    Diagnostic.toDefect .testFailure now f.diagnostic = f.defect now := by
  rw [Diagnostic.toDefect, Diagnostic.finalMessage_framed printable.framed_message]
  rfl

theorem Printable.id_defect (printable : f.Printable) (now : Timestamp) :
    (f.defect now).id = defectId .testFailure (some f.file) none f.test := by
  obtain ⟨c, more, begins⟩ := List.exists_cons_of_ne_nil printable.test.1
  have full : allBlank f.test.toList = false := by
    simp [allBlank, begins, printable.test.2 c (by simp [begins])]
  simp [defect, Defect.new, Defect.withRule, Defect.identified, Defect.anchor, Option.filter_some, full]

end FailedTest

/-- Problems with codes, and failed tests with or without a reason, are read back line by line, in order and each as it was
printed. A failed test is identified by its file and its name. -/
theorem coded_lines_read_back (now : Timestamp) :
    (∀ problems : List CodedProblem, (∀ p ∈ problems, p.Printable) →
      Diagnostic.normalize .standard .staticAnalysis (report (problems.map CodedProblem.print)) now =
        problems.map (·.defect now)) ∧
    ∀ tests : List FailedTest, (∀ f ∈ tests, f.Printable) →
      Diagnostic.normalize .standard .testFailure (report (tests.map FailedTest.print)) now = tests.map (·.defect now) ∧
        ∀ f ∈ tests, (f.defect now).id = defectId .testFailure (some f.file) none f.test := by
  refine ⟨fun problems printable => ?_, fun tests printable => ⟨?_, fun f member => (printable f member).id_defect now⟩⟩
  · rw [Diagnostic.normalize_readBack (fun p member => (printable p member).readBack) now]
    exact List.map_congr_left fun p member => CodedProblem.toDefect_diagnostic now (printable p member).message.1
  · rw [Diagnostic.normalize_readBack (fun f member => (printable f member).readBack) now]
    exact List.map_congr_left fun f member => (printable f member).toDefect_diagnostic now

/-- Two problems, one of them an error, and two failed tests, one of them without a reason. -/
theorem coded_lines_read_back_mixed :
    let p : CodedProblem := ⟨"a.py", ⟨3, 0⟩, ⟨7, 2⟩, "F", "401", "unused [x] here"⟩
    let q : CodedProblem := ⟨"b/c(1).py", ⟨12, 0⟩, ⟨80, 0⟩, "E", "501", "error: too long"⟩
    let f : FailedTest := ⟨"t.py", "test_a[x]", some "assert [1] == []"⟩
    let g : FailedTest := ⟨"t.py", "B::b", none⟩
    (p.Printable ∧ q.Printable ∧ f.Printable ∧ g.Printable) ∧
      Diagnostic.normalize .standard .staticAnalysis
        "a.py:3:07: F401 unused [x] here\nb/c(1).py:12:80: E501 error: too long\n" .epoch = [p.defect .epoch, q.defect .epoch] ∧
      Diagnostic.normalize .standard .testFailure "FAILED t.py::test_a[x] - assert [1] == []\nFAILED t.py::B::b\n" .epoch =
        [f.defect .epoch, g.defect .epoch] := by
  intro p q f g
  have first : p.Printable := ⟨by decide, by decide, by decide, ⟨by decide, List.all_eq_true.mp (by decide)⟩,
    ⟨by decide, List.all_eq_true.mp (by decide)⟩, by decide, by decide⟩
  have second : q.Printable := ⟨by decide, by decide, by decide, ⟨by decide, List.all_eq_true.mp (by decide)⟩,
    ⟨by decide, List.all_eq_true.mp (by decide)⟩, by decide, by decide⟩
  have third : f.Printable := ⟨by decide, by decide, by decide⟩
  have fourth : g.Printable := ⟨by decide, by decide, by decide⟩
  have lines : report ([p, q].map CodedProblem.print) =
      "a.py:3:07: F401 unused [x] here\nb/c(1).py:12:80: E501 error: too long\n" := by decide +kernel
  have lines' : report ([f, g].map FailedTest.print) =
      "FAILED t.py::test_a[x] - assert [1] == []\nFAILED t.py::B::b\n" := by decide +kernel
  have problems := (coded_lines_read_back .epoch).1 [p, q] (by simp [first, second])
  have tests := ((coded_lines_read_back .epoch).2 [f, g] (by simp [third, fourth])).1
  rw [lines] at problems
  rw [lines'] at tests
  exact ⟨⟨first, second, third, fourth⟩, problems, tests⟩

end GatedRepair
