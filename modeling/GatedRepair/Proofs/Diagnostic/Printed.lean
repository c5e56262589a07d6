import GatedRepair.Diagnostic
import GatedRepair.Proofs.Number.Nearest
import GatedRepair.Proofs.Pattern.Preferred
import GatedRepair.Proofs.Text.Lines

/-!
# Lines as linters and test runners print them

A problem that a linter prints in one line, and a test that a test runner prints as failed, are read back as what was printed
(`Problem.recognise_print`, `FailedCase.recognise_print`).
-/

namespace GatedRepair

open Text Number

/-! ## What groups hold -/

theorem Number.range_toDigits {n : Nat} {c : Char} (member : c ∈ Nat.toDigits 10 n) : 48 ≤ c.toNat ∧ c.toNat ≤ 57 :=
  Char.isDigit_iff_toNat.mp (Nat.isDigit_of_mem_toDigits (by decide) (by decide) member)

theorem Number.range_padded {width n : Nat} {c : Char} (member : c ∈ padded 10 width n) : 48 ≤ c.toNat ∧ c.toNat ≤ 57 := by
  rcases List.mem_append.mp member with zero | digit
  · rw [List.eq_of_mem_replicate zero]
    decide
  · exact range_toDigits digit

theorem Number.padded_zero (n : Nat) : padded 10 0 n = Nat.toDigits 10 n := by simp [padded]

theorem Text.framed_padded (width n : Nat) : Framed (padded 10 width n) := by
  refine framed_of_full (padded_ne_nil 10 width n) fun c member => ?_
  have range := range_padded member
  simp only [isBlank, Bool.or_eq_false_iff, Bool.and_eq_false_iff, beq_eq_false_iff_ne, decide_eq_false_iff_not]
  omega

theorem Text.framed_toDigits (n : Nat) : Framed (Nat.toDigits 10 n) := padded_zero n ▸ framed_padded 0 n

/-- A text of decimal digits from which a number of 64 bits is read. -/
structure IsNumeral (text : List Char) (n : Nat) : Prop where
  digits : ∀ c ∈ text, isDigit c = true
  framed : Framed text
  read : ofDigits? bound64 text = some n

theorem isNumeral_padded {n : Nat} (small : n < bound64) (width : Nat) : IsNumeral (padded 10 width n) n := by
  refine ⟨fun c member => ?_, framed_padded width n, ofDigits?_padded small⟩
  have range := range_padded member
  simp only [isDigit]
  rw [if_pos (by omega)]
  simpa using range

theorem isNumeral_toDigits {n : Nat} (small : n < bound64) : IsNumeral (Nat.toDigits 10 n) n :=
  padded_zero n ▸ isNumeral_padded small 0

namespace Row

variable {found : Pattern.Found} {name : String} {text : List Char}

theorem textOf_of_group (held : found.group? name = some text) (framed : Framed text) :
    textOf found name = some (String.ofList text) := by
  simp [textOf, held, framed.trim_eq, framed.ne_nil]

theorem numberOf_of_group {n : Nat} (held : found.group? name = some text) (isNumeral : IsNumeral text n) :
    numberOf found name = some n := by
  rw [numberOf, textOf_of_group held isNumeral.framed, Option.bind_some, String.toList_ofList, isNumeral.read]

end Row

/-! ## What is printed -/

/-- A file name without blanks and colons. -/
def IsFileName (s : String) : Prop := s.toList ≠ [] ∧ ∀ c ∈ s.toList, isBlank c = false ∧ c ≠ ':'

/-- A word without blanks. -/
def IsWord (s : String) : Prop := s.toList ≠ [] ∧ ∀ c ∈ s.toList, isBlank c = false

/-- A message in one line, without blanks at its ends and without brackets. -/
def IsMessage (s : String) : Prop := Framed s.toList ∧ ∀ c ∈ s.toList, c ≠ '\n' ∧ c ≠ '[' ∧ c ≠ ']'

instance (s : String) : Decidable (IsFileName s) := @instDecidableAnd _ _ _ (List.decidableBAll _ _)

instance (s : String) : Decidable (IsWord s) := @instDecidableAnd _ _ _ (List.decidableBAll _ _)

instance (s : String) : Decidable (IsMessage s) := @instDecidableAnd _ _ _ (List.decidableBAll _ _)

theorem IsFileName.framed {s : String} (isFile : IsFileName s) : Framed s.toList :=
  framed_of_full isFile.1 fun c inside => (isFile.2 c inside).1

theorem IsWord.framed {s : String} (isWord : IsWord s) : Framed s.toList := framed_of_full isWord.1 isWord.2

/-- A problem of a linter. -/
structure Problem where
  file : String
  line : Nat
  column : Nat
  isError : Bool
  message : String
  rule : String

/-- A test that failed. -/
structure FailedCase where
  file : String
  test : String
  message : String

/-- A test that failed, and why, if that is told. -/
structure FailedTest where
  file : String
  test : String
  reason : Option String

namespace Problem

def level (p : Problem) : String := if p.isError then "Error" else "Warning"

/-- The line with which a linter tells of the problem. -/
def print (p : Problem) : String :=
  p.file ++ ":" ++ p.line.repr ++ ":" ++ p.column.repr ++ ": " ++ p.message ++ " [" ++ p.level ++ "/" ++ p.rule ++ "]"

/-- Names and messages as a linter prints them, and numbers of 64 bits. -/
structure Printable (p : Problem) : Prop where
  file : IsFileName p.file
  line : p.line < bound64
  column : p.column < bound64
  message : IsMessage p.message
  rule : IsWord p.rule ∧ ∀ c ∈ p.rule.toList, c ≠ '[' ∧ c ≠ ']'

/-- The problem as a diagnostic. -/
def diagnostic (p : Problem) : Diagnostic where
  file := some p.file
  line := some p.line
  column := some p.column
  severity := if p.isError then .high else .medium
  rule := some p.rule
  message := p.message

theorem toList_print (p : Problem) : p.print.toList =
    p.file.toList ++ ':' :: (Nat.toDigits 10 p.line ++ ':' :: (Nat.toDigits 10 p.column ++ ':' :: ' ' ::
      (p.message.toList ++ ' ' :: '[' :: (p.level.toList ++ '/' :: (p.rule.toList ++ [']']))))) := by
  simp [print, Nat.repr]

end Problem

/-- What stands behind the name of a test that failed. -/
def reasonText : Option String → String
  | none => ""
  | some reason => " - " ++ reason

namespace FailedTest

/-- The line with which a test runner tells of the test. -/
def print (f : FailedTest) : String := "FAILED " ++ f.file ++ "::" ++ f.test ++ reasonText f.reason

/-- Names and reasons as a test runner prints them. -/
structure Printable (f : FailedTest) : Prop where
  file : IsFileName f.file
  test : IsWord f.test
  reason : ∀ reason ∈ f.reason, Framed reason.toList ∧ '\n' ∉ reason.toList

/-- The test as a diagnostic. -/
def diagnostic (f : FailedTest) : Diagnostic where
  file := some f.file
  line := none
  column := none
  severity := .high
  rule := some f.test
  message := f.reason.getD ("test " ++ f.test ++ " failed")

theorem toList_print (f : FailedTest) : f.print.toList =
    "FAILED".toList ++ ' ' :: (f.file.toList ++ ':' :: ':' :: (f.test.toList ++ (reasonText f.reason).toList)) := by
  simp [print]

end FailedTest

namespace FailedCase

/-- The line with which a test runner tells of the test. -/
def print (f : FailedCase) : String := "FAILED " ++ f.file ++ "::" ++ f.test ++ " - " ++ f.message

/-- Names and messages as a test runner prints them. -/
structure Printable (f : FailedCase) : Prop where
  file : IsFileName f.file
  test : IsWord f.test
  message : IsMessage f.message

/-- The test as a diagnostic. -/
def diagnostic (f : FailedCase) : Diagnostic where
  file := some f.file
  line := none
  column := none
  severity := .high
  rule := some f.test
  message := f.message

theorem toList_print (f : FailedCase) : f.print.toList =
    "FAILED".toList ++ ' ' :: (f.file.toList ++ ':' :: ':' :: (f.test.toList ++ ' ' :: '-' :: ' ' :: f.message.toList)) := by
  simp [print]

end FailedCase

/-! ## Lines that are read back -/

section
open Pattern Row

variable {file : List Char} {rest : List Char}

theorem prefers_digits {number : List Char} {n : Nat} (isNumeral : IsNumeral number n) {before : Option Char}
    {groups : Groups} (stops : ∀ c, rest.head? = some c → isDigit c = false) :
    Prefers digits (.of before (number ++ rest) groups) (.of (number.getLast?.or before) rest groups) :=
  prefers_some1 isNumeral.framed.ne_nil isNumeral.digits stops

theorem colon_stops (text : List Char) : ∀ c, (':' :: text).head? = some c → isDigit c = false := by
  rintro c ⟨⟩
  rfl

theorem prefers_fileName {before : Option Char} {groups : Groups} (any : file ≠ [])
    (plain : ∀ c ∈ file, isBlank c = false ∧ c ≠ ':') :
    Prefers fileName (.of before (file ++ ':' :: rest) groups)
      (.of (file.getLast?.or before) (':' :: rest) (("file", file ++ ':' :: rest, file.length) :: groups)) := by
  refine (prefers_some1 any (fun c member => ?_) fun c head => ?_).group "file"
  · simp [plain c member]
  · obtain rfl := Option.some.inj head
    rfl

/-- The file, the line and the column with which a line begins. -/
theorem prefers_place {line column : List Char} {l c : Nat} (any : file ≠ []) (plain : ∀ c ∈ file, isBlank c = false ∧ c ≠ ':')
    (isLine : IsNumeral line l) (isColumn : IsNumeral column c) (stops : ∀ c, rest.head? = some c → isDigit c = false) :
    Prefers place (.of none (file ++ ':' :: (line ++ ':' :: (column ++ rest))) [])
      (.of (column.getLast?.or (some ':')) rest [("col", column ++ rest, column.length),
        ("line", line ++ ':' :: (column ++ rest), line.length),
        ("file", file ++ ':' :: (line ++ ':' :: (column ++ rest)), file.length)]) :=
  prefers_atStart.cons <| (prefers_fileName any plain).cons <| (prefers_char ':').cons <|
    ((prefers_digits isLine (colon_stops _)).group "line").cons <| (prefers_char ':').cons <|
    ((prefers_digits isColumn stops).group "col").cons prefers_nil

/-- Behind blanks no character is found that is missing in a text which does not end in a blank. -/
theorem ways_blanks_char {q : Pattern} {c last : Char} {text : List Char} (ends : text.getLast? = some last)
    (full : isBlank last = false) (absent : c ∉ text) (before : Option Char) (groups : Groups) :
    (Pattern.seq blanks (.seq (char c) q)).ways (.of before (text ++ rest) groups) = [] := by
  refine List.flatMap_eq_nil_iff.mpr fun middle member => ?_
  rw [blanks, run, ways_many, if_pos rfl, List.mem_reverse] at member
  obtain ⟨taken, left, other, split, blank, rfl⟩ := mem_trail member
  have more : last ∉ taken := fun inside => by simp [blank last inside] at full
  -- The blanks end in front of the last character, so another one of the text comes next.
  obtain ⟨d, tail, rfl, inside⟩ : ∃ d tail, left = d :: tail ∧ d ∈ text := by
    rcases List.append_eq_append_iff.mp split with ⟨between, rfl, -⟩ | ⟨between, rfl, rfl⟩
    · exact absurd (List.mem_append_left between (List.mem_of_getLast? ends)) more
    · cases between with
      | nil => exact absurd (List.mem_of_getLast? (by simpa using ends)) more
      | cons d tail => exact ⟨d, tail ++ rest, rfl, by simp⟩
  have other_ : (d == c) = false := beq_eq_false_iff_ne.mpr fun same => absent (same ▸ inside)
  simp [ways, char, Place.step?, Place.of, other_]

theorem prefers_blanks {before : Option Char} {groups : Groups} (stops : ∀ c, rest.head? = some c → isBlank c = false) :
    Prefers blanks (.of before (' ' :: rest) groups) (.of (some ' ') rest groups) :=
  @prefers_run before [' '] rest groups isBlank (List.forall_mem_singleton.mpr rfl) stops

theorem prefers_blanks1 {before : Option Char} {groups : Groups} (stops : ∀ c, rest.head? = some c → isBlank c = false) :
    Prefers blanks1 (.of before (' ' :: rest) groups) (.of (some ' ') rest groups) :=
  @prefers_some1 before [' '] rest groups isBlank (by decide) (List.forall_mem_singleton.mpr rfl) stops

theorem Text.Framed.head?_append {text : List Char} (framed : Framed text) (rest : List Char) :
    ∀ c, (text ++ rest).head? = some c → isBlank c = false := by
  obtain ⟨first, begins, full⟩ := framed.first
  intro c head
  rw [List.head?_append, begins] at head
  exact Option.some.inj head ▸ full

theorem recognise_first {name : String} {p : Pattern} {meaning : Found → Option LineMeaning} {rows : List Row} {line : List Char}
    {stop : Place} {m : LineMeaning} (preferred : Prefers p (.of none line []) stop)
    (meant : meaning ⟨.of none line [], stop⟩ = some m) :
    Diagnostic.recognise (ofPattern name p meaning :: rows) line = some m := by
  have read : (ofPattern name p meaning).read line = some m := by
    simp only [ofPattern, find?_eq, first?_of_prefers preferred, Option.bind_some, meant]
  rw [Diagnostic.recognise, List.findSome?_cons, read]

theorem Problem.framed_level (p : Problem) : Framed p.level.toList := by
  unfold level
  cases p.isError <;> decide

theorem Problem.severity_level (p : Problem) :
    (if equalIgnoringAsciiCase p.level.toList "fatal error".toList then Severity.critical else .ofWord p.level) =
      if p.isError then .high else .medium := by
  unfold level
  cases p.isError with
  | true => decide
  | false => decide

theorem prefers_choice {one other : String}
    (apart : ∀ before rest groups, (Pattern.text one).ways (.of before (other.toList ++ rest) groups) = []) (isOne : Bool)
    (before : Option Char) (groups : Groups) :
    Prefers (first [Pattern.text one, Pattern.text other]) (.of before ((if isOne then one else other).toList ++ rest) groups)
      (.of ((if isOne then one else other).toList.getLast?.or before) rest groups) := by
  cases isOne with
  | true => exact (prefers_text one).either_left
  | false => exact (prefers_text other).either_right (apart before rest groups)

theorem Problem.prefers_level (p : Problem) (before : Option Char) (groups : Groups) :
    Prefers (first [Pattern.text "Error", Pattern.text "Warning"]) (.of before (p.level.toList ++ rest) groups)
      (.of (p.level.toList.getLast?.or before) rest groups) :=
  prefers_choice (fun _ _ _ => by simp [Pattern.text, ways, char, Place.step?, Place.of]) p.isError before groups

/-- A problem is read as it was printed. -/
theorem Problem.recognise_print {p : Problem} (printable : p.Printable) :
    Diagnostic.recognise (Tables.standard .staticAnalysis) p.print.toList = some (.diagnostic p.diagnostic) := by
  obtain ⟨framed, plain⟩ := printable.message
  obtain ⟨last, ends, full⟩ := framed.last
  rw [toList_print]
  have isLine := isNumeral_toDigits printable.line
  have isColumn := isNumeral_toDigits printable.column
  have located := prefers_place printable.file.1 printable.file.2 isLine isColumn (colon_stops (' ' :: (p.message.toList ++ ' ' ::
    '[' :: (p.level.toList ++ '/' :: (p.rule.toList ++ [']'])))))
  have rule : ∀ before groups, Prefers (some1 (· != ']')) (.of before (p.rule.toList ++ [']']) groups)
      (.of (p.rule.toList.getLast?.or before) [']'] groups) := fun before groups =>
    prefers_some1 printable.rule.1.1 (fun c inside => by simp [printable.rule.2 c inside]) (by rintro c ⟨⟩; rfl)
  -- The message goes up to the bracket, since none stands in it.
  have stuck : ∀ front back : List Char, p.message.toList = front ++ back → back ≠ [] →
      back.getLast? = some last ∧ '[' ∉ back := by
    intro front back split some
    rw [split, List.getLast?_append, List.getLast?_eq_some_getLast some] at ends
    exact ⟨(List.getLast?_eq_some_getLast some).trans ends, fun inside => (plain _ (split ▸ List.mem_append_right front inside)).2.1 rfl⟩
  refine recognise_first (located.cons <| (prefers_char ':').cons <| (prefers_blanks (framed.head?_append _)).cons <|
    Prefers.cons_few (fun c inside => by simp [inLine, plain c inside])
      (fun front back other more split some => ways_blanks_char (stuck front back split some).1 full
        (stuck front back split some).2 other more) <|
    (prefers_blanks (by rintro c ⟨⟩; rfl)).cons <| (prefers_char '[').cons <|
    ((p.prefers_level _ _).group "sev").cons <| (prefers_char '/').cons <|
    ((rule _ _).group "code").cons <| (prefers_char ']').cons <| prefers_atEnd.cons prefers_nil) ?_
  -- Each group holds what was printed.
  generalize read : Found.mk _ _ = found
  have file : textOf found "file" = some (String.ofList p.file.toList) :=
    textOf_of_group (by rw [← read]; simp) printable.file.framed
  have line : numberOf found "line" = some p.line :=
    numberOf_of_group (by rw [← read]; simp) isLine
  have column : numberOf found "col" = some p.column :=
    numberOf_of_group (by rw [← read]; simp) isColumn
  have level : textOf found "sev" = some (String.ofList p.level.toList) :=
    textOf_of_group (by rw [← read]; simp) p.framed_level
  have code : textOf found "code" = some (String.ofList p.rule.toList) :=
    textOf_of_group (by rw [← read]; simp) printable.rule.1.framed
  have message : textOf found "msg" = some (String.ofList p.message.toList) :=
    textOf_of_group (by rw [← read]; simp) framed
  have severity := p.severity_level
  simp only [String.ofList_toList] at file level code message
  simp only [Row.located, file, line, column, level, code, message, Option.getD_some, severity]
  rfl

theorem inLine_of_free {text : List Char} (free : '\n' ∉ text) : ∀ c ∈ text, inLine c = true := fun _ inside =>
  bne_iff_ne.mpr fun same => free (same ▸ inside)

theorem prefers_message {text : List Char} (free : '\n' ∉ text) (before : Option Char) (groups : Groups) :
    Prefers (group "msg" (run inLine)) (.of before text groups)
      (.of (text.getLast?.or before) [] (("msg", text, text.length) :: groups)) := by
  have taken := @prefers_run before text [] groups inLine (inLine_of_free free) (by rintro c ⟨⟩)
  simpa using taken.group "msg"

theorem prefers_restOfLine {text : List Char} (framed : Framed text) (free : '\n' ∉ text) (before : Option Char) (groups : Groups) :
    Prefers restOfLine (.of before text groups) (.of (text.getLast?.or before) [] (("msg", text, text.length) :: groups)) := by
  have taken := @prefers_some1 before text [] groups inLine framed.ne_nil (inLine_of_free free) (by rintro c ⟨⟩)
  simpa [restOfLine] using taken.group "msg"

/-- The reason why a test failed is remembered, if there is one. -/
theorem prefers_reason {reason : Option String} (printable : ∀ text ∈ reason, Framed text.toList ∧ '\n' ∉ text.toList)
    (before : Option Char) (groups : Groups) :
    ∃ after, Prefers (maybe (all [blanks1, char '-', blanks1, group "msg" (run inLine)]))
      (.of before (reasonText reason).toList groups)
      (.of after [] ((reason.map fun text => ("msg", text.toList, text.toList.length)).toList ++ groups)) := by
  cases reason with
  | none =>
    have none : (all [blanks1, char '-', blanks1, group "msg" (run inLine)]).ways (.of before [] groups) = [] := rfl
    have nothing : Prefers .nothing (.of before [] groups) (.of before [] groups) := rfl
    exact ⟨before, nothing.either_right none⟩
  | some text =>
    obtain ⟨framed, free⟩ := printable text rfl
    have begins : ∀ c, text.toList.head? = some c → isBlank c = false := by simpa using framed.head?_append []
    have split : (reasonText (some text)).toList = ' ' :: '-' :: ' ' :: text.toList := by simp [reasonText]
    rw [split]
    exact ⟨_, Prefers.either_left <| (prefers_blanks1 (by rintro c ⟨⟩; rfl)).cons <| (prefers_char '-').cons <|
      (prefers_blanks1 begins).cons <| (prefers_message free _ _).cons prefers_nil⟩

/-- A failed test is read as it was printed. -/
theorem FailedTest.recognise_print {f : FailedTest} (printable : f.Printable) :
    Diagnostic.recognise (Tables.standard .testFailure) f.print.toList = some (.diagnostic f.diagnostic) := by
  rw [toList_print]
  have stops : ∀ c, (reasonText f.reason).toList.head? = some c → notBlank c = false := by
    cases f.reason with
    | none => rintro c ⟨⟩
    | some reason =>
      simp only [reasonText, String.toList_append]
      rintro c ⟨⟩
      rfl
  have test : ∀ before groups, Prefers (some1 notBlank) (.of before (f.test.toList ++ (reasonText f.reason).toList) groups)
      (.of (f.test.toList.getLast?.or before) (reasonText f.reason).toList groups) := fun before groups =>
    prefers_some1 printable.test.1 (fun c inside => by simp [notBlank, printable.test.2 c inside]) stops
  have colons : ∀ before rest groups, Prefers (Pattern.text "::") (.of before (':' :: ':' :: rest) groups)
      (.of (some ':') rest groups) := fun before rest groups => prefers_text "::"
  obtain ⟨after, reason⟩ := prefers_reason printable.reason (f.test.toList.getLast?.or (some ':'))
    [("test", f.test.toList ++ (reasonText f.reason).toList, f.test.toList.length),
      ("file", f.file.toList ++ ':' :: ':' :: (f.test.toList ++ (reasonText f.reason).toList), f.file.toList.length)]
  refine recognise_first (prefers_atStart.cons <| (prefers_text "FAILED").cons <|
    (prefers_blanks1 (printable.file.framed.head?_append _)).cons <|
    (prefers_fileName printable.file.1 printable.file.2).cons <| (colons _ _ _).cons <| ((test _ _).group "test").cons <|
    reason.cons <| prefers_atEnd.cons prefers_nil) ?_
  generalize read : Found.mk _ _ = found
  have file : textOf found "file" = some (String.ofList f.file.toList) :=
    textOf_of_group (by rw [← read]; cases f.reason <;> simp) printable.file.framed
  have name : textOf found "test" = some (String.ofList f.test.toList) :=
    textOf_of_group (by rw [← read]; cases f.reason <;> simp) printable.test.framed
  have message : textOf found "msg" = f.reason := by
    cases given : f.reason with
    | none => simp [textOf, ← read, given, Found.group?, Place.of, List.lookup_cons]
    | some text =>
      have held := @textOf_of_group found "msg" text.toList (by rw [← read]; simp [given]) (printable.reason text given).1
      rwa [String.ofList_toList] at held
  simp only [String.ofList_toList] at file name
  simp only [Row.failedTest, file, name, message, Option.map_some]
  rfl

/-- A failed test is read as it was printed. -/
theorem FailedCase.recognise_print {f : FailedCase} (printable : f.Printable) :
    Diagnostic.recognise (Tables.standard .testFailure) f.print.toList = some (.diagnostic f.diagnostic) := by
  have same : f.print = (FailedTest.mk f.file f.test (some f.message)).print := by
    simp [print, FailedTest.print, reasonText, String.ext_iff]
  rw [same]
  refine FailedTest.recognise_print ⟨printable.file, printable.test, ?_⟩
  rintro reason ⟨⟩
  exact ⟨printable.message.1, fun inside => (printable.message.2 _ inside).1 rfl⟩

end

end GatedRepair
