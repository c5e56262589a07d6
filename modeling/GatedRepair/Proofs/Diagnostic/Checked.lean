import GatedRepair.Proofs.Diagnostic.Coded

/-!
# Problems of a type checker

A type checker puts the line and the column in brackets behind the path. Its row looks for the first bracket of the line, so a
path with a bracket in it is not read: no row makes a diagnostic of such a line (`TypeProblem.recognise_bracketed`). It goes on with
the message before it, or ends that. All other problems are read as they were printed.
-/

namespace GatedRepair

open Text Number

/-- A problem of a type checker. -/
structure TypeProblem where
  file : String
  line : Numeral
  column : Numeral
  isError : Bool
  number : String
  message : String

namespace TypeProblem

def level (p : TypeProblem) : String := if p.isError then "error" else "warning"

def code (p : TypeProblem) : String := "TS" ++ p.number

/-- The line with which a type checker tells of the problem. -/
def print (p : TypeProblem) : String :=
  p.file ++ "(" ++ p.line.text ++ "," ++ p.column.text ++ "): " ++ p.level ++ " " ++ p.code ++ ": " ++ p.message

structure Printable (p : TypeProblem) : Prop where
  file : Framed p.file.toList ∧ ':' ∉ p.file.toList ∧ '\n' ∉ p.file.toList
  line : p.line.value < bound64
  column : p.column.value < bound64
  number : p.number.toList ≠ [] ∧ ∀ c ∈ p.number.toList, isDigit c = true
  message : Framed p.message.toList ∧ '\n' ∉ p.message.toList

def bracketed (p : TypeProblem) : Bool := '(' ∈ p.file.toList

def diagnostic (p : TypeProblem) : Diagnostic where
  file := some p.file
  line := some p.line.value
  column := some p.column.value
  severity := if p.isError then .high else .medium
  rule := some p.code
  message := p.message

/-- The defect that the problem is. -/
def defect (now : Timestamp) (p : TypeProblem) : Defect :=
  ((Defect.new .typeCheck (if p.isError then .high else .medium) (some p.file) (some p.line.value) p.message now).withColumn
    (some p.column.value)).withRule (some p.code)

/-- What stands behind the brackets. -/
def body (p : TypeProblem) : List Char :=
  ' ' :: (p.level.toList ++ ' ' :: (p.code.toList ++ ':' :: ' ' :: p.message.toList))

theorem toList_print (p : TypeProblem) : p.print.toList =
    p.file.toList ++ '(' :: (p.line.text.toList ++ ',' :: (p.column.text.toList ++ ')' :: ':' :: p.body)) := by
  simp [print, body]

variable {p : TypeProblem}

/-! ## Paths without a bracket -/

section
open Pattern Row

theorem framed_level (p : TypeProblem) : Framed p.level.toList := by
  unfold level
  cases p.isError <;> decide

theorem severity_level (p : TypeProblem) :
    (if equalIgnoringAsciiCase p.level.toList "fatal error".toList then Severity.critical else .ofWord p.level) =
      if p.isError then .high else .medium := by
  unfold level
  cases p.isError with
  | true => decide
  | false => decide

theorem prefers_level (p : TypeProblem) {rest : List Char} (before : Option Char) (groups : Groups) :
    Prefers errorOrWarning (.of before (p.level.toList ++ rest) groups) (.of (p.level.toList.getLast?.or before) rest groups) :=
  prefers_choice (fun _ _ _ => by simp [Pattern.text, ways, char, Place.step?, Place.of]) p.isError before groups

theorem Printable.framed_code (printable : p.Printable) : Framed p.code.toList := by
  have begins : Framed ['T'] := by decide
  have ends : Framed p.number.toList := by
    refine framed_of_full printable.number.1 fun c inside => Bool.eq_false_iff.mpr fun blank => ?_
    exact absurd (printable.number.2 c inside) (by simp [isDigit_of_blank blank])
  have whole := begins.append ends ['S']
  simpa [code] using whole

/-- The path is what stands in front of the first bracket. -/
theorem Printable.prefers_path (printable : p.Printable) (plain : p.bracketed = false) (rest : List Char) :
    Prefers (.seq (one fun c => !isBlank c && c != '(') (run (· != '('))) (.of none (p.file.toList ++ '(' :: rest) [])
      (.of (p.file.toList.getLast?.or none) ('(' :: rest) []) := by
  have free : '(' ∉ p.file.toList := of_decide_eq_false plain
  obtain ⟨c, first, full⟩ := printable.file.1.first
  obtain ⟨more, split⟩ := List.head?_eq_some_iff.mp first
  rw [split] at free ⊢
  simp only [List.mem_cons, not_or] at free
  exact prefers_one_run (by simp [full, Ne.symm free.1]) (fun d inside => bne_iff_ne.mpr fun same => free.2 (same ▸ inside))
    (by rintro d ⟨⟩; rfl)

theorem Printable.prefers_code (printable : p.Printable) (before : Option Char) (rest : List Char) (groups : Groups) :
    Prefers (.seq (Pattern.text "TS") digits) (.of before (p.code.toList ++ ':' :: rest) groups)
      (.of (p.number.toList.getLast?.or (some 'S')) (':' :: rest) groups) := by
  rw [TypeProblem.code, String.toList_append, List.append_assoc]
  exact (prefers_text "TS").seq (prefers_some1 printable.number.1 printable.number.2 (colon_stops rest))

theorem recognise_print (printable : p.Printable) (plain : p.bracketed = false) :
    Diagnostic.recognise (Tables.standard .typeCheck) p.print.toList = some (.diagnostic p.diagnostic) := by
  have isLine := Numeral.isNumeral printable.line
  have isColumn := Numeral.isNumeral printable.column
  have digits_stop : ∀ (c : Char) (text : List Char), isDigit c = false →
      ∀ d, (c :: text).head? = some d → isDigit d = false := by
    rintro c text other d ⟨⟩
    exact other
  have brackets : ∀ before rest groups, Prefers (Pattern.text "):") (.of before (')' :: ':' :: rest) groups)
      (.of (some ':') rest groups) := fun before rest groups => prefers_text "):"
  rw [toList_print, body]
  refine recognise_first (prefers_atStart.cons <| ((printable.prefers_path plain _).group "file").cons <| (prefers_char '(').cons <|
    ((prefers_digits isLine (digits_stop ',' _ rfl)).group "line").cons <| (prefers_char ',').cons <|
    ((prefers_digits isColumn (digits_stop ')' _ rfl)).group "col").cons <| (brackets _ _ _).cons <|
    (prefers_blanks (p.framed_level.head?_append _)).cons <| ((p.prefers_level _ _).group "sev").cons <|
    (prefers_blanks1 (printable.framed_code.head?_append _)).cons <| ((printable.prefers_code _ _ _).group "code").cons <|
    (prefers_char ':').cons <| (prefers_blanks ?_).cons <| (prefers_message printable.message.2 _ _).cons <|
    prefers_atEnd.cons prefers_nil) ?_
  · simpa using printable.message.1.head?_append []
  generalize read : Found.mk _ _ = found
  have file : textOf found "file" = some (String.ofList p.file.toList) :=
    textOf_of_group (by rw [← read]; simp) printable.file.1
  have line : numberOf found "line" = some p.line.value := numberOf_of_group (by rw [← read]; simp) isLine
  have column : numberOf found "col" = some p.column.value := numberOf_of_group (by rw [← read]; simp) isColumn
  have level : textOf found "sev" = some (String.ofList p.level.toList) :=
    textOf_of_group (by rw [← read]; simp) p.framed_level
  have code : textOf found "code" = some (String.ofList p.code.toList) :=
    textOf_of_group (by rw [← read]; simp) printable.framed_code
  have message : textOf found "msg" = some (String.ofList p.message.toList) :=
    textOf_of_group (by rw [← read]; simp) printable.message.1
  have severity := p.severity_level
  simp only [String.ofList_toList] at file level code message
  simp only [Row.located, file, line, column, level, code, message, Option.getD_some, severity]
  rfl

/-! ## Paths with a bracket -/

theorem digit_of_takes {parts : List Pattern} {before : Option Char} {taken rest : List Char}
    (takes : (all (atStart :: fileName :: colon :: group "line" digits :: parts)).Takes before taken rest) :
    ∃ file d more, taken = file ++ ':' :: d :: more ∧ (∀ c ∈ file, (c != ':') = true) ∧ isDigit d = true := by
  obtain ⟨file, line, more, _, rfl, plain, ⟨filled, each⟩, -⟩ := exists_of_takes_line takes
  obtain ⟨d, line, rfl⟩ := List.exists_cons_of_ne_nil filled
  exact ⟨file, d, line ++ more, rfl, plain, each d (by simp)⟩

theorem ne_of_isDigit {text : List Char} (digits : ∀ c ∈ text, isDigit c = true) {d : Char} (other : isDigit d = false) :
    d ∉ text := fun inside => absurd (digits d inside) (by simp [other])

theorem Printable.colon_not_mem (printable : p.Printable) :
    ':' ∉ p.file.toList ++ '(' :: (p.line.text.toList ++ ',' :: (p.column.text.toList ++ [')'])) := by
  have line := ne_of_isDigit (Numeral.isNumeral printable.line).digits (by decide : isDigit ':' = false)
  have column := ne_of_isDigit (Numeral.isNumeral printable.column).digits (by decide : isDigit ':' = false)
  simp [line, column, printable.file.2.1]

theorem of_not_mem {text : List Char} {d : Char} (free : d ∉ text) : ∀ c ∈ text, (c != d) = true := fun _ inside =>
  bne_iff_ne.mpr fun same => free (same ▸ inside)

theorem head_stops (d : Char) (text : List Char) : ∀ c, (d :: text).head? = some c → (c != d) = false := by
  rintro c ⟨⟩
  simp

/-- Behind the first colon of the line stands a blank. -/
theorem Printable.not_digit (printable : p.Printable) {file back : List Char} {d : Char}
    (split : p.print.toList = file ++ ':' :: d :: back) (plain : ∀ c ∈ file, (c != ':') = true) : isDigit d = false := by
  have same : (p.file.toList ++ '(' :: (p.line.text.toList ++ ',' :: (p.column.text.toList ++ [')']))) ++ ':' :: p.body =
      file ++ ':' :: d :: back := by
    rw [← split, toList_print]
    simp
  obtain ⟨-, behind⟩ := cut_unique same (of_not_mem printable.colon_not_mem) plain (head_stops ':' _) (head_stops ':' _)
  obtain ⟨-, behind⟩ := List.cons.inj behind
  obtain ⟨rfl, -⟩ := List.cons.inj behind
  decide

/-- The row of the type checker looks for a bracket in front of the line and the column. -/
theorem Printable.first?_tsc (printable : p.Printable) (bracketed : p.bracketed = true) {parts : List Pattern} :
    (all (atStart :: group "file" (.seq (one fun c => !isBlank c && c != '(') (run (· != '('))) :: char '(' ::
      group "line" digits :: char ',' :: group "col" digits :: Pattern.text "):" :: parts)).first? p.print.toList = none := by
  refine Starts.first?_eq_none starts_atStart.cons fun taken back split takes => ?_
  obtain ⟨_, _, rfl, start, takes⟩ := takes_cons.mp takes
  obtain ⟨rfl, -⟩ := takes_atStart.mp start
  obtain ⟨file, _, rfl, isFile, takes⟩ := takes_cons.mp takes
  obtain ⟨_, _, rfl, isChar, takes⟩ := takes_cons.mp takes
  obtain rfl := takes_char.mp isChar
  obtain ⟨line, _, rfl, isLine, takes⟩ := takes_cons.mp takes
  obtain ⟨_, _, rfl, isChar, takes⟩ := takes_cons.mp takes
  obtain rfl := takes_char.mp isChar
  obtain ⟨column, _, rfl, isColumn, takes⟩ := takes_cons.mp takes
  obtain ⟨_, rest, rfl, isText, -⟩ := takes_cons.mp takes
  obtain rfl := takes_text.mp isText
  -- The first bracket stands in the path.
  obtain ⟨front, others, path, free⟩ := List.eq_append_cons_of_mem (of_decide_eq_true bracketed)
  have same : front ++ '(' :: ((others ++ '(' :: (p.line.text.toList ++ ',' :: (p.column.text.toList ++ [')']))) ++ ':' :: p.body) =
      file ++ '(' :: ((line ++ ',' :: (column ++ [')'])) ++ ':' :: (rest ++ back)) := by
    have whole := split
    rw [toList_print, path] at whole
    simpa using whole
  have plain : ∀ c ∈ file, (c != '(') = true := by
    obtain ⟨begins, more, rfl, ⟨d, isFirst, rfl⟩, others⟩ := takes_group.mp isFile
    exact List.forall_mem_cons.mpr ⟨(Bool.and_eq_true_iff.mp isFirst).2, others⟩
  obtain ⟨-, behind⟩ := cut_unique same (of_not_mem free) plain (head_stops '(' _) (head_stops '(' _)
  -- So the first colon stands behind two numbers, with no bracket in front of them.
  have isLine := (takes_some1.mp (takes_group.mp isLine)).2
  have isColumn := (takes_some1.mp (takes_group.mp isColumn)).2
  have colon : ':' ∉ line ++ ',' :: (column ++ [')']) := by
    simp [ne_of_isDigit isLine (by decide : isDigit ':' = false), ne_of_isDigit isColumn (by decide : isDigit ':' = false)]
  have bracket : '(' ∉ line ++ ',' :: (column ++ [')']) := by
    simp [ne_of_isDigit isLine (by decide : isDigit '(' = false), ne_of_isDigit isColumn (by decide : isDigit '(' = false)]
  have colon' : ':' ∉ others ++ '(' :: (p.line.text.toList ++ ',' :: (p.column.text.toList ++ [')'])) := by
    refine fun inside => printable.colon_not_mem ?_
    rw [path, List.append_assoc]
    exact List.mem_append_right front (List.mem_cons_of_mem '(' inside)
  obtain ⟨numbers, -⟩ := cut_unique (List.cons.inj behind).2 (of_not_mem colon') (of_not_mem colon) (head_stops ':' _)
    (head_stops ':' _)
  exact bracket (numbers ▸ by simp)

/-- No row makes a diagnostic of a problem with a bracket in its path. -/
theorem recognise_bracketed (printable : p.Printable) (bracketed : p.bracketed = true) :
    Diagnostic.recognise (Tables.standard .typeCheck) p.print.toList = none ∨
      Diagnostic.recognise (Tables.standard .typeCheck) p.print.toList = some .ending := by
  have unplaced : ∀ parts, (all (place :: parts)).first? p.print.toList = none := by
    intro parts
    refine Starts.first?_eq_none starts_atStart.cons.cons fun taken back split takes => ?_
    obtain ⟨placed, others, rfl, isPlace, -⟩ := takes_cons.mp takes
    obtain ⟨file, d, more, rfl, plain, digit⟩ := digit_of_takes isPlace
    exact absurd digit (by simp [@Printable.not_digit p printable file (more ++ (others ++ back)) d (by simpa using split) plain])
  have unnumbered : ∀ parts, (all (atStart :: fileName :: colon :: group "line" digits :: parts)).first? p.print.toList = none := by
    intro parts
    refine Starts.first?_eq_none starts_atStart.cons fun taken back split takes => ?_
    obtain ⟨file, d, more, rfl, plain, digit⟩ := digit_of_takes takes
    exact absurd digit (by simp [@Printable.not_digit p printable file (more ++ back) d (by simpa using split) plain])
  have only : Diagnostic.recognise (Tables.standard .typeCheck) p.print.toList =
      Diagnostic.recognise [ending "summary" (.seq atStart (first (foundErrors :: Pattern.text "Success: no issues found" :: chatter)))]
        p.print.toList := by
    refine (Diagnostic.recognise_later (read_eq_none ?_)).trans ?_
    · exact printable.first?_tsc bracketed
    refine (Diagnostic.recognise_later (read_eq_none ?_)).trans ?_
    · exact unplaced _
    refine (Diagnostic.recognise_later (read_eq_none ?_)).trans ?_
    · exact unnumbered _
    exact Diagnostic.recognise_later (read_eq_none (unplaced _))
  rw [only, Diagnostic.recognise, List.findSome?_singleton]
  simp only [ending, ofPattern]
  cases Pattern.find? _ p.print.toList with
  | none => exact .inl rfl
  | some found => exact .inr rfl

end

/-! ## What is read -/

open Diagnostic in
/-- The line goes on with the message before it. -/
def joins (p : TypeProblem) : Bool := p.bracketed && recognise (Tables.standard .typeCheck) p.print.toList == none

/-- What the lines of problems add to the message before them. -/
def added : List TypeProblem → String
  | [] => ""
  | p :: more => if p.joins then " " ++ p.print ++ added more else ""

/-- What is read of problems: all but those with a bracket in the path, whose lines go on with the message before them. -/
def told : List TypeProblem → List TypeProblem
  | [] => []
  | p :: more => if p.bracketed then told more else { p with message := p.message ++ added more } :: told more

theorem length_told (ps : List TypeProblem) : (told ps).length = (ps.filter fun p => !p.bracketed).length := by
  induction ps with
  | nil => rfl
  | cons p more ih =>
    unfold told
    cases bracketed : p.bracketed <;> simp [bracketed, ih]

theorem told_plain {ps : List TypeProblem} (plain : ∀ p ∈ ps, p.bracketed = false) : told ps = ps := by
  induction ps with
  | nil => rfl
  | cons p more ih =>
    obtain ⟨here, others⟩ := List.forall_mem_cons.mp plain
    have nothing : added more = "" := by
      cases more with
      | nil => rfl
      | cons q more => simp [added, joins, others q (by simp)]
    unfold told
    simp [here, nothing, ih others]

theorem Printable.framed_print (printable : p.Printable) : Framed p.print.toList := by
  have whole := printable.file.1.append printable.message.1 ('(' :: (p.line.text.toList ++ ',' :: (p.column.text.toList ++ ')' ::
    ':' :: ' ' :: (p.level.toList ++ ' ' :: (p.code.toList ++ [':', ' '])))))
  simpa [toList_print, body] using whole

theorem Printable.newline_not_mem (printable : p.Printable) : '\n' ∉ p.print.toList := by
  have line := ne_of_isDigit (Numeral.isNumeral printable.line).digits (by decide : isDigit '\n' = false)
  have column := ne_of_isDigit (Numeral.isNumeral printable.column).digits (by decide : isDigit '\n' = false)
  have number := ne_of_isDigit printable.number.2 (by decide : isDigit '\n' = false)
  have level : '\n' ∉ p.level.toList := by
    unfold level
    split <;> decide
  simp [toList_print, body, code, line, column, number, level, printable.file.2.2, printable.message.2]

theorem framed_added {ps : List TypeProblem} (printable : ∀ p ∈ ps, p.Printable) {message : String}
    (framed : Framed message.toList) : Framed (message ++ added ps).toList := by
  induction ps generalizing message with
  | nil => simpa [added] using framed
  | cons p more ih =>
    obtain ⟨here, others⟩ := List.forall_mem_cons.mp printable
    unfold added
    split
    · have joined := ih others (Diagnostic.framed_joined framed here.framed_print)
      simpa [String.append_assoc] using joined
    · simpa using framed

end TypeProblem

namespace Diagnostic

/-- The reading with a text added to the message that still grows. -/
def Reading.adding (r : Reading) (text : String) : Reading :=
  { r with pending := r.pending.map fun d => { d with message := d.message ++ text } }

theorem Reading.adding_empty (r : Reading) : r.adding "" = r := by
  obtain ⟨complete, pending, heading⟩ := r
  cases pending <;> simp [adding]

theorem Reading.adding_adding (r : Reading) (first second : String) : (r.adding first).adding second = r.adding (first ++ second) := by
  obtain ⟨complete, pending, heading⟩ := r
  cases pending <;> simp [adding, String.append_assoc]

theorem Reading.flushed_adding_flushed (r : Reading) (text : String) : (r.flushed.adding text).flushed = r.flushed := by
  obtain ⟨complete, pending, heading⟩ := r
  cases pending <;> rfl

/-- What the lines of problems make of a reading. -/
theorem complete_told {ps : List TypeProblem} (printable : ∀ p ∈ ps, p.Printable) (r : Reading)
    (framed : ∀ d ∈ r.pending, Framed d.message.toList) :
    ((ps.map (·.print.toList)).foldl (Reading.step .typeCheck (Tables.standard .typeCheck)) r).flushed.complete =
      ((TypeProblem.told ps).map (·.diagnostic)).reverse ++ (r.adding (TypeProblem.added ps)).flushed.complete := by
  induction ps generalizing r with
  | nil => simp [TypeProblem.told, TypeProblem.added, Reading.adding_empty]
  | cons p more ih =>
    obtain ⟨here, others⟩ := List.forall_mem_cons.mp printable
    rw [List.map_cons, List.foldl_cons, TypeProblem.told, TypeProblem.added]
    cases bracketed : p.bracketed with
    | false =>
      -- The message before it ends, and another diagnostic begins.
      have known := TypeProblem.recognise_print here bracketed
      have own : placed .typeCheck r.heading p.diagnostic = p.diagnostic := placed_of_file rfl _ _
      have step : r.step .typeCheck (Tables.standard .typeCheck) p.print.toList = { r.flushed with pending := some p.diagnostic } := by
        simp only [Reading.step, known, own]
      have alone : p.joins = false := by simp [TypeProblem.joins, bracketed]
      have grown : (Reading.adding { r.flushed with pending := some p.diagnostic } (TypeProblem.added more)).flushed.complete =
          { p with message := p.message ++ TypeProblem.added more }.diagnostic :: r.flushed.complete := rfl
      rw [step, ih others _ (by rintro d ⟨⟩; exact here.message.1), grown, alone]
      simp [Reading.adding_empty]
    | true =>
      rcases TypeProblem.recognise_bracketed here bracketed with unknown | ends
      · have joins : p.joins = true := by simp [TypeProblem.joins, bracketed, unknown]
        have step : r.step .typeCheck (Tables.standard .typeCheck) p.print.toList = r.adding (" " ++ p.print) := by
          simp only [Reading.step, unknown, Reading.adding]
          cases pending : r.pending with
          | none => rfl
          | some d => simp [extend_framed (framed d pending) here.framed_print, String.append_assoc]
        have framed' : ∀ d ∈ (r.adding (" " ++ p.print)).pending, Framed d.message.toList := by
          intro d inside
          obtain ⟨before, held, rfl⟩ := Option.map_eq_some_iff.mp inside
          simpa [String.append_assoc] using framed_joined (framed before held) here.framed_print
        rw [step, ih others _ framed', Reading.adding_adding, if_pos joins]
        simp
      · have alone : p.joins = false := by simp [TypeProblem.joins, bracketed, ends]
        have step : r.step .typeCheck (Tables.standard .typeCheck) p.print.toList = r.flushed := by
          simp only [Reading.step, ends]
        rw [step, ih others _ (by simp [Reading.pending_flushed]), Reading.flushed_adding_flushed, alone]
        simp [Reading.adding_empty]

end Diagnostic

namespace TypeProblem

theorem framed_told {ps : List TypeProblem} (printable : ∀ p ∈ ps, p.Printable) : ∀ p ∈ told ps, Framed p.message.toList := by
  induction ps with
  | nil => simp [told]
  | cons p more ih =>
    obtain ⟨here, others⟩ := List.forall_mem_cons.mp printable
    unfold told
    split
    · exact ih others
    · exact List.forall_mem_cons.mpr ⟨framed_added others here.message.1, ih others⟩

theorem toDefect_diagnostic (now : Timestamp) {p : TypeProblem} (framed : Framed p.message.toList) :
    Diagnostic.toDefect .typeCheck now p.diagnostic = p.defect now := by
  rw [Diagnostic.toDefect, Diagnostic.finalMessage_framed framed]
  rfl

end TypeProblem

open Diagnostic

/-- What is read of the problems of a type checker, and that each is read as it was printed just when no path has a bracket. -/
theorem type_problems_read_unless_bracketed (now : Timestamp) (ps : List TypeProblem) (printable : ∀ p ∈ ps, p.Printable) :
    normalize .standard .typeCheck (report (ps.map TypeProblem.print)) now = (TypeProblem.told ps).map (·.defect now) ∧
      (normalize .standard .typeCheck (report (ps.map TypeProblem.print)) now = ps.map (·.defect now) ↔
        ∀ p ∈ ps, '(' ∉ p.file.toList) := by
  have counted : countedLines (report (ps.map TypeProblem.print)).toList = ps.map (·.print.toList) := by
    rw [countedLines_report, List.flatMap_map, List.flatMap_def, List.map_congr_left fun p member =>
      countedLines_framed (printable p member).framed_print (printable p member).newline_not_mem, ← List.flatMap_def,
      ← List.map_eq_flatMap]
  have read : normalize .standard .typeCheck (report (ps.map TypeProblem.print)) now =
      (TypeProblem.told ps).map (·.defect now) := by
    have complete := complete_told printable .start (by rintro d ⟨⟩)
    rw [Diagnostic.normalize, counted, readLines, complete]
    simp only [Reading.start, Reading.adding, Reading.flushed, Option.map_none, List.append_nil, List.reverse_reverse, List.map_map]
    exact List.map_congr_left fun p member => TypeProblem.toDefect_diagnostic now (TypeProblem.framed_told printable p member)
  refine ⟨read, fun same p member => ?_, fun plain => ?_⟩
  · have long : (TypeProblem.told ps).length = ps.length := by simpa using congrArg List.length (read.symm.trans same)
    rw [TypeProblem.length_told, List.length_filter_eq_length_iff] at long
    simpa [TypeProblem.bracketed] using long p member
  · rw [read, TypeProblem.told_plain fun p member => by simpa [TypeProblem.bracketed] using plain p member]

/-- Of two problems the second has a bracket in its path, and its line goes on with the message of the first. -/
theorem bracketed_line_joins_message :
    let p : TypeProblem := ⟨"src/a b.ts", ⟨3, 0⟩, ⟨5, 2⟩, true, "2322", "m (x: y)"⟩
    let q : TypeProblem := ⟨"app/(auth)/page.tsx", ⟨1, 0⟩, ⟨2, 0⟩, false, "1", "n"⟩
    p.Printable ∧ q.Printable ∧
      normalize .standard .typeCheck (report [p.print, q.print]) .epoch =
        [{ p with message := "m (x: y) app/(auth)/page.tsx(1,2): warning TS1: n" }.defect .epoch] := by
  intro p q
  have first : p.Printable := ⟨by decide, by decide, by decide, ⟨by decide, List.all_eq_true.mp (by decide)⟩, by decide⟩
  have second : q.Printable := ⟨by decide, by decide, by decide, ⟨by decide, List.all_eq_true.mp (by decide)⟩, by decide⟩
  have read := (type_problems_read_unless_bracketed .epoch [p, q] (by simp [first, second])).1
  have told : (TypeProblem.told [p, q]).map (·.defect .epoch) =
      [{ p with message := "m (x: y) app/(auth)/page.tsx(1,2): warning TS1: n" }.defect .epoch] := by decide +kernel
  exact ⟨first, second, read.trans told⟩

/-- A problem that is lost because of the brackets in its path. -/
theorem bracketed_path_is_lost :
    let q : TypeProblem := ⟨"app/(auth)/page.tsx", ⟨1, 0⟩, ⟨2, 0⟩, true, "1", "m"⟩
    q.Printable ∧ report [q.print] = "app/(auth)/page.tsx(1,2): error TS1: m\n" ∧
      normalize .standard .typeCheck (report [q.print]) .epoch = [] := by
  intro q
  have printable : q.Printable := ⟨by decide, by decide, by decide, ⟨by decide, List.all_eq_true.mp (by decide)⟩, by decide⟩
  exact ⟨printable, by decide +kernel, by decide +kernel⟩

end GatedRepair
