import GatedRepair.Proofs.Diagnostic.Printed
import GatedRepair.Proofs.Diagnostic.Segments

/-!
# Summaries at the end of a report

A linter that prints one problem in a line ends its report with the number of problems, and a quiet test runner with numbers and
a time. No row of the tables knows these lines, so they go on with the message of the last problem or test
(`summary_joins_last_message`), which therefore changes with every number and time (`summary_changes_message`).
-/

namespace GatedRepair

open Text

/-! ## Reports -/

/-- A report with these lines. -/
def report (lines : List String) : String := String.join (lines.map (· ++ "\n"))

/-- The line with which a linter sums up. -/
def lintSummary (total : Nat) (plural : Bool) : String := total.repr ++ " problem" ++ if plural then "s" else ""

/-- The line with which a test runner sums up. -/
def testSummary (failed passed seconds : Nat) (hundredths : Fin 100) : String :=
  failed.repr ++ " failed, " ++ passed.repr ++ " passed in " ++ seconds.repr ++ "." ++
    String.ofList (Number.padded 10 2 hundredths) ++ "s"

/-- The report of a linter: the problems, an empty line and the summary. -/
def lintReport (problems : List Problem) (summary : String) : String := report (problems.map Problem.print ++ ["", summary])

/-- The report of a test runner: the tests that failed, and the summary. -/
def testReport (cases : List FailedCase) (summary : String) : String := report (cases.map FailedCase.print ++ [summary])

/-- The defect that a problem is. -/
def Problem.defect (now : Timestamp) (p : Problem) : Defect :=
  ((Defect.new .staticAnalysis (if p.isError then .high else .medium) (some p.file) (some p.line) p.message now).withColumn
    (some p.column)).withRule (some p.rule)

/-- The defect that a failed test is. -/
def FailedCase.defect (now : Timestamp) (f : FailedCase) : Defect :=
  (Defect.new .testFailure .high (some f.file) none f.message now).withRule (some f.test)

/-! ## Lines of a report -/

namespace Diagnostic

theorem countedLines_report (lines : List String) :
    countedLines (report lines).toList = lines.flatMap fun line => countedLines line.toList := by
  induction lines with
  | nil => rfl
  | cons line more ih =>
    have cut : (report (line :: more)).toList = line.toList ++ '\n' :: (report more).toList := by simp [report]
    rw [cut, countedLines_newline, ih, List.flatMap_cons]

theorem countedLines_framed {line : List Char} (framed : Framed line) (free : '\n' ∉ line) : countedLines line = [line] := by
  simp [countedLines_free free, framed.trimEnd_eq, framed.ne_nil]

end Diagnostic

theorem newline_not_mem_of_full {text : List Char} (full : ∀ c ∈ text, isBlank c = false) : '\n' ∉ text :=
  fun inside => absurd (full _ inside) (by decide)

theorem newline_not_mem_toDigits (n : Nat) : '\n' ∉ Nat.toDigits 10 n := fun inside =>
  absurd (Number.range_toDigits inside) (by decide)

theorem Problem.countedLines_print {p : Problem} (printable : p.Printable) :
    Diagnostic.countedLines p.print.toList = [p.print.toList] := by
  have file := newline_not_mem_of_full fun c inside => (printable.file.2 c inside).1
  have rule := newline_not_mem_of_full printable.rule.1.2
  have message : '\n' ∉ p.message.toList := fun inside => (printable.message.2 _ inside).1 rfl
  have level : '\n' ∉ p.level.toList := by
    unfold level
    split <;> decide
  refine Diagnostic.countedLines_framed ?_ ?_
  · have ends : Framed [']'] := by decide
    have whole := printable.file.framed.append ends (':' :: (Nat.toDigits 10 p.line ++ ':' :: (Nat.toDigits 10 p.column ++ ':' ::
      ' ' :: (p.message.toList ++ ' ' :: '[' :: (p.level.toList ++ '/' :: p.rule.toList)))))
    simpa [toList_print] using whole
  · simp [toList_print, file, rule, message, level, newline_not_mem_toDigits]

theorem FailedCase.countedLines_print {f : FailedCase} (printable : f.Printable) :
    Diagnostic.countedLines f.print.toList = [f.print.toList] := by
  have file := newline_not_mem_of_full fun c inside => (printable.file.2 c inside).1
  have test := newline_not_mem_of_full printable.test.2
  have message : '\n' ∉ f.message.toList := fun inside => (printable.message.2 _ inside).1 rfl
  refine Diagnostic.countedLines_framed ?_ ?_
  · have begins : Framed "FAILED".toList := by decide
    have whole := begins.append printable.message.1 (' ' :: (f.file.toList ++ ':' :: ':' :: (f.test.toList ++ [' ', '-', ' '])))
    simpa [toList_print] using whole
  · simp [toList_print, file, test, message]

/-! ## Summaries -/

/-- The characters of a linter's summary. -/
def lintLetters : List Char := "0123456789 problems".toList

/-- The characters of a test runner's summary. -/
def testLetters : List Char := "0123456789 failed, passed in .s".toList

/-- A line that ends a report: without blanks at its ends, and of certain characters, none of which is a newline. -/
structure IsSummary (letters : List Char) (s : String) : Prop where
  framed : Framed s.toList
  within : ∀ c ∈ s.toList, c ∈ letters

theorem digit_mem {c : Char} (range : 48 ≤ c.toNat ∧ c.toNat ≤ 57) : c ∈ "0123456789".toList := by
  have each : ∀ n < 58, 48 ≤ n → Char.ofNat n ∈ "0123456789".toList := by decide
  rw [← Char.ofNat_toNat c]
  exact each c.toNat (by omega) range.1

theorem toDigits_subset (n : Nat) : Nat.toDigits 10 n ⊆ "0123456789".toList := fun _ inside =>
  digit_mem (Number.range_toDigits inside)

theorem padded_subset (n : Nat) : Number.padded 10 2 n ⊆ "0123456789".toList := by
  refine List.append_subset.mpr ⟨fun c inside => ?_, toDigits_subset n⟩
  rw [List.eq_of_mem_replicate inside]
  decide

theorem isSummary_lint (total : Nat) (plural : Bool) : IsSummary lintLetters (lintSummary total plural) := by
  have digits : "0123456789".toList ⊆ lintLetters := by decide
  have word : " problem".toList ++ (if plural then "s" else "").toList ⊆ lintLetters := by cases plural <;> decide
  have same : (lintSummary total plural).toList =
      Nat.toDigits 10 total ++ (" problem".toList ++ (if plural then "s" else "").toList) := by
    simp [lintSummary, Nat.repr]
  rw [← List.append_subset.trans (and_iff_right (List.Subset.trans (toDigits_subset total) digits)), ← same] at word
  refine ⟨?_, word⟩
  rw [same]
  have lasts : Framed ['s'] ∧ Framed ['m'] := ⟨by decide, by decide⟩
  cases plural with
  | true => exact (framed_toDigits total).append lasts.1 " problem".toList
  | false => exact (framed_toDigits total).append lasts.2 " proble".toList

theorem isSummary_test (failed passed seconds : Nat) (hundredths : Fin 100) :
    IsSummary testLetters (testSummary failed passed seconds hundredths) := by
  have digits : "0123456789".toList ⊆ testLetters := by decide
  have numbers := fun n => List.Subset.trans (toDigits_subset n) digits
  have same : (testSummary failed passed seconds hundredths).toList =
      Nat.toDigits 10 failed ++ (" failed, ".toList ++ (Nat.toDigits 10 passed ++ (" passed in ".toList ++
        (Nat.toDigits 10 seconds ++ '.' :: Number.padded 10 2 hundredths))) ++ ['s']) := by
    simp [testSummary, Nat.repr]
  refine ⟨?_, ?_⟩
  · rw [same]
    exact (framed_toDigits failed).append (by decide : Framed ['s']) _
  · have parts : (testSummary failed passed seconds hundredths).toList ⊆ testLetters := by
      rw [same]
      simp only [List.append_subset, List.cons_subset]
      have fraction := List.Subset.trans (padded_subset hundredths) digits
      exact ⟨numbers _, ⟨by decide, numbers _, by decide, numbers _, by decide, fraction⟩, by decide, by simp⟩
    exact parts

theorem Row.unread {letters line : List Char} (within : ∀ c ∈ line, c ∈ letters) {name : String} {p : Pattern}
    {meaning : Pattern.Found → Option LineMeaning} (lacks : p.lacking letters = true) :
    (ofPattern name p meaning).read line = none := by
  simp only [ofPattern, Pattern.find?_eq, Pattern.first?_lacking lacks within, Option.bind_none]

theorem recognise_lintSummary {s : String} (isSummary : IsSummary lintLetters s) :
    Diagnostic.recognise (Tables.standard .staticAnalysis) s.toList = none := by
  refine List.findSome?_eq_none_iff.mpr ?_
  simp only [Tables.standard, Row.staticAnalysisRows, List.forall_mem_cons, List.not_mem_nil, false_implies, implies_true, and_true]
  refine ⟨?_, ?_, ?_, ?_, ?_, ?_, ?_, ?_⟩ <;> exact Row.unread isSummary.within (by decide +kernel)

theorem recognise_testSummary {s : String} (isSummary : IsSummary testLetters s) :
    Diagnostic.recognise (Tables.standard .testFailure) s.toList = none := by
  refine List.findSome?_eq_none_iff.mpr ?_
  simp only [Tables.standard, Row.testFailureRows, List.forall_mem_cons, List.not_mem_nil, false_implies, implies_true, and_true]
  refine ⟨?_, ?_, ?_, ?_, ?_⟩ <;> exact Row.unread isSummary.within (by decide +kernel)

/-! ## The reading -/

namespace Diagnostic

theorem placed_of_file {d : Diagnostic} (some : d.file.isSome = true) (kind : DefectKind) (heading : Option String) :
    placed kind heading d = d := by
  unfold placed
  rw [if_neg]
  simp [Option.isNone_eq_false_iff.mpr some]

section
variable {α : Type} {kind : DefectKind} {rows : List Row} {print : α → List Char} {told : α → Diagnostic}

/-- Lines that are each recognised as a diagnostic with a file give these diagnostics. -/
theorem complete_recognised {items : List α}
    (recognised : ∀ x ∈ items, recognise rows (print x) = some (.diagnostic (told x)) ∧ (told x).file.isSome = true) (r : Reading) :
    ((items.map print).foldl (Reading.step kind rows) r).flushed.complete =
      (items.map told).reverse ++ r.flushed.complete := by
  induction items generalizing r with
  | nil => rfl
  | cons x more ih =>
    obtain ⟨⟨first, file⟩, rest⟩ := List.forall_mem_cons.mp recognised
    have step : (r.step kind rows (print x)).flushed.complete = told x :: r.flushed.complete := by
      simp only [Reading.step, first, placed_of_file file]
      rfl
    rw [List.map_cons, List.foldl_cons, ih rest, step]
    simp

/-- A line that no row knows goes on with the message of the last diagnostic before it. -/
theorem readLines_unknown {front : List α} {last : α}
    (recognised : ∀ x ∈ front ++ [last], recognise rows (print x) = some (.diagnostic (told x)) ∧ (told x).file.isSome = true)
    {line : List Char} (unknown : recognise rows line = none) :
    readLines kind rows ((front ++ [last]).map print ++ [line]) = front.map told ++ [extend (told last) line] := by
  obtain ⟨first, second⟩ := List.forall_mem_append.mp recognised
  obtain ⟨known, file⟩ := List.forall_mem_singleton.mp second
  have before := @complete_recognised _ kind _ _ _ _ first .start
  rw [readLines, List.map_append, List.append_assoc, List.foldl_append]
  generalize (front.map print).foldl (Reading.step kind rows) .start = r at before
  have steps : ((([last].map print ++ [line]).foldl (Reading.step kind rows) r).flushed.complete =
      extend (told last) line :: r.flushed.complete) := by
    simp only [List.map_singleton, List.singleton_append, List.foldl_cons, List.foldl_nil, Reading.step, known, unknown,
      placed_of_file file]
    rfl
  rw [steps, before]
  simp [Reading.start, Reading.flushed]

end

theorem finalMessage_framed {d : Diagnostic} (framed : Framed d.message.toList) : d.finalMessage = d.message := by
  have same : trimmed d.message = d.message := by rw [trimmed, framed.trim_eq, String.ofList_toList]
  have some : d.message ≠ "" := fun empty => framed.ne_nil (by rw [empty]; rfl)
  rw [finalMessage, same]
  exact if_neg some

theorem extend_framed {d : Diagnostic} (framed : Framed d.message.toList) {line : String} (framed' : Framed line.toList) :
    extend d line.toList = { d with message := d.message ++ " " ++ line } := by
  have some : d.message ≠ "" := fun empty => framed.ne_nil (by rw [empty]; rfl)
  simp only [extend, if_neg some, framed'.trim_eq, String.ofList_toList]

theorem framed_joined {message line : String} (framed : Framed message.toList) (framed' : Framed line.toList) :
    Framed (message ++ " " ++ line).toList := by
  have whole := framed.append framed' [' ']
  simpa using whole

/-- The line tells of a diagnostic with a file and a message. -/
structure ReadBack (kind : DefectKind) (line : String) (d : Diagnostic) : Prop where
  counted : countedLines line.toList = [line.toList]
  recognised : recognise (Tables.standard kind) line.toList = some (.diagnostic d)
  file : d.file.isSome = true
  message : Framed d.message.toList

section
variable {α : Type} {kind : DefectKind} {print : α → String} {told : α → Diagnostic} {items : List α}
  (reads : ∀ x ∈ items, ReadBack kind (print x) (told x))
include reads

theorem counted_readBack :
    (items.map print).flatMap (fun line => countedLines line.toList) = items.map fun x => (print x).toList := by
  rw [List.flatMap_map, List.flatMap_def, List.map_congr_left fun x member => (reads x member).counted, ← List.flatMap_def,
    ← List.map_eq_flatMap]

theorem normalize_readBack (now : Timestamp) :
    normalize .standard kind (report (items.map print)) now = items.map fun x => toDefect kind now (told x) := by
  have read := @complete_recognised _ kind _ _ _ _ (fun x member => ⟨(reads x member).recognised, (reads x member).file⟩) .start
  rw [normalize, countedLines_report, counted_readBack reads, readLines, read]
  simp [Reading.start, Reading.flushed]

end

/-- A report gives the diagnostics that its lines tell of, but its summary goes on with the last message. -/
theorem normalize_report {α : Type} {kind : DefectKind} (now : Timestamp) {print : α → String} {told : α → Diagnostic}
    {front : List α} {last : α} (reads : ∀ x ∈ front ++ [last], ReadBack kind (print x) (told x)) {empty : List String}
    (blank : ∀ line ∈ empty, countedLines line.toList = []) {letters : List Char} (free : '\n' ∉ letters) {summary : String}
    (isSummary : IsSummary letters summary) (unknown : recognise (Tables.standard kind) summary.toList = none) :
    normalize .standard kind (report ((front ++ [last]).map print ++ empty ++ [summary])) now =
      front.map (fun x => toDefect kind now (told x)) ++
        [toDefect kind now { told last with message := (told last).message ++ " " ++ summary }] := by
  have counted : countedLines (report ((front ++ [last]).map print ++ empty ++ [summary])).toList =
      (front ++ [last]).map (fun x => (print x).toList) ++ [summary.toList] := by
    have end_ := countedLines_framed isSummary.framed fun inside => free (isSummary.within _ inside)
    rw [countedLines_report, List.flatMap_append, List.flatMap_append, counted_readBack reads, List.flatMap_eq_nil_iff.mpr blank,
      List.flatMap_singleton, end_, List.append_nil]
  have read := @readLines_unknown _ kind _ _ _ front last (fun x member => ⟨(reads x member).recognised, (reads x member).file⟩) _ unknown
  rw [normalize, counted, read, extend_framed (reads last (by simp)).message isSummary.framed, List.map_append, List.map_map,
    List.map_singleton]
  simp only [Function.comp_def]

end Diagnostic

open Diagnostic

theorem Problem.Printable.readBack {p : Problem} (printable : p.Printable) :
    ReadBack .staticAnalysis p.print p.diagnostic :=
  ⟨countedLines_print printable, recognise_print printable, rfl, printable.message.1⟩

theorem FailedCase.Printable.readBack {f : FailedCase} (printable : f.Printable) :
    ReadBack .testFailure f.print f.diagnostic :=
  ⟨countedLines_print printable, recognise_print printable, rfl, printable.message.1⟩

theorem Problem.toDefect_diagnostic (now : Timestamp) {p : Problem} (framed : Framed p.message.toList) :
    toDefect .staticAnalysis now p.diagnostic = p.defect now := by
  rw [toDefect, finalMessage_framed framed]
  rfl

theorem FailedCase.toDefect_diagnostic (now : Timestamp) {f : FailedCase} (framed : Framed f.message.toList) :
    toDefect .testFailure now f.diagnostic = f.defect now := by
  rw [toDefect, finalMessage_framed framed]
  rfl

/-- A linter's report of any problems, and a test runner's report of any failed tests, give a defect for each, in order and as it
was printed. But the message of the last one goes on with the summary, whatever its numbers and its time. -/
theorem summary_joins_last_message (now : Timestamp) :
    (∀ (front : List Problem) (last : Problem) (total : Nat) (plural : Bool), (∀ p ∈ front ++ [last], p.Printable) →
      normalize .standard .staticAnalysis (lintReport (front ++ [last]) (lintSummary total plural)) now =
        front.map (·.defect now) ++ [{ last with message := last.message ++ " " ++ lintSummary total plural }.defect now]) ∧
    ∀ (front : List FailedCase) (last : FailedCase) (failed passed seconds : Nat) (hundredths : Fin 100),
      (∀ f ∈ front ++ [last], f.Printable) →
      normalize .standard .testFailure (testReport (front ++ [last]) (testSummary failed passed seconds hundredths)) now =
        front.map (·.defect now) ++
          [{ last with message := last.message ++ " " ++ testSummary failed passed seconds hundredths }.defect now] := by
  refine ⟨fun front last total plural printable => ?_, fun front last failed passed seconds hundredths printable => ?_⟩
  · have isSummary := isSummary_lint total plural
    obtain ⟨first, second⟩ := List.forall_mem_append.mp printable
    have joined := framed_joined (List.forall_mem_singleton.mp second).message.1 isSummary.framed
    have free : '\n' ∉ lintLetters := by decide
    have told := @normalize_report Problem .staticAnalysis now Problem.print Problem.diagnostic front last
      (fun p member => (printable p member).readBack) [""] (by decide) _ free _ isSummary (recognise_lintSummary isSummary)
    have lines : lintReport (front ++ [last]) (lintSummary total plural) =
        report ((front ++ [last]).map Problem.print ++ [""] ++ [lintSummary total plural]) := by
      simp [lintReport]
    rw [lines, told, List.map_congr_left fun p member => Problem.toDefect_diagnostic now (first p member).message.1]
    have final := @Problem.toDefect_diagnostic now { last with message := last.message ++ " " ++ lintSummary total plural } joined
    rw [← final]
    rfl
  · have isSummary := isSummary_test failed passed seconds hundredths
    obtain ⟨first, second⟩ := List.forall_mem_append.mp printable
    have joined := framed_joined (List.forall_mem_singleton.mp second).message.1 isSummary.framed
    have free : '\n' ∉ testLetters := by decide
    have told := @normalize_report FailedCase .testFailure now FailedCase.print FailedCase.diagnostic front last
      (fun f member => (printable f member).readBack) [] (by simp) _ free _ isSummary (recognise_testSummary isSummary)
    have lines : testReport (front ++ [last]) (testSummary failed passed seconds hundredths) =
        report ((front ++ [last]).map FailedCase.print ++ [] ++ [testSummary failed passed seconds hundredths]) := by
      simp [testReport]
    rw [lines, told, List.map_congr_left fun f member => FailedCase.toDefect_diagnostic now (first f member).message.1]
    have final := @FailedCase.toDefect_diagnostic now
      { last with message := last.message ++ " " ++ testSummary failed passed seconds hundredths } joined
    rw [← final]
    rfl

/-- Two problems and two failed tests, reported with their summaries: the first of either is as it was printed. -/
theorem last_message_holds_summary :
    let p : Problem := ⟨"a.js", 1, 2, true, "no use", "no-unused"⟩
    let q : Problem := ⟨"b.js", 30, 1, false, "too long", "max-len"⟩
    let f : FailedCase := ⟨"a.py", "test_a[x]", "assert 1 == 2"⟩
    let g : FailedCase := ⟨"b.py", "T::test_b", "KeyError: 'k'"⟩
    (∀ x ∈ [p] ++ [q], x.Printable) ∧ (∀ x ∈ [f] ++ [g], x.Printable) ∧
      normalize .standard .staticAnalysis (lintReport ([p] ++ [q]) (lintSummary 2 true)) .epoch =
        [p.defect .epoch, { q with message := "too long 2 problems" }.defect .epoch] ∧
      normalize .standard .testFailure (testReport ([f] ++ [g]) (testSummary 2 7 0 12)) .epoch =
        [f.defect .epoch, { g with message := "KeyError: 'k' 2 failed, 7 passed in 0.12s" }.defect .epoch] := by
  intro p q f g
  have problems : ∀ x ∈ [p] ++ [q], x.Printable := by
    refine List.forall_mem_cons.mpr ⟨?first, List.forall_mem_singleton.mpr ?second⟩
    case first => exact ⟨by decide, by decide, by decide, by decide, by decide, by simp [p]⟩
    case second => exact ⟨by decide, by decide, by decide, by decide, by decide, by simp [q]⟩
  have cases : ∀ x ∈ [f] ++ [g], x.Printable := by
    refine List.forall_mem_cons.mpr ⟨?first, List.forall_mem_singleton.mpr ?second⟩
    all_goals exact ⟨by decide, by decide, by decide⟩
  have joined := summary_joins_last_message .epoch
  exact ⟨problems, cases, joined.1 [p] q 2 true problems, joined.2 [f] g 2 7 0 12 cases⟩

/-- One problem and one failed test are not given as they were printed, and two reports of one failed test that took different
times give different messages. -/
theorem summary_changes_message :
    let p : Problem := ⟨"a.js", 1, 2, true, "m", "r"⟩
    let f : FailedCase := ⟨"a.py", "t", "m"⟩
    p.Printable ∧ f.Printable ∧
      (normalize .standard .staticAnalysis (lintReport [p] (lintSummary 1 false)) .epoch).map (·.message) = ["m 1 problem"] ∧
      (normalize .standard .testFailure (testReport [f] (testSummary 1 0 0 1)) .epoch).map (·.message) =
        ["m 1 failed, 0 passed in 0.01s"] ∧
      (normalize .standard .testFailure (testReport [f] (testSummary 1 0 0 2)) .epoch).map (·.message) =
        ["m 1 failed, 0 passed in 0.02s"] := by
  intro p f
  have rule : IsWord "r" ∧ ∀ c ∈ "r".toList, c ≠ '[' ∧ c ≠ ']' := ⟨by decide, by simp⟩
  exact ⟨⟨by decide, by decide, by decide, by decide, rule⟩, ⟨by decide, by decide, by decide⟩, by decide +kernel⟩

end GatedRepair
