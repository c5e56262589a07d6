import GatedRepair.Diagnostic
import GatedRepair.Proofs.Text.Lines

/-!
# What the lines of an output tell

The reading of an output goes line by line, with one diagnostic that grows and one file that was named last. What comes out
can be told without such a state: each line in which a row recognises a diagnostic is one defect, whose message goes on with
the unrecognised lines right after it, and whose file may be the one that was named last before it (`normalize_segments`).
Blanks at the ends of the lines, blank lines and the way in which lines end make no difference (`countedLines_blank`).
-/

namespace GatedRepair.Diagnostic

open Text

/-! ## Segments -/

/-- A diagnostic as a line tells of it, with the file that was named last before that line, and the lines after it that no
row recognises, up to the next one that some row does. -/
structure Segment where
  heading : Option String
  own : Diagnostic
  continued : List (List Char)

section
variable (rows : List Row)

/-- The file that a line names for the diagnostics after it. -/
def heading? (line : List Char) : Option String :=
  match recognise rows line with
  | some (.heading file) => some file
  | _ => none

/-- The file that is named last in some lines. -/
def latestHeading (lines : List (List Char)) : Option String := (lines.filterMap (heading? rows)).getLast?

/-- The lines in front of the first one that some row recognises. -/
def unrecognised (lines : List (List Char)) : List (List Char) := lines.takeWhile fun line => (recognise rows line).isNone

/-- The segment that begins with a line, if a row recognises a diagnostic in it. -/
def segment? (heading : Option String) (line : List Char) (after : List (List Char)) : Option Segment :=
  match recognise rows line with
  | some (.diagnostic d) => some ⟨heading, d, unrecognised rows after⟩
  | _ => none

/-- The segments of some lines, in order. -/
def segments (lines : List (List Char)) : List Segment :=
  lines.zipIdx.filterMap fun (line, place) =>
    segment? rows (latestHeading rows (lines.take place)) line (lines.drop (place + 1))

end

namespace Segment

/-- The file that the diagnostic has itself, or else the one that was named last. A failed test goes without the latter. -/
def file (kind : DefectKind) (s : Segment) : Option String :=
  if kind = .testFailure then s.own.file else s.own.file.or s.heading

/-- The rule, unless it is blank. -/
def rule (s : Segment) : Option String := s.own.rule.filter fun text => !allBlank text.toList

/-- The diagnostic's own message and the lines that go on with it, with spaces between them and none around them. In place of a
blank one stands the rule. -/
def message (s : Segment) : String :=
  let joined := trim (join [' '] (s.own.message.toList :: s.continued.map trim))
  if joined = [] then s.own.rule.getD "unspecified diagnostic" else String.ofList joined

/-- The open defect that a segment tells of. -/
def defect (kind : DefectKind) (now : Timestamp) (s : Segment) : Defect where
  id := defectId kind (s.file kind) s.own.line (s.rule.getD s.message)
  kind
  severity := s.own.severity
  file := s.file kind
  line := s.own.line
  column := s.own.column
  rule := s.rule
  message := s.message
  status := .unfixed
  attempts := 0
  createdAt := now
  updatedAt := now
  fix := none
  resolution := none
  regressions := 0
  lastFailure := none

/-- The diagnostic that the reading makes of a segment. -/
def diagnostic (kind : DefectKind) (s : Segment) : Diagnostic := s.continued.foldl extend (placed kind s.heading s.own)

end Segment

/-! ## Messages that grow -/

/-- A message that grew line by line is, without the blanks around it, its parts with spaces between them. -/
theorem trim_message_foldl_extend (d : Diagnostic) (lines : List (List Char)) :
    trim (lines.foldl extend d).message.toList = trim (join [' '] (d.message.toList :: lines.map trim)) := by
  induction lines generalizing d with
  | nil => simp [join]
  | cons line more ih =>
    rw [List.foldl_cons, ih, List.map_cons]
    unfold extend
    by_cases empty : d.message = ""
    · -- The line takes the place of an empty message, so one space less stands in front.
      simp only [if_pos empty, String.toList_ofList]
      rw [empty, join, join, List.intercalate_cons_cons, String.toList_empty, List.nil_append, List.singleton_append,
        trim_cons_blank rfl]
    · simp only [if_neg empty, String.toList_append, String.toList_ofList]
      cases more <;> simp [join, List.intercalate_cons_cons, List.intercalate_singleton]

theorem foldl_extend_keeps (d : Diagnostic) (lines : List (List Char)) :
    lines.foldl extend d = { d with message := (lines.foldl extend d).message } := by
  induction lines generalizing d with
  | nil => rfl
  | cons line more ih =>
    rw [List.foldl_cons, ih (extend d line)]
    rfl

theorem placed_eq (kind : DefectKind) (s : Segment) : placed kind s.heading s.own = { s.own with file := s.file kind } := by
  unfold placed Segment.file
  rcases own : s.own with ⟨file, line, column, severity, rule, message⟩
  cases file with
  | none => by_cases test : kind = .testFailure <;> simp [test]
  | some file => by_cases test : kind = .testFailure <;> simp [test]

/-- The diagnostic that the reading makes of a segment tells of the segment's defect. -/
theorem Segment.toDefect_diagnostic (kind : DefectKind) (now : Timestamp) (s : Segment) :
    toDefect kind now (s.diagnostic kind) = s.defect kind now := by
  have message : (s.diagnostic kind).finalMessage = s.message := by
    unfold finalMessage Segment.message trimmed
    rw [diagnostic, trim_message_foldl_extend, foldl_extend_keeps, placed_eq]
    simp only [String.ofList_eq_empty_iff]
  have fields : s.diagnostic kind = { s.own with file := s.file kind, message := (s.diagnostic kind).message } := by
    rw [diagnostic, foldl_extend_keeps, placed_eq]
  rw [toDefect, message, fields]
  rfl

/-! ## The reading -/

section
variable {kind : DefectKind} {rows : List Row}

theorem latestHeading_concat (front : List (List Char)) (line : List Char) :
    latestHeading rows (front ++ [line]) = (heading? rows line).or (latestHeading rows front) := by
  unfold latestHeading
  rw [List.filterMap_append, List.getLast?_append]
  cases named : heading? rows line <;> simp [named]

theorem unrecognised_cons (line : List Char) (more : List (List Char)) :
    unrecognised rows (line :: more) = if (recognise rows line).isNone then line :: unrecognised rows more else [] :=
  List.takeWhile_cons

/-- The diagnostics that are complete, and the one that still grows with the lines that go on with it. -/
def Reading.told (rows : List Row) (back : List (List Char)) (r : Reading) : List Diagnostic :=
  r.complete.reverse ++ (r.pending.map fun d => (unrecognised rows back).foldl extend d).toList

theorem Reading.heading_flushed (r : Reading) : r.flushed.heading = r.heading := by
  unfold flushed
  split <;> rfl

theorem Reading.pending_flushed (r : Reading) : r.flushed.pending = none := by
  unfold flushed
  split
  · next none => exact none
  · rfl

theorem Reading.complete_flushed {back : List (List Char)} (r : Reading) (stops : unrecognised rows back = []) :
    r.flushed.complete.reverse = r.told rows back := by
  unfold flushed told
  split
  · next none => simp [none]
  · next d grows => simp [grows, stops]

theorem Reading.heading_step (r : Reading) (line : List Char) :
    (r.step kind rows line).heading = (heading? rows line).or r.heading := by
  unfold step heading?
  split <;> simp [*, heading_flushed]

/-- A line adds the segment that begins with it. -/
theorem Reading.told_step (r : Reading) (line : List Char) (back : List (List Char)) :
    (r.step kind rows line).told rows back =
      r.told rows (line :: back) ++ ((segment? rows r.heading line back).map (Segment.diagnostic kind)).toList := by
  unfold segment?
  cases meant : recognise rows line with
  | none =>
    have goes : unrecognised rows (line :: back) = line :: unrecognised rows back := by rw [unrecognised_cons, meant]; rfl
    simp only [told, step, meant, goes, Option.map_map]
    simp [Function.comp_def]
  | some meaning =>
    have stops : unrecognised rows (line :: back) = [] := by rw [unrecognised_cons, meant]; rfl
    rw [← r.complete_flushed stops]
    cases meaning with
    | diagnostic d => simp [told, step, meant, Segment.diagnostic]
    | heading file => simp [told, step, meant, pending_flushed]
    | ending => simp [told, step, meant, pending_flushed]

/-- The lines at the end add the segments that begin with one of them. -/
theorem complete_foldl_step (kind : DefectKind) (front back : List (List Char)) {r : Reading}
    (named : r.heading = latestHeading rows front) :
    (back.foldl (Reading.step kind rows) r).flushed.complete.reverse =
      r.told rows back ++ ((back.zipIdx front.length).filterMap fun (line, place) =>
        segment? rows (latestHeading rows ((front ++ back).take place)) line ((front ++ back).drop (place + 1))).map
          (Segment.diagnostic kind) := by
  induction back generalizing front r with
  | nil =>
    have stops : unrecognised rows [] = [] := rfl
    rw [List.foldl_nil, r.complete_flushed stops]
    simp
  | cons line back ih =>
    have named' : (r.step kind rows line).heading = latestHeading rows (front ++ [line]) := by
      rw [r.heading_step, latestHeading_concat, named]
    have before : (front ++ line :: back).take front.length = front := List.take_left
    have after : (front ++ line :: back).drop (front.length + 1) = back := by simp [List.drop_append]
    rw [List.foldl_cons, ih (front ++ [line]) named', r.told_step, List.zipIdx_cons, List.filterMap_cons]
    simp only [before, after, ← named, List.append_assoc, List.singleton_append, List.length_append, List.length_singleton]
    cases segment? rows r.heading line back <;> simp

theorem readLines_eq (kind : DefectKind) (rows : List Row) (lines : List (List Char)) :
    readLines kind rows lines = (segments rows lines).map (Segment.diagnostic kind) := by
  rw [readLines, complete_foldl_step kind [] lines (r := .start) rfl]
  rfl

end

/-! ## The lines that count -/

theorem countedLines_free {line : List Char} (free : '\n' ∉ line) :
    countedLines line = [trimEnd line].filter (!·.isEmpty) := by
  by_cases empty : line = []
  · rw [empty]
    rfl
  · rw [countedLines, lines, pieces_loose empty free, List.map_singleton, unterminated_loose free, List.map_singleton]

/-- The lines that count in a text are those up to a newline and those after it. -/
theorem countedLines_newline (front back : List Char) :
    countedLines (front ++ '\n' :: back) = countedLines front ++ countedLines back := by
  have first : ∀ {line : List Char} (text : List Char), '\n' ∉ line →
      countedLines (line ++ '\n' :: text) = countedLines line ++ countedLines text := by
    intro line text free
    -- The carriage return of a line ending is one more blank at the end of the line.
    have cut : trimEnd (unterminated (line ++ ['\n'])) = trimEnd line := by
      rcases unterminated_closed line with ⟨-, same⟩ | ⟨-, same⟩
      · have blank : allBlank ['\r'] = true := rfl
        have longer := trimEnd_append_blank blank (unterminated (line ++ ['\n']))
        rwa [← same, eq_comm] at longer
      · rw [← same]
    rw [countedLines_free free, countedLines, lines, pieces_closed free, List.map_cons, List.map_cons, cut, ← List.singleton_append,
      List.filter_append]
    rfl
  have pieced := pieced_pieces front
  rw [← flatten_pieces front]
  generalize pieces front = parts at pieced
  induction pieced with
  | none => exact first back List.not_mem_nil
  | @loose piece some free => simpa using first back free
  | @closed line rest free more ih =>
    simp only [List.flatten_cons, List.append_assoc, List.cons_append, List.nil_append, first _ free, ih]

/-- Blanks at the end of a text do not count, be it spaces, carriage returns or blank lines. -/
theorem countedLines_blank (front : List Char) {blank : List Char} (all : allBlank blank = true) :
    countedLines (front ++ blank) = countedLines front := by
  have one : ∀ (text : List Char) {c : Char}, isBlank c = true → c ≠ '\n' → countedLines (text ++ [c]) = countedLines text := by
    intro text c blank other
    have pieced := pieced_pieces text
    rw [← flatten_pieces text]
    generalize pieces text = parts at pieced
    induction pieced with
    | none =>
      rw [List.flatten_nil, List.nil_append, countedLines_free (by simpa using other.symm), trimEnd_blank (by simpa [allBlank])]
      rfl
    | @loose piece some free =>
      rw [List.flatten_singleton, countedLines_free free, countedLines_free (by simp [free, other.symm]),
        trimEnd_append_blank (by simpa [allBlank])]
    | @closed line rest free more ih =>
      simp only [List.flatten_cons, List.append_assoc, List.cons_append, List.nil_append, countedLines_newline, ih]
  induction blank generalizing front with
  | nil => rw [List.append_nil]
  | cons c blank ih =>
    obtain ⟨first, rest⟩ := Bool.and_eq_true_iff.mp all
    by_cases newline : c = '\n'
    · rw [newline, countedLines_newline, ← List.nil_append blank, ih [] rest]
      exact List.append_nil _
    · rw [← List.singleton_append, ← List.append_assoc, ih _ rest, one front first newline]

/-! ## What an output tells -/

/-- The defects of an output are those that the segments of its lines tell of. Blanks before a newline or at the end of the
output make no difference, and they may be blank lines, the last newline, or the carriage return of a line ending. -/
theorem normalize_segments (tables : Tables) (kind : DefectKind) (now : Timestamp) :
    (∀ output : String, normalize tables kind output now =
      (segments (tables kind) (countedLines output.toList)).map (Segment.defect kind now)) ∧
    ∀ front blank back : String, allBlank blank.toList = true →
      normalize tables kind (front ++ blank ++ "\n" ++ back) now = normalize tables kind (front ++ "\n" ++ back) now ∧
      normalize tables kind (front ++ blank) now = normalize tables kind front now := by
  refine ⟨fun output => ?_, fun front blank back all => ⟨?_, ?_⟩⟩
  · rw [normalize, readLines_eq, List.map_map]
    exact List.map_congr_left fun s _ => s.toDefect_diagnostic kind now
  · have newline : "\n".toList = ['\n'] := rfl
    simp only [normalize, String.toList_append, newline, List.append_assoc, List.singleton_append]
    rw [← List.append_assoc, countedLines_newline, countedLines_blank _ all, countedLines_newline]
  · simp only [normalize, String.toList_append, countedLines_blank _ all]

/-- A message goes on in the next line, and the first line ends in a carriage return as well. -/
theorem wrapped_message_is_joined :
    let first := "a.ts(1,2): error TS1: wrong"
    let rest := "  type here\n\nFound 1 error\nat 1:2"
    normalize .standard .typeCheck (first ++ "\r" ++ "\n" ++ rest) .epoch =
        normalize .standard .typeCheck (first ++ "\n" ++ rest) .epoch ∧
      (normalize .standard .typeCheck (first ++ "\n" ++ rest) .epoch).map (·.message) = ["wrong type here"] := by
  intro first rest
  have segmented := normalize_segments .standard .typeCheck .epoch
  refine ⟨(segmented.2 first "\r" rest (by decide)).1, ?_⟩
  rw [segmented.1]
  decide +kernel

end GatedRepair.Diagnostic
