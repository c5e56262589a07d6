import GatedRepair.Proofs.Fix.Window

/-!
# Edits that answer with what was shown

A window shows its lines with newlines between them, and an edit reads the lines of an answer. Of shown lines the last is not
read again if it is empty, and a carriage return at the end of any other line is taken for a part of the line ending. When
neither occurs, an answer that repeats what was shown changes nothing, and else it does (`splice_echo_iff`).
-/

namespace GatedRepair

open Text

namespace Region

variable {α : Type} {l : List α} {r : Region}

theorem mem_of_mem_select {x : α} (inside : x ∈ r.select l) : x ∈ l := List.mem_of_mem_drop (List.mem_of_mem_take inside)

theorem cut (fits : r.fits l.length = true) : l = l.take (r.start - 1) ++ r.select l ++ l.drop r.stop := by
  obtain ⟨first, order, last⟩ := fits_iff.mp fits
  have size : r.start - 1 + r.size = r.stop := by
    unfold Region.size
    omega
  rw [select, ← size, ← List.drop_drop, List.append_assoc, List.take_append_drop, List.take_append_drop]

theorem select_concat (fits : r.fits l.length = true) (inside : r.stop - 1 < l.length) :
    ∃ before, r.select l = before ++ [l[r.stop - 1]] := by
  obtain ⟨first, order, last⟩ := fits_iff.mp fits
  have count : r.size = r.size - 1 + 1 := by
    unfold Region.size
    omega
  have index : r.start - 1 + (r.size - 1) = r.stop - 1 := by
    unfold Region.size
    omega
  refine ⟨(l.drop (r.start - 1)).take (r.size - 1), ?_⟩
  rw [select, count, List.take_add_one, List.getElem?_drop, index, List.getElem?_eq_getElem inside]
  rfl

end Region

namespace Text

variable {text line : List Char} {parts : List (List Char)}

/-! ## Texts with one line ending -/

/-- No newline of the text has a carriage return before it. -/
def Lf (text : List Char) : Prop := ∀ front back, text = front ++ '\n' :: back → front.getLast? ≠ some '\r'

theorem lf_of_not_mem (free : '\r' ∉ text) : Lf text := by
  intro front back same returns
  exact free (same ▸ List.mem_append_left _ (List.mem_of_getLast? returns))

/-- The newline of each piece has the text's line ending if all newlines of the text have the same. -/
theorem piece_eq (uniform : Lf text ∨ Crlf text) :
    ∀ piece ∈ pieces text, endsInNewline piece = true → piece = unterminated piece ++ Edit.lineEnding text := by
  intro piece inside ends
  obtain ⟨front, back, cut⟩ := List.append_of_mem inside
  have whole : text = front.flatten ++ piece ++ back.flatten := by
    rw [← flatten_pieces text, cut]
    simp
  obtain ⟨line, rfl⟩ := List.getLast?_eq_some_iff.mp (beq_iff_eq.mp ends)
  have newline : text = (front.flatten ++ line) ++ '\n' :: back.flatten := by simp [whole]
  rcases uniform with lf | crlf
  · have plain : line.getLast? ≠ some '\r' := by
      intro returns
      exact lf _ _ newline (by rw [List.getLast?_append, returns]; rfl)
    have none : Edit.lineEnding text = ['\n'] := by
      rw [Edit.lineEnding, if_neg]
      intro found
      obtain ⟨before, after, same⟩ := (Edit.isSome_fromFirst? text).mp found
      exact lf (before ++ ['\r']) after (by simp [← same]) (by simp)
    rw [unterminated_lf plain, none]
  · have returns := crlf.of_mem_pieces _ inside line [] rfl
    obtain ⟨before, rfl⟩ := List.getLast?_eq_some_iff.mp returns
    rw [Edit.lineEnding_crlf (by simp [newline]) crlf, List.append_assoc, List.singleton_append, unterminated_crlf]

/-- Pieces with one line ending are their lines with that line ending. -/
theorem Pieced.eq_withEndings (pieced : Pieced parts) (ending : List Char)
    (uniform : ∀ piece ∈ parts, endsInNewline piece = true → piece = unterminated piece ++ ending) :
    parts = withEndings ending (endsInNewline parts.flatten) (parts.map unterminated) := by
  induction pieced with
  | none => rfl
  | @loose piece some free => simp [withEndings, unterminated_loose free, endsInNewline_free free]
  | @closed line rest free more ih =>
    have first := uniform _ List.mem_cons_self (endsInNewline_closed line)
    have others := ih fun piece inside => uniform piece (List.mem_cons_of_mem _ inside)
    cases rest with
    | nil => simpa [withEndings] using first
    | cons next rest =>
      have some : (next :: rest).flatten ≠ [] := by
        cases more with
        | loose some free => simpa using some
        | closed free more => simp
      rw [List.flatten_cons, endsInNewline_append _ some, List.map_cons, List.map_cons, withEndings, ← first,
        ← List.map_cons, ← others]

/-! ## Lines that are read again -/

/-- What is read of lines that were joined by newlines. -/
def reread : List (List Char) → List (List Char)
  | [] => []
  | [line] => if line = [] then [] else [line]
  | line :: next :: more => unterminated (line ++ ['\n']) :: reread (next :: more)

theorem lines_join (free : ∀ line ∈ parts, '\n' ∉ line) : lines (join ['\n'] parts) = reread parts := by
  induction parts with
  | nil => rfl
  | cons line more ih =>
    have line_free := free line List.mem_cons_self
    cases more with
    | nil =>
      rw [join, List.intercalate_singleton, reread]
      by_cases empty : line = []
      · subst empty
        rfl
      · rw [if_neg empty, lines, pieces_loose empty line_free, List.map_singleton, unterminated_loose line_free]
    | cons next rest =>
      have rest_lines := ih fun other inside => free other (List.mem_cons_of_mem _ inside)
      rw [join, List.intercalate_cons_cons, List.append_assoc, List.singleton_append, ← join, lines,
        pieces_closed line_free, List.map_cons, ← lines, rest_lines, reread]

/-- Lines that are the same when they are read again: the last one is not empty, and no other one ends in a carriage return. -/
structure Echoes (parts : List (List Char)) : Prop where
  last : ∀ line, parts.getLast? = some line → line ≠ []
  others : ∀ line ∈ parts.dropLast, line.getLast? ≠ some '\r'

@[simp] theorem echoes_nil : Echoes [] := ⟨by simp, by simp⟩

@[simp] theorem echoes_singleton : Echoes [line] ↔ line ≠ [] := by
  constructor
  · intro echoes
    exact echoes.last line rfl
  · intro some
    exact ⟨by simpa using some, by simp⟩

theorem echoes_cons_cons {next : List Char} : Echoes (line :: next :: parts) ↔
    line.getLast? ≠ some '\r' ∧ Echoes (next :: parts) := by
  constructor
  · rintro ⟨last, others⟩
    rw [List.getLast?_cons_cons] at last
    obtain ⟨plain, others⟩ := List.forall_mem_cons.mp others
    exact ⟨plain, last, others⟩
  · rintro ⟨plain, last, others⟩
    constructor
    · rwa [List.getLast?_cons_cons]
    · exact List.forall_mem_cons.mpr ⟨plain, others⟩

theorem Echoes.reread (echoes : Echoes parts) : reread parts = parts := by
  induction parts with
  | nil => rfl
  | cons line more ih =>
    cases more with
    | nil => rw [Text.reread, if_neg (echoes_singleton.mp echoes)]
    | cons next rest =>
      obtain ⟨plain, rest_echoes⟩ := echoes_cons_cons.mp echoes
      rw [Text.reread, unterminated_lf plain, ih rest_echoes]

/-- The length of lines with the line ending after each. -/
def weight (ending : List Char) (parts : List (List Char)) : Nat := (parts.map fun line => line.length + ending.length).sum

@[simp] theorem weight_cons (ending line : List Char) (more : List (List Char)) :
    weight ending (line :: more) = line.length + ending.length + weight ending more := by
  simp [weight]

/-- Reading lines again makes them no longer, and shorter unless they echo. -/
theorem weight_reread {ending : List Char} (some : ending ≠ []) (parts : List (List Char)) :
    weight ending (reread parts) ≤ weight ending parts ∧
      (weight ending (reread parts) = weight ending parts → Echoes parts) := by
  have positive : 0 < ending.length := List.length_pos_iff.mpr some
  induction parts with
  | nil => exact ⟨Nat.le_refl _, fun _ => echoes_nil⟩
  | cons line more ih =>
    cases more with
    | nil =>
      by_cases empty : line = []
      · simp only [reread, empty, if_true, weight_cons, List.length_nil]
        constructor
        · simp [weight]
        · intro same
          simp only [weight, List.map_nil, List.sum_nil] at same
          omega
      · rw [reread, if_neg empty]
        exact ⟨Nat.le_refl _, fun _ => echoes_singleton.mpr empty⟩
    | cons next rest =>
      obtain ⟨shorter, echoes⟩ := ih
      rw [reread, weight_cons, weight_cons ending line]
      rcases unterminated_closed line with ⟨returns, same⟩ | ⟨plain, same⟩
      · -- the line loses its carriage return
        have cut := congrArg List.length same
        rw [List.length_append, List.length_singleton] at cut
        omega
      · rw [← same]
        refine ⟨by omega, fun equal => ?_⟩
        exact echoes_cons_cons.mpr ⟨plain, echoes (by omega)⟩

end Text

namespace Edit

variable {content : List Char} {r : Region} {parts : List (List Char)}

/-! ## Answers -/

theorem length_withEndings (ending : List Char) (wanted : Bool) (some : parts ≠ []) :
    (withEndings ending wanted parts).flatten.length + (if wanted then 0 else ending.length) = weight ending parts := by
  obtain ⟨front, last, rfl⟩ : ∃ front last, parts = front ++ [last] := ⟨_, _, (List.dropLast_concat_getLast some).symm⟩
  rw [flatten_withEndings ending wanted some, join_concat]
  have sum : weight ending (front ++ [last]) = (front.map (· ++ ending)).flatten.length + last.length + ending.length := by
    simp [weight, List.length_flatten, Function.comp_def, Nat.add_assoc]
  rw [sum]
  cases wanted <;> simp [Nat.add_assoc]

/-- What is put in for lines is no longer than the lines with the line ending. -/
theorem length_ended_le (ending : List Char) (wanted : Bool) (some : wanted = true ∨ parts ≠ []) :
    (ended ending wanted (join ending parts)).length + (if wanted then 0 else ending.length) ≤ weight ending parts := by
  by_cases none : parts = []
  · obtain rfl := some.resolve_right (absurd none)
    simp [none, ended, join]
  · rw [← length_withEndings ending wanted none, flatten_withEndings ending wanted none, ended]
    cases wanted with
    | false => simp
    | true =>
      simp only [Bool.true_and, if_true, Nat.add_zero]
      split
      · exact Nat.le_refl _
      · simp

/-- Lines that were joined by newlines are put in as they were if they echo, and only then. -/
theorem ended_echo_iff {ending : List Char} (isEnding : IsEnding ending) {wanted : Bool} (some : parts ≠ [])
    (free : ∀ line ∈ parts, '\n' ∉ line) (loose : wanted = false → ∀ line, parts.getLast? = .some line → line ≠ []) :
    ended ending wanted (respelled ending (join ['\n'] parts)) = (withEndings ending wanted parts).flatten ↔ Echoes parts := by
  rw [respelled, lines_join free]
  constructor
  · intro same
    have present : ending ≠ [] := by
      rcases isEnding with rfl | rfl <;> simp
    obtain ⟨shorter, echoes⟩ := weight_reread present parts
    -- the lines have weighed no less since they were read again, as the text is as long as before
    apply echoes
    have rest : wanted = true ∨ reread parts ≠ [] := by
      cases wanted with
      | true => exact .inl rfl
      | false =>
        right
        match parts, some, loose rfl with
        | [line], _, last => simp [reread, last line rfl]
        | line :: next :: more, _, _ => simp [reread]
    have bound := length_ended_le ending wanted rest
    have length := length_withEndings ending wanted some
    rw [same] at bound
    omega
  · intro echoes
    rw [echoes.reread]
    exact ended_join (List.getLast?_eq_some_getLast some) (echoes.last _ (List.getLast?_eq_some_getLast some)) ending wanted

/-- A file with one line ending, cut at a region that it has. -/
theorem content_eq (uniform : Lf content ∨ Crlf content) (fits : r.fits (pieces content).length = true) :
    content = ((pieces content).take (r.start - 1)).flatten ++
      (withEndings (lineEnding content) (decide (r.stop < (pieces content).length ∨ endsInNewline content = true))
        (r.select (lines content))).flatten ++ ((pieces content).drop r.stop).flatten := by
  obtain ⟨first, order, last⟩ := Region.fits_iff.mp fits
  have inside : r.stop - 1 < (pieces content).length := by omega
  have cut := Region.cut fits
  have pieced : Pieced (r.select (pieces content)) := by
    have whole := pieced_pieces content
    rw [cut] at whole
    exact whole.of_append.1.of_append.2.1
  have ends : endsInNewline (r.select (pieces content)).flatten =
      decide (r.stop < (pieces content).length ∨ endsInNewline content = true) := by
    obtain ⟨before, same⟩ := Region.select_concat fits inside
    have closed := endsInNewline_piece content inside
    rw [Nat.sub_add_cancel (Nat.le_trans first order)] at closed
    rw [same, endsInNewline_flatten before (ne_nil_of_mem_pieces (List.getElem_mem inside)), closed]
  have lines_eq : r.select (lines content) = (r.select (pieces content)).map unterminated := by
    rw [Region.select, Region.select, lines, List.map_take, List.map_drop]
  have spelled := pieced.eq_withEndings (lineEnding content) fun piece member =>
    piece_eq uniform piece (Region.mem_of_mem_select member)
  rw [ends, ← lines_eq] at spelled
  rw [← spelled, ← List.flatten_append, ← List.flatten_append, ← cut, flatten_pieces]

/-- The last line of a region is not empty if the file does not have its line ending. -/
theorem select_loose (fits : r.fits (pieces content).length = true)
    (loose : decide (r.stop < (pieces content).length ∨ endsInNewline content = true) = false) :
    ∀ line, (r.select (lines content)).getLast? = some line → line ≠ [] := by
  obtain ⟨first, order, last⟩ := Region.fits_iff.mp fits
  simp only [decide_eq_false_iff_not, not_or, Bool.not_eq_true] at loose
  intro line found
  have rest : r.select (lines content) = (lines content).drop (r.start - 1) := by
    rw [Region.select, List.take_of_length_le]
    rw [List.length_drop, length_lines, Region.size]
    omega
  rw [rest, List.getLast?_drop] at found
  split at found
  · cases found
  · exact getLast?_lines loose.2 line found

/-- An answer that repeats the lines of a region changes nothing if they echo, and only then. -/
theorem spliceChars_echo_iff (uniform : Lf content ∨ Crlf content) (fits : r.fits (pieces content).length = true) :
    spliceChars content (.region r) (join ['\n'] (r.select (lines content))) = .ok content ↔
      Echoes (r.select (lines content)) := by
  have some : r.select (lines content) ≠ [] := by
    rw [← length_lines] at fits
    have := Region.fits_iff.mp fits
    obtain ⟨before, same⟩ := Region.select_concat fits (by omega)
    simp [same]
  have free : ∀ line ∈ r.select (lines content), '\n' ∉ line := fun line inside =>
    newline_not_mem_lines line (Region.mem_of_mem_select inside)
  rw [← ended_echo_iff (isEnding_lineEnding content) some free (select_loose fits), spliceChars_region fits,
    Except.ok.injEq]
  conv_lhs => rhs; rw [content_eq uniform fits]
  rw [List.append_cancel_right_eq, List.append_cancel_left_eq]

/-- What is replaced for a window that shows a region of a file is the region. -/
theorem spliceChars_editTarget (fits : r.fits (pieces content).length = true) (code : List Char) :
    spliceChars content (Window.ofRegion (lines content) r).editTarget code = spliceChars content (.region r) code := by
  unfold Window.editTarget
  by_cases whole : (Window.ofRegion (lines content) r).wholeFile = true
  · have some : content ≠ [] := by
      rintro rfl
      obtain ⟨first, order, last⟩ := Region.fits_iff.mp fits
      rw [pieces_nil, List.length_nil] at last
      omega
    have all : r = ⟨1, (pieces content).length⟩ := by
      simp only [Window.ofRegion, Region.isWhole, length_lines, Bool.and_eq_true, decide_eq_true_eq] at whole
      obtain ⟨start, stop⟩ := whole
      rw [← start, ← stop]
    rw [if_pos whole, spliceChars_wholeFile some, ← all]
  · rw [if_neg whole]
    rfl

end Edit

namespace FixContext

/-- An answer that repeats what a window shows of a file with one line ending leaves the file as it is if the last line that
is shown is not empty and no other one ends in a carriage return, and only then. -/
theorem splice_echo_iff (d : Defect) (radius : Nat) (content : String)
    (uniform : Lf content.toList ∨ Crlf content.toList) :
    Edit.splice content (windowOf d radius (lines content.toList)).editTarget
        (windowOf d radius (lines content.toList)).text = .ok content ↔
      Echoes ((windowOf d radius (lines content.toList)).region.select (lines content.toList)) := by
  obtain ⟨region, ⟨inside, -⟩, shown⟩ := windowOf_showable d radius (lines content.toList)
  have chars : ∀ target code, Edit.splice content target code = .ok content ↔
      Edit.spliceChars content.toList target code.toList = .ok content.toList := by
    intro target code
    unfold Edit.splice
    cases Edit.spliceChars content.toList target code.toList with
    | error e => simp [Except.map]
    | ok text =>
      simp only [Except.map, Except.ok.injEq]
      constructor
      · intro same
        rw [← same, String.toList_ofList]
      · intro same
        rw [same, String.ofList_toList]
  rw [shown, chars, Window.ofRegion, String.toList_ofList]
  rcases inside with fits | ⟨rfl, none⟩
  · rw [length_lines] at fits
    have target := Edit.spliceChars_editTarget fits (join ['\n'] (region.select (lines content.toList)))
    rw [Window.ofRegion] at target
    rw [target]
    exact Edit.spliceChars_echo_iff uniform fits
  · rw [length_lines, List.length_eq_zero_iff, pieces_eq_nil] at none
    rw [none]
    constructor
    · intro _
      exact echoes_nil
    · intro _
      rfl

/-- A defect in the first line of a file. -/
def defectInFirstLine : Defect := .new .typeCheck .high (some "a.py") (some 1) "wrong" .epoch

/-- Of two lines the first is shown, and the answer that repeats it changes nothing. -/
theorem shown_line_echoes : Lf "a\nb\n".toList ∧
    Edit.splice "a\nb\n" (windowOf defectInFirstLine 0 (lines "a\nb\n".toList)).editTarget
      (windowOf defectInFirstLine 0 (lines "a\nb\n".toList)).text = .ok "a\nb\n" := by
  have lf : Lf "a\nb\n".toList := lf_of_not_mem (by decide)
  refine ⟨lf, (splice_echo_iff defectInFirstLine 0 "a\nb\n" (.inl lf)).mpr ?_⟩
  have shown : (windowOf defectInFirstLine 0 (lines "a\nb\n".toList)).region.select (lines "a\nb\n".toList) = [['a']] := by
    decide +kernel
  rw [shown, echoes_singleton]
  exact List.cons_ne_nil 'a' []

/-- Of three lines the first two are shown, and the answer that repeats them takes the second away, which is empty. -/
theorem shown_empty_line_is_lost : Lf "a\n\nb\n".toList ∧
    Edit.splice "a\n\nb\n" (windowOf defectInFirstLine 1 (lines "a\n\nb\n".toList)).editTarget
      (windowOf defectInFirstLine 1 (lines "a\n\nb\n".toList)).text = .ok "a\nb\n" ∧ "a\nb\n" ≠ "a\n\nb\n" :=
  ⟨lf_of_not_mem (by decide), by decide +kernel, by decide⟩

end FixContext

end GatedRepair
