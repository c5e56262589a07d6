import GatedRepair.Fix.Consensus
import GatedRepair.Proofs.Fix.Announced
import GatedRepair.Proofs.Text.Lines
import Mathlib.Data.List.Basic
import Mathlib.Data.List.TakeWhile

/-!
# The line of the label

The pattern of a label is tried on a whole response for the label, and on single lines to keep them from being taken for code. Both
mean the same line as long as none before it runs on (`keepsToLines`): a line does that when its word or its colon is the last
thing on it but marks, because these may hold newlines. Behind such a colon the label is the next line that says something,
whatever that is.
-/

namespace GatedRepair.Extraction

open Text Pattern

/-- The label of the first match from a place on. -/
def labelFrom? (before : Option Char) (text : List Char) : Option (List Char) :=
  (approachLine.firstFrom? before text text.length).bind (·.group? "label")

/-- The line begins with the word, and a colon or a label is looked for on the lines after it. -/
def runsOn (line : List Char) (later : List (List Char)) : Bool :=
  match behindWord? line with
  | some [] => (later.flatten.dropWhile isEmphasis).head? == some ':'
  | some (':' :: behind) => behind.all isEmphasis
  | _ => false

/-- No line runs on, up to the first that holds a label. -/
def keepsToLines : List (List Char) → Bool
  | [] => true
  | line :: later => !runsOn line later && (approachLine.matches? line || keepsToLines later)

section
variable {text line ending rest behind marks label more : List Char} {before : Option Char}

theorem approach?_eq (response : String) : approach? response = (labelFrom? none response.toList).bind cleanLabel? := by
  unfold approach? labelFrom?
  rw [find?_eq, first?, Option.bind_assoc]

/-! ## One line -/

theorem labelFrom?_here (starts : StartsLine before) (found : labelAt? text = some label) : labelFrom? before text = some label := by
  obtain ⟨other, left, more, preferred⟩ := prefers_label starts found
  unfold labelFrom?
  rw [firstFrom?_of_prefers preferred, Option.bind_some, Found.group?_cons, if_pos rfl, List.take_left]

theorem firstFrom?_line (free : '\n' ∉ line) (absent : labelAt? line = none) :
    approachLine.firstFrom? before line line.length = none := by
  refine firstFrom?_eq_none fun early late split => ?_
  by_cases first : early = []
  · subst first
    rw [List.nil_append] at split
    exact ways_eq_nil (split ▸ absent)
  · exact ways_inside first fun newline => free (split ▸ List.mem_append_left _ newline)

/-- The pattern matches a line that begins with a label. -/
theorem matches?_line (free : '\n' ∉ line) : approachLine.matches? line = (labelAt? line).isSome := by
  unfold matches?
  rw [find?_eq, first?]
  cases found : labelAt? line with
  | none => rw [firstFrom?_line free found]; rfl
  | some label =>
    obtain ⟨other, left, more, preferred⟩ := prefers_label (.inl rfl) found
    rw [firstFrom?_of_prefers preferred]
    rfl

theorem labelFrom?_alone (starts : StartsLine before) (free : '\n' ∉ line) : labelFrom? before line = labelAt? line := by
  cases found : labelAt? line with
  | none => rw [labelFrom?, firstFrom?_line free found, Option.bind_none]
  | some label => exact labelFrom?_here starts found

/-- Without a label at the start of a line the search goes on with the next line. -/
theorem labelFrom?_later (free : '\n' ∉ line) (isEnding : IsEnding ending) (absent : labelAt? (line ++ (ending ++ rest)) = none) :
    labelFrom? before (line ++ (ending ++ rest)) = labelFrom? (some '\n') rest := by
  obtain ⟨front, front_free, closed⟩ := isEnding.closes free
  unfold labelFrom?
  rw [← List.append_assoc, closed] at absent ⊢
  rw [firstFrom?_append, List.getLast?_concat, Option.some_or]
  intro early late split some
  by_cases first : early = []
  · subst first
    rw [List.nil_append] at split
    exact ways_eq_nil (split ▸ absent)
  · obtain ⟨other, last, rfl⟩ := (List.eq_nil_or_concat' late).resolve_left some
    rw [← List.append_assoc] at split
    exact ways_inside first fun newline => front_free ((List.append_inj' split rfl).1 ▸ List.mem_append_left _ newline)

/-! ## A line and what follows it -/

theorem isEmphasis_of_ending (isEnding : IsEnding ending) : ∀ c ∈ ending, isEmphasis c = true := by
  rcases isEnding with rfl | rfl <;> exact List.all_eq_true.mp (by decide)

theorem isEmphasis_of_end (isEnding : IsEnding ending ∨ ending = [] ∧ rest = []) : ∀ c ∈ ending, isEmphasis c = true := by
  rcases isEnding with isEnding | ⟨rfl, -⟩
  · exact isEmphasis_of_ending isEnding
  · exact fun _ none => absurd none List.not_mem_nil

theorem isEmphasis_of_break (isEnding : IsEnding ending) : ∀ c, (ending ++ rest).head? = some c → isEmphasis c = true := by
  rcases isEnding with rfl | rfl <;>
    · rintro c ⟨⟩
      rfl

theorem behindWord?_append {c : Char} (found : behindWord? line = some (c :: behind)) :
    behindWord? (line ++ more) = some (c :: (behind ++ more)) := by
  obtain ⟨leads, word, gap, worded⟩ := exists_worded found
  have longer : Worded (line ++ more) leads word gap (c :: (behind ++ more)) :=
    ⟨by simp [worded.cut], worded.leads, worded.word, worded.gap, fun d head => worded.stops d head⟩
  exact longer.behindWord?

/-- Behind marks only the text behind the word is looked for in what follows. -/
theorem behindWord?_append_of_nil (found : behindWord? line = some []) :
    behindWord? (line ++ more) = some (more.dropWhile isEmphasis) := by
  obtain ⟨leads, word, gap, worded⟩ := exists_worded found
  have longer : Worded (line ++ more) leads word (gap ++ more.takeWhile isEmphasis) (more.dropWhile isEmphasis) := by
    refine ⟨by simp [worded.cut], worded.leads, worded.word, fun c inside => ?_, fun c head => ?_⟩
    · rcases List.mem_append.mp inside with early | late
      · exact worded.gap c early
      · exact List.all_eq_true.mp List.all_takeWhile c late
    · exact head?_dropWhile head
  exact longer.behindWord?

/-- The word does not begin on one line and end on another. -/
theorem behindWord?_append_of_none (absent : behindWord? line = none) (full : line.all isLead = false)
    (breaks : ∀ c, more.head? = some c → isEmphasis c = true) : behindWord? (line ++ more) = none := by
  cases found : behindWord? (line ++ more) with
  | none => rfl
  | some rest =>
    exfalso
    obtain ⟨leads, word, gap, worded⟩ := exists_worded found
    rcases List.append_eq_append_iff.mp worded.cut with ⟨between, same, -⟩ | ⟨between, same, behind⟩
    · have all : line.all isLead = true := by
        refine List.all_eq_true.mpr fun c inside => worded.leads c ?_
        rw [same]
        exact List.mem_append_left _ inside
      rw [all] at full
      cases full
    · rcases List.append_eq_append_iff.mp behind with ⟨letters, same', -⟩ | ⟨letters, same', follows⟩
      · -- The word ends on the line.
        have whole : Worded line leads word (letters.takeWhile isEmphasis) (letters.dropWhile isEmphasis) := by
          exact ⟨by simp [same, same'], worded.leads, worded.word, List.all_eq_true.mp List.all_takeWhile, fun c => head?_dropWhile⟩
        rw [whole.behindWord?] at absent
        cases absent
      · cases letters with
        | nil =>
          have whole : Worded line leads word [] [] := by
            refine ⟨by simp [same, same'], worded.leads, worded.word, by simp, by simp⟩
          rw [whole.behindWord?] at absent
          cases absent
        | cons c letters =>
          have letter := isLead_of_word worded.word c (by simp [same'])
          have mark := isLead_of_isEmphasis (breaks c (by simp [follows]))
          rw [mark] at letter
          cases letter

theorem behindWord?_marks (all : line.all isLead = true) : behindWord? (line ++ more) = behindWord? more := by
  unfold behindWord?
  rw [List.dropWhile_append_of_pos (List.all_eq_true.mp all)]

theorem exists_full (full : text.all isEmphasis = false) : ∃ c more, text.dropWhile isEmphasis = c :: more := by
  refine List.exists_cons_of_ne_nil fun nothing => ?_
  rw [List.all_eq_true.mpr (List.dropWhile_eq_nil_iff.mp nothing)] at full
  cases full

theorem dropWhile_append_full {c : Char} (body : text.dropWhile isEmphasis = c :: more) (rest : List Char) :
    (text ++ rest).dropWhile isEmphasis = c :: (more ++ rest) := by
  rw [List.dropWhile_append, body]
  rfl

theorem labelIn?_marks (marked : ∀ c ∈ marks, isEmphasis c = true) {c : Char} (full : text.dropWhile isEmphasis = c :: more) :
    labelIn? (marks ++ text) = labelIn? text := by
  have passed : (marks ++ text).dropWhile isEmphasis = text.dropWhile isEmphasis := List.dropWhile_append_of_pos marked
  unfold labelIn?
  rw [passed, full]

/-- The label on a line is what stands between its marks. -/
theorem labelIn?_line (free : '\n' ∉ line) (full : line.all isEmphasis = false)
    (isEnding : IsEnding ending ∨ ending = [] ∧ rest = []) :
    labelIn? (line ++ (ending ++ rest)) = some (dropEndWhile isEmphasis (line.dropWhile isEmphasis)) := by
  obtain ⟨c, more, body⟩ := exists_full full
  have onLine : ∀ d ∈ c :: more, inLine d = true := by
    intro d inside
    have member : d ∈ line := (List.dropWhile_suffix isEmphasis).subset (body ▸ inside)
    simpa [inLine] using ne_of_mem_of_not_mem member free
  have line_end : ∀ d ∈ (ending ++ rest).takeWhile inLine, isEmphasis d = true := by
    rcases isEnding with (rfl | rfl) | ⟨rfl, rfl⟩
    · exact List.forall_mem_singleton.mpr rfl
    · exact fun _ none => absurd none List.not_mem_nil
    · exact fun _ none => absurd none List.not_mem_nil
  unfold labelIn?
  rw [dropWhile_append_full body, body]
  simp only
  rw [← List.cons_append, List.takeWhile_append_of_pos onLine, dropEndWhile_append line_end]

/-- Where a line runs on behind its colon, the label is the next line that says something. -/
theorem labelIn?_lines {between later : List (List Char)} {next : List Char} (marked : ∀ c ∈ marks, isEmphasis c = true)
    (cut : lines text = between ++ next :: later) (silent : ∀ line ∈ between, line.all isEmphasis = true)
    (full : next.all isEmphasis = false) :
    labelIn? (marks ++ text) = some (dropEndWhile isEmphasis (next.dropWhile isEmphasis)) := by
  induction between generalizing marks text with
  | nil =>
    obtain ⟨ending, rest, rfl, free, -, isEnding⟩ := cut_lines_cons cut
    obtain ⟨c, more, body⟩ := exists_full full
    rw [labelIn?_marks marked (dropWhile_append_full body _), labelIn?_line free full isEnding]
  | cons line between ih =>
    obtain ⟨ending, rest, rfl, free, later_eq, isEnding⟩ := cut_lines_cons cut
    obtain ⟨blank, others⟩ := List.forall_mem_cons.mp silent
    have longer : ∀ c ∈ marks ++ (line ++ ending), isEmphasis c = true :=
      List.forall_mem_append.mpr ⟨marked, List.forall_mem_append.mpr ⟨List.all_eq_true.mp blank, isEmphasis_of_end isEnding⟩⟩
    simpa using ih longer later_eq others

/-- The first character that is no mark is the same without the line endings. -/
theorem head?_dropWhile_lines (text : List Char) :
    (text.dropWhile isEmphasis).head? = ((lines text).flatten.dropWhile isEmphasis).head? := by
  induction text using lines_induction with
  | nil => rfl
  | cons line ending rest free lines_eq isEnding ih =>
    rw [lines_eq, List.flatten_cons]
    by_cases all : ∀ c ∈ line, isEmphasis c = true
    · rw [List.dropWhile_append_of_pos all, List.dropWhile_append_of_pos all, ← ih]
      rcases isEnding with isEnding | ⟨rfl, rfl⟩
      · rw [List.dropWhile_append_of_pos (isEmphasis_of_ending isEnding)]
      · rfl
    · obtain ⟨c, more, body⟩ := List.exists_cons_of_ne_nil fun nothing => all (List.dropWhile_eq_nil_iff.mp nothing)
      rw [dropWhile_append_full body, dropWhile_append_full body]
      rfl

/-! ## All lines -/

/-- Behind a line that begins with no word the next one is looked at. -/
theorem labelAt?_of_none (isEnding : IsEnding ending) (absent : behindWord? line = none) :
    labelAt? (line ++ (ending ++ rest)) = none ∨ labelAt? (line ++ (ending ++ rest)) = labelAt? rest := by
  cases all : line.all isLead with
  | true =>
    right
    have marks : (line ++ ending).all isLead = true := by
      rw [List.all_append, all, Bool.true_and, List.all_eq_true]
      exact fun c inside => isLead_of_isEmphasis (isEmphasis_of_ending isEnding c inside)
    unfold labelAt?
    rw [← List.append_assoc, behindWord?_marks marks]
  | false =>
    left
    unfold labelAt?
    rw [behindWord?_append_of_none absent all (isEmphasis_of_break isEnding)]

/-- Behind a line without a label that does not run on the next one is looked at. -/
theorem labelAt?_of_whole (isEnding : IsEnding ending) (whole : runsOn line (lines rest) = false)
    (absent : labelAt? line = none) :
    labelAt? (line ++ (ending ++ rest)) = none ∨ labelAt? (line ++ (ending ++ rest)) = labelAt? rest := by
  cases found : behindWord? line with
  | none => exact labelAt?_of_none isEnding found
  | some behind =>
    left
    unfold runsOn at whole
    unfold labelAt? at absent ⊢
    rw [found] at whole absent
    cases behind with
    | nil =>
      have other : (rest.dropWhile isEmphasis).head? ≠ some ':' := by
        rw [head?_dropWhile_lines]
        simpa using whole
      rw [behindWord?_append_of_nil found, List.dropWhile_append_of_pos (isEmphasis_of_ending isEnding)]
      split
      · next same => exact absurd (congrArg List.head? (Option.some.inj same)) other
      · rfl
    | cons c behind =>
      rw [behindWord?_append found]
      by_cases colon : c = ':'
      · subst colon
        -- Behind the colon stands a label, or the line runs on.
        have newlines := newlines_of_labelIn? absent
        have marks : behind.all isEmphasis = true :=
          List.all_eq_true.mpr fun d inside => isEmphasis_of_not_inLine (newlines d inside)
        simp [marks] at whole
      · split
        · next same => exact absurd (List.cons.inj (Option.some.inj same)).1 colon
        · rfl

/-- The label of a line that does not run on is that of the text from there on. -/
theorem labelAt?_here (free : '\n' ∉ line) (isEnding : IsEnding ending ∨ ending = [] ∧ rest = [])
    (whole : runsOn line (lines rest) = false) (found : labelAt? line = some label) :
    labelAt? (line ++ (ending ++ rest)) = some label := by
  unfold labelAt? at found
  split at found
  · next behind word =>
    unfold runsOn at whole
    rw [word] at whole
    have inside : '\n' ∉ behind := by
      obtain ⟨leads, word, gap, worded⟩ := exists_worded word
      intro member
      exact free (by rw [worded.cut]; simp [member])
    have alone := @labelIn?_line behind [] [] inside whole (.inr ⟨rfl, rfl⟩)
    rw [List.append_nil, List.append_nil, found] at alone
    unfold labelAt?
    rw [behindWord?_append word]
    exact (labelIn?_line inside whole isEnding).trans alone.symm
  · cases found

/-- Where the text from a line on begins with no label of its own, the search goes on with the next line. -/
theorem labelFrom?_next (starts : StartsLine before) (free : '\n' ∉ line) (isEnding : IsEnding ending)
    (next : labelAt? (line ++ (ending ++ rest)) = none ∨ labelAt? (line ++ (ending ++ rest)) = labelAt? rest) :
    labelFrom? before (line ++ (ending ++ rest)) = labelFrom? (some '\n') rest := by
  cases found : labelAt? (line ++ (ending ++ rest)) with
  | none => exact labelFrom?_later free isEnding found
  | some label =>
    rcases next with none | same
    · rw [found] at none
      cases none
    · rw [labelFrom?_here starts found, labelFrom?_here (.inr rfl) (same ▸ found)]

/-- The first label is that of the first line with one, if no line runs on before it. -/
theorem labelFrom?_lines (text : List Char) (starts : StartsLine before) (kept : keepsToLines (lines text) = true) :
    labelFrom? before text = ((lines text).find? approachLine.matches?).bind labelAt? := by
  induction text using lines_induction generalizing before with
  | nil => exact labelFrom?_alone starts List.not_mem_nil
  | cons line ending rest free lines_eq isEnding ih =>
    rw [lines_eq] at kept ⊢
    obtain ⟨whole, kept⟩ := Bool.and_eq_true_iff.mp kept
    have whole : runsOn line (lines rest) = false := by simpa using whole
    rw [matches?_line free] at kept
    cases found : labelAt? line with
    | some label =>
      have matched : approachLine.matches? line = true := by rw [matches?_line free, found]; rfl
      rw [labelFrom?_here starts (labelAt?_here free isEnding whole found), List.find?_cons_of_pos matched, Option.bind_some, found]
    | none =>
      have unmatched : ¬ approachLine.matches? line = true := by simp [matches?_line free, found]
      have later : keepsToLines (lines rest) = true := by simpa [found] using kept
      rw [List.find?_cons_of_neg unmatched]
      rcases isEnding with isEnding | ⟨rfl, rfl⟩
      · rw [labelFrom?_next starts free isEnding (labelAt?_of_whole isEnding whole found), ih (.inr rfl) later]
      · rw [List.append_nil, List.append_nil, labelFrom?_alone starts free, found]
        rfl

/-- A line that runs on behind its colon gives the next line that says something for its label. -/
theorem labelFrom?_runs_on {earlier between later : List (List Char)} {next : List Char} (starts : StartsLine before)
    (cut : lines text = earlier ++ line :: (between ++ next :: later)) (early : ∀ other ∈ earlier, behindWord? other = none)
    (colon : behindWord? line = some (':' :: marks)) (marked : marks.all isEmphasis = true)
    (silent : ∀ other ∈ between, other.all isEmphasis = true) (full : next.all isEmphasis = false) :
    labelFrom? before text = some (dropEndWhile isEmphasis (next.dropWhile isEmphasis)) := by
  induction earlier generalizing text before with
  | nil =>
    obtain ⟨ending, rest, rfl, -, later_eq, isEnding⟩ := cut_lines_cons cut
    have longer : ∀ c ∈ marks ++ ending, isEmphasis c = true :=
      List.forall_mem_append.mpr ⟨List.all_eq_true.mp marked, isEmphasis_of_end isEnding⟩
    refine labelFrom?_here starts ?_
    unfold labelAt?
    rw [behindWord?_append colon, ← List.append_assoc]
    exact labelIn?_lines longer later_eq silent full
  | cons other earlier ih =>
    obtain ⟨ending, rest, rfl, free, later_eq, isEnding⟩ := cut_lines_cons cut
    obtain ⟨absent, others⟩ := List.forall_mem_cons.mp early
    rcases isEnding with isEnding | ⟨rfl, rfl⟩
    · rw [labelFrom?_next starts free isEnding (labelAt?_of_none isEnding absent), ih (.inr rfl) later_eq others]
    · cases earlier <;> cases later_eq

/-- The label of a response is that of its first line that holds one, if no line runs on before that. Where a line runs on behind
its colon, the label is the next line that says something. -/
theorem approach?_unless_line_runs_on (response : String) :
    (keepsToLines (lines response.toList) = true → approach? response =
      ((lines response.toList).find? approachLine.matches?).bind fun line => approach? (String.ofList line)) ∧
    ∀ earlier line marks between next later, lines response.toList = earlier ++ line :: (between ++ next :: later) →
      (∀ other ∈ earlier, behindWord? other = none) → behindWord? line = some (':' :: marks) → marks.all isEmphasis = true →
      (∀ other ∈ between, other.all isEmphasis = true) → next.all isEmphasis = false →
      approach? response = cleanLabel? (dropEndWhile isEmphasis (next.dropWhile isEmphasis)) := by
  refine ⟨fun kept => ?_, fun earlier line marks between next later cut early colon marked silent full => ?_⟩
  · rw [approach?_eq, labelFrom?_lines response.toList (.inl rfl) kept]
    cases found : (lines response.toList).find? approachLine.matches? with
    | none => rfl
    | some line =>
      have free := newline_not_mem_lines line (List.mem_of_find?_eq_some found)
      rw [Option.bind_some, Option.bind_some, approach?_eq, String.toList_ofList, labelFrom?_alone (.inl rfl) free]
  · rw [approach?_eq, labelFrom?_runs_on (.inl rfl) cut early colon marked silent full, Option.bind_some]

/-- A heading with the word is passed over. Behind an empty label the fence is taken for one. -/
theorem heading_is_passed_over :
    let heading := "# Approach\n\nApproach: **Early return**\nfoo\n"
    let empty := "APPROACH: *\n\n```js\nlet x = 1;\n```\n"
    keepsToLines (lines heading.toList) = true ∧ approach? heading = some "early return" ∧
      approach? heading =
        ((lines heading.toList).find? approachLine.matches?).bind (fun line => approach? (String.ofList line)) ∧
      approach? empty = some "```js" := by
  intro heading empty
  have kept : keepsToLines (lines heading.toList) = true := by decide +kernel
  have cut : lines empty.toList =
      [] ++ "APPROACH: *".toList :: ([[]] ++ "```js".toList :: ["let x = 1;".toList, "```".toList]) := by decide +kernel
  have colon : behindWord? "APPROACH: *".toList = some (':' :: [' ', '*']) := by decide +kernel
  refine ⟨kept, by decide +kernel, (approach?_unless_line_runs_on heading).1 kept, ?_⟩
  rw [(approach?_unless_line_runs_on empty).2 _ _ _ _ _ _ cut (by simp) colon (by decide) (by decide) (by decide)]
  decide +kernel

/-- Behind an empty label the label is the line of the fence, although no line matches by itself. -/
theorem fence_is_taken_for_label :
    let response := "APPROACH:\n```js\nlet x = 1;\n```\n"
    (∀ line ∈ lines response.toList, approachLine.matches? line = false) ∧
      ¬ (approach? response =
        ((lines response.toList).find? approachLine.matches?).bind fun line => approach? (String.ofList line)) ∧
      ∀ strategy, (Candidate.ofResponse strategy (.ok response)).approach = "```js" := by
  intro response
  have nowhere : ∀ line ∈ lines response.toList, approachLine.matches? line = false := by decide +kernel
  have taken : approach? response = some "```js" := by decide +kernel
  refine ⟨nowhere, ?_, fun strategy => ?_⟩
  · have none : (lines response.toList).find? approachLine.matches? = none :=
      List.find?_eq_none.mpr fun line inside => by simp [nowhere line inside]
    rw [taken, none]
    simp
  · unfold Candidate.ofResponse
    simp only [taken, Option.getD_some]

end

end GatedRepair.Extraction
