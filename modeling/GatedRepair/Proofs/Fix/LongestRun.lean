import GatedRepair.Proofs.Fix.Extraction
import Mathlib.Data.List.Induction

/-!
# The longest run of code

Without code between fences the search for code goes through the lines of a response once. It finds the first of the stretches
of lines that hold the most code (`code?_of_unfenced`), although it knows only the run that it is in and the best one so far. What
carries that is how far back lines can reach that end with the last one that was read (`Run.reach`).
-/

namespace GatedRepair.Extraction

open Text

/-- The lines of a response but those of a label. -/
def considered (response : List Char) : List (List Char) := (lines response).filter (!approachLine.matches? ·)

/-- How many lines look like code. -/
def codeLines (segment : List (List Char)) : Nat := segment.countP looksLikeCode

/-- Lines that begin with code, and hold nothing but code and blank lines. -/
structure Opening (segment : List (List Char)) : Prop where
  begins : ∃ line, segment.head? = some line ∧ looksLikeCode line = true
  only : ∀ line ∈ segment, looksLikeCode line = true ∨ allBlank line = true

/-- Lines that begin and end with code, and hold nothing but code and blank lines. -/
structure Stretch (segment : List (List Char)) : Prop extends Opening segment where
  ends : ∃ line, segment.getLast? = some line ∧ looksLikeCode line = true

/-- The lines between two others are a stretch. None holds more code, and none that holds as much begins earlier. -/
structure FirstLongest (lines front segment back : List (List Char)) : Prop where
  cut : lines = front ++ (segment ++ back)
  stretch : Stretch segment
  most : ∀ front' segment' back', lines = front' ++ (segment' ++ back') → Stretch segment' → codeLines segment' ≤ codeLines segment
  first : ∀ front' segment' back', lines = front' ++ (segment' ++ back') → Stretch segment' →
    codeLines segment' = codeLines segment → front.length ≤ front'.length

/-! ## One line more -/

section
variable {lines front segment back : List (List Char)} {line : List Char}

theorem Opening.ne_nil (opening : Opening segment) : segment ≠ [] := by
  rintro rfl
  obtain ⟨line, none, -⟩ := opening.begins
  cases none

theorem Opening.exists_code (opening : Opening segment) : ∃ line ∈ segment, looksLikeCode line = true := by
  obtain ⟨line, head, code⟩ := opening.begins
  exact ⟨line, List.mem_of_head? head, code⟩

theorem Opening.of_concat (opening : Opening (segment ++ [line])) (some : segment ≠ []) : Opening segment := by
  refine ⟨?_, fun other inside => opening.only other (List.mem_append_left _ inside)⟩
  obtain ⟨first, head, code⟩ := opening.begins
  rw [List.head?_append_of_ne_nil _ some] at head
  exact ⟨first, head, code⟩

theorem Opening.concat (opening : Opening segment) (fits : looksLikeCode line = true ∨ allBlank line = true) :
    Opening (segment ++ [line]) := by
  refine ⟨?_, fun other inside => ?_⟩
  · obtain ⟨first, head, code⟩ := opening.begins
    exact ⟨first, by rw [List.head?_append_of_ne_nil _ opening.ne_nil, head], code⟩
  · rcases List.mem_append.mp inside with earlier | last
    · exact opening.only other earlier
    · obtain rfl := List.mem_singleton.mp last
      exact fits

theorem opening_singleton (code : looksLikeCode line = true) : Opening [line] :=
  ⟨⟨line, rfl, code⟩, fun _ inside => .inl (List.mem_singleton.mp inside ▸ code)⟩

theorem cut_last {front' segment' : List (List Char)} (cut : lines ++ [line] = front' ++ segment') (some : segment' ≠ []) :
    ∃ earlier, segment' = earlier ++ [line] ∧ lines = front' ++ earlier := by
  obtain ⟨earlier, last, rfl⟩ := (List.eq_nil_or_concat' segment').resolve_left some
  rw [← List.append_assoc] at cut
  obtain ⟨same, last_same⟩ := List.append_inj' cut rfl
  obtain rfl : line = last := by simpa using last_same
  exact ⟨earlier, rfl, same⟩

theorem cut_concat {front' segment' back' : List (List Char)} (cut : lines ++ [line] = front' ++ (segment' ++ back')) :
    lines ++ [line] = front' ++ segment' ∨ ∃ later, lines = front' ++ (segment' ++ later) := by
  rcases List.eq_nil_or_concat' back' with rfl | ⟨later, last, rfl⟩
  · exact .inl (by simpa using cut)
  · rw [← List.append_assoc, ← List.append_assoc] at cut
    obtain ⟨same, -⟩ := List.append_inj' cut rfl
    exact .inr ⟨later, by rw [same, List.append_assoc]⟩

theorem Stretch.not_at_end (stretch : Stretch segment) (other : looksLikeCode line = false) (cut : lines ++ [line] = front ++ segment) :
    False := by
  obtain ⟨earlier, rfl, -⟩ := cut_last cut stretch.ne_nil
  obtain ⟨last, same, code⟩ := stretch.ends
  rw [List.getLast?_concat] at same
  rw [Option.some.inj same, code] at other
  cases other

/-- The first longest stretch stays so with one line more, if no stretch that ends with that line is longer or as long and
earlier. -/
theorem FirstLongest.concat (longest : FirstLongest lines front segment back)
    (last : ∀ front' segment', lines ++ [line] = front' ++ segment' → Stretch segment' →
      codeLines segment' ≤ codeLines segment ∧ front.length ≤ front'.length) :
    FirstLongest (lines ++ [line]) front segment (back ++ [line]) where
  cut := by rw [longest.cut]; simp
  stretch := longest.stretch
  most front' segment' back' cut stretch := by
    rcases cut_concat cut with ends | ⟨later, before⟩
    · exact (last front' segment' ends stretch).1
    · exact longest.most front' segment' later before stretch
  first front' segment' back' cut stretch same := by
    rcases cut_concat cut with ends | ⟨later, before⟩
    · exact (last front' segment' ends stretch).2
    · exact longest.first front' segment' later before stretch same

/-! ## The run at the end -/

/-- The run in which the last line stands, if it stands in one. -/
structure Run (lines front segment : List (List Char)) : Prop where
  cut : lines = front ++ segment
  opening : segment = [] ∨ Opening segment
  /-- Opening lines that end with the last line begin in the run. -/
  reach : ∀ front' segment', lines = front' ++ segment' → Opening segment' → front.length ≤ front'.length

/-- Opening lines that end with the last line hold no more code than the run. -/
theorem Run.bounds (run : Run lines front segment) {front' segment' : List (List Char)} (cut : lines = front' ++ segment')
    (opening : Opening segment') : codeLines segment' ≤ codeLines segment := by
  have inside : segment' <:+ segment := by
    refine List.suffix_of_suffix_length_le ⟨front', cut.symm⟩ ⟨front, run.cut.symm⟩ ?_
    have near := run.reach front' segment' cut opening
    have lengths := congrArg List.length (cut.symm.trans run.cut)
    simp only [List.length_append] at lengths
    omega
  exact inside.sublist.countP_le

/-- A line of code belongs to the run. -/
theorem Run.code (run : Run lines front segment) (code : looksLikeCode line = true) :
    Run (lines ++ [line]) front (segment ++ [line]) where
  cut := by rw [run.cut, List.append_assoc]
  opening := by
    right
    rcases run.opening with rfl | opening
    · exact opening_singleton code
    · exact opening.concat (.inl code)
  reach front' segment' cut opening := by
    obtain ⟨earlier, rfl, before⟩ := cut_last cut opening.ne_nil
    by_cases alone : earlier = []
    · rw [alone, List.append_nil] at before
      simp [← before, run.cut]
    · exact run.reach front' earlier before (opening.of_concat alone)

/-- Opening lines that end with a blank one were opening before it. -/
theorem Opening.before_blank (opening : Opening segment) (other : looksLikeCode line = false) (cut : lines ++ [line] = front ++ segment) :
    ∃ earlier, lines = front ++ earlier ∧ Opening earlier := by
  obtain ⟨earlier, rfl, before⟩ := cut_last cut opening.ne_nil
  refine ⟨earlier, before, opening.of_concat ?_⟩
  rintro rfl
  obtain ⟨first, head, code⟩ := opening.begins
  obtain rfl : line = first := by simpa using head
  rw [code] at other
  cases other

theorem Run.blank (run : Run lines front segment) (some : segment ≠ []) (other : looksLikeCode line = false)
    (blank : allBlank line = true) : Run (lines ++ [line]) front (segment ++ [line]) where
  cut := by rw [run.cut, List.append_assoc]
  opening := .inr ((run.opening.resolve_left some).concat (.inr blank))
  reach front' segment' cut opening := by
    obtain ⟨earlier, before, opening⟩ := opening.before_blank other cut
    exact run.reach front' earlier before opening

/-- A blank line begins no run. -/
theorem Run.none (run : Run lines front []) (other : looksLikeCode line = false) : Run (lines ++ [line]) (lines ++ [line]) [] where
  cut := by simp
  opening := .inl rfl
  reach front' segment' cut opening := by
    obtain ⟨earlier, before, opening⟩ := opening.before_blank other cut
    have near := run.reach front' earlier before opening
    have present := List.length_pos_iff.mpr opening.ne_nil
    have lengths := congrArg List.length (before.symm.trans run.cut)
    simp only [List.length_append, List.length_nil] at lengths
    omega

/-- A line that is neither code nor blank stands in no run. -/
theorem run_prose (other : looksLikeCode line = false) (full : allBlank line = false) : Run (lines ++ [line]) (lines ++ [line]) [] where
  cut := by simp
  opening := .inl rfl
  reach front' segment' cut opening := by
    obtain ⟨earlier, rfl, -⟩ := cut_last cut opening.ne_nil
    rcases opening.only line (by simp) with code | blank
    · rw [code] at other
      cases other
    · rw [blank] at full
      cases full

/-- A run that has become longer than all stretches before its last line is the first longest. -/
theorem Run.firstLongest (run : Run (lines ++ [line]) front segment) (stretch : Stretch segment)
    (longer : ∀ front' segment' back', lines = front' ++ (segment' ++ back') → Stretch segment' →
      codeLines segment' < codeLines segment) : FirstLongest (lines ++ [line]) front segment [] where
  cut := by rw [List.append_nil, run.cut]
  stretch := stretch
  most front' segment' back' cut stretch' := by
    rcases cut_concat cut with ends | ⟨later, before⟩
    · exact run.bounds ends stretch'.toOpening
    · exact (longer front' segment' later before stretch').le
  first front' segment' back' cut stretch' same := by
    rcases cut_concat cut with ends | ⟨later, before⟩
    · exact run.reach front' segment' ends stretch'.toOpening
    · exact absurd same (longer front' segment' later before stretch').ne

end

/-! ## The search -/

/-- What a search knows after some lines. The best run begins no later than the last one. -/
structure RunSearch.Knows (lines front : List (List Char)) (search : RunSearch) : Prop where
  run : Run lines front search.current.back.reverse
  count : search.current.count = codeLines search.current.back.reverse
  none : search.best = none → ∀ line ∈ lines, looksLikeCode line = false
  some : ∀ best, search.best = some best → best.count = codeLines best.back.reverse ∧
    ∃ before after, FirstLongest lines before best.back.reverse after ∧ before.length ≤ front.length

namespace RunSearch

variable {search : RunSearch} {lines front : List (List Char)} {line : List Char}

theorem knows_start : start.Knows [] [] where
  run := ⟨rfl, .inl rfl, fun _ _ _ _ => Nat.zero_le _⟩
  count := rfl
  none _ := by simp
  some _ impossible := by cases impossible

/-- After a line that is no code the best run is the same. -/
theorem Knows.other (knows : search.Knows lines front) (other : looksLikeCode line = false) {current : CodeRun}
    {front' : List (List Char)} (further : front.length ≤ front'.length)
    (run : Run (lines ++ [line]) front' current.back.reverse) (count : current.count = codeLines current.back.reverse) :
    Knows (lines ++ [line]) front' ⟨current, search.best⟩ where
  run := run
  count := count
  none nothing other' inside := by
    rcases List.mem_append.mp inside with earlier | last
    · exact knows.none nothing other' earlier
    · rw [List.mem_singleton.mp last]
      exact other
  some best found := by
    obtain ⟨counted, before, after, longest, near⟩ := knows.some best found
    have same := longest.concat fun front' segment' cut stretch => (stretch.not_at_end other cut).elim
    exact ⟨counted, before, after ++ [line], same, Nat.le_trans near further⟩

/-- A line of code makes the run longer, and the run becomes the best one if it is longer than that. -/
theorem Knows.code (knows : search.Knows lines front) (code : looksLikeCode line = true) :
    (search.step line).Knows (lines ++ [line]) front := by
  have backwards : (line :: search.current.back).reverse = search.current.back.reverse ++ [line] := List.reverse_cons
  have run : Run (lines ++ [line]) front (line :: search.current.back).reverse := backwards ▸ knows.run.code code
  have opening := run.opening.resolve_left (by simp)
  have stretch : Stretch (line :: search.current.back).reverse :=
    ⟨opening, line, by rw [backwards, List.getLast?_concat], code⟩
  have count : search.current.count + 1 = codeLines (line :: search.current.back).reverse := by
    rw [backwards, codeLines, List.countP_append, ← codeLines, ← knows.count, List.countP_singleton, if_pos code]
  unfold step
  rw [if_pos code]
  refine ⟨run, count, fun nothing => ?_, fun best found => ?_⟩
  · simp only at nothing
    split at nothing
    · cases nothing
    · next longer =>
      rw [nothing] at longer
      exact absurd rfl longer
  · simp only at found
    split at found
    · next longer =>
      obtain rfl := Option.some.inj found
      refine ⟨count, front, [], run.firstLongest stretch fun front' segment' back' cut stretch' => ?_, Nat.le_refl _⟩
      cases best : search.best with
      | none =>
        obtain ⟨other, inside, looks⟩ := stretch'.exists_code
        have nowhere := knows.none best other (by simp [cut, inside])
        rw [looks] at nowhere
        cases nowhere
      | some other =>
        obtain ⟨counted, before, after, longest, -⟩ := knows.some other best
        rw [best] at longer
        have shorter : other.count < search.current.count + 1 := by simpa using longer
        have most := longest.most front' segment' back' cut stretch'
        omega
    · next longer =>
      obtain ⟨counted, before, after, longest, near⟩ := knows.some best found
      rw [found] at longer
      have enough : search.current.count + 1 ≤ best.count := by simpa using longer
      refine ⟨counted, before, after ++ [line], longest.concat fun front' segment' cut stretch' => ⟨?_, ?_⟩, near⟩
      · have bounded := run.bounds cut stretch'.toOpening
        omega
      · exact near.trans (run.reach front' segment' cut stretch'.toOpening)

/-- A blank line is left out where no run has begun, and stays in a run. -/
theorem Knows.blank (knows : search.Knows lines front) (other : looksLikeCode line = false) (blank : allBlank line = true) :
    ∃ front, (search.step line).Knows (lines ++ [line]) front := by
  have further : front.length ≤ (lines ++ [line]).length := by simp [knows.run.cut]
  unfold step
  rw [if_neg (by simp [other]), if_pos blank]
  split
  · next empty =>
    have empty : search.current.back.reverse = [] := by simpa using empty
    have run := knows.run
    rw [empty] at run
    exact ⟨lines ++ [line], knows.other other further (empty ▸ run.none other) knows.count⟩
  · next some =>
    have some : search.current.back.reverse ≠ [] := by simpa using some
    have backwards : (line :: search.current.back).reverse = search.current.back.reverse ++ [line] := List.reverse_cons
    refine ⟨front, knows.other other (Nat.le_refl _) (backwards ▸ knows.run.blank some other blank) ?_⟩
    rw [backwards, codeLines, List.countP_append, ← codeLines, ← knows.count]
    simp [other]

theorem Knows.prose (knows : search.Knows lines front) (other : looksLikeCode line = false) (full : allBlank line = false) :
    (search.step line).Knows (lines ++ [line]) (lines ++ [line]) := by
  have further : front.length ≤ (lines ++ [line]).length := by simp [knows.run.cut]
  unfold step
  rw [if_neg (by simp [other]), if_neg (by simp [full])]
  exact knows.other other further (run_prose other full) rfl

/-- What a search knows after all lines. -/
theorem knows_foldl (lines : List (List Char)) : ∃ front, (lines.foldl step start).Knows lines front := by
  induction lines using List.reverseRecOn with
  | nil => exact ⟨[], knows_start⟩
  | append_singleton lines line ih =>
    obtain ⟨front, knows⟩ := ih
    rw [List.foldl_append, List.foldl_cons, List.foldl_nil]
    cases code : looksLikeCode line with
    | true => exact ⟨front, knows.code code⟩
    | false =>
      cases blank : allBlank line with
      | true => exact knows.blank code blank
      | false => exact ⟨lines ++ [line], knows.prose code blank⟩

end RunSearch

/-! ## Code without fences -/

/-- What stands between the fences of a response. -/
def bodies (response : List Char) : List (List Char) := (fence.findAll response).filterMap (·.group? "body")

theorem fenced?_eq (response : List Char) : fenced? response =
    (longest? (((bodies response).filter (!allBlank ·)).map String.ofList)).map fun body =>
      ⟨String.ofList (dropEndWhile isLineEnd body.toList), .fenced, fencedConfidence⟩ := rfl

theorem fenced?_eq_none {response : List Char} (unfenced : ∀ body ∈ bodies response, allBlank body = true) :
    fenced? response = none := by
  have nothing : (bodies response).filter (!allBlank ·) = [] := by
    refine List.filter_eq_nil_iff.mpr fun body inside => ?_
    simp [unfenced body inside]
  rw [fenced?_eq, nothing]
  rfl

theorem fenced?_of_single {response body : List Char} (single : bodies response = [body]) (full : allBlank body = false) :
    fenced? response = some ⟨String.ofList (dropEndWhile isLineEnd body), .fenced, fencedConfidence⟩ := by
  have kept : (bodies response).filter (!allBlank ·) = [body] := by rw [single, List.filter_singleton, full]; rfl
  have longest : longest? [String.ofList body] = some (String.ofList body) := rfl
  rw [fenced?_eq, kept, List.map_singleton, longest, Option.map_some, String.toList_ofList]

/-- Without code between fences the first of the stretches with the most lines of code is taken, and nothing just when no line
looks like code. -/
theorem code?_of_unfenced {response : String} (unfenced : ∀ body ∈ bodies response.toList, allBlank body = true) :
    (code? response = none ↔ ∀ line ∈ considered response.toList, looksLikeCode line = false) ∧
      ∀ found, code? response = some found → found.source = .heuristic ∧ Solid found.code.toList ∧
        ∃ front segment back, FirstLongest (considered response.toList) front segment back ∧
          found.code.toList = join ['\n'] segment := by
  obtain ⟨front, knows⟩ := RunSearch.knows_foldl (considered response.toList)
  have searched : code? response = heuristic? response.toList := by
    unfold code?
    rw [fenced?_eq_none unfenced]
  refine ⟨?_, fun found extracted => ?_⟩
  · rw [searched, heuristic?, Option.map_eq_none_iff]
    refine ⟨knows.none, fun none => ?_⟩
    cases best : ((considered response.toList).foldl RunSearch.step .start).best with
    | none => exact best
    | some run =>
      obtain ⟨-, before, after, longest, -⟩ := knows.some run best
      obtain ⟨line, inside, code⟩ := longest.stretch.exists_code
      have nowhere := none line (by simp [longest.cut, inside])
      rw [code] at nowhere
      cases nowhere
  · have solid := solid_of_code? extracted
    rw [searched] at extracted
    obtain ⟨run, best, rfl⟩ := Option.map_eq_some_iff.mp extracted
    obtain ⟨-, before, after, longest, -⟩ := knows.some run best
    exact ⟨rfl, solid, before, _, after, longest, String.toList_ofList⟩

/-- Of two runs with two lines of code each the first is taken. -/
theorem first_of_equal_runs_is_taken :
    let response := "APPROACH: tidy\nlet a = 1;\n\nlet b = 2;\nDone.\n\nreturn a;\nreturn b;\n"
    (∀ body ∈ bodies response.toList, allBlank body = true) ∧
      (code? response).map (·.code) = some "let a = 1;\n\nlet b = 2;" ∧
      ∃ front segment back, FirstLongest (considered response.toList) front segment back ∧
        "let a = 1;\n\nlet b = 2;".toList = join ['\n'] segment := by
  intro response
  have unfenced : ∀ body ∈ bodies response.toList, allBlank body = true := by decide +kernel
  have code : (code? response).map (·.code) = some "let a = 1;\n\nlet b = 2;" := by decide +kernel
  obtain ⟨found, extracted, same⟩ := Option.map_eq_some_iff.mp code
  obtain ⟨-, -, cut⟩ := (code?_of_unfenced unfenced).2 found extracted
  exact ⟨unfenced, code, same ▸ cut⟩

end GatedRepair.Extraction
