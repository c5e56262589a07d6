import GatedRepair.Fix.Proposal
import GatedRepair.Proofs.Number.Shortest
import GatedRepair.Proofs.Text.Lines

/-!
# Code and confidence

Code that is found in a response is neither blank nor left with a newline at its end (`solid_of_code?`), and the confidence in
it lies between 0.55 and 0.88 (`selected_spec`).
-/

/-!
## The confidence of candidates

The confidence in code from a response lies between 0.55 and 0.88, so a document gives it back as it was. A candidate that
is selected has such a confidence, and agrees with no more candidates than there are strategies (`selected_spec`).
-/

namespace GatedRepair

open Number Text

namespace Extraction

/-! ### Lines of code -/

theorem not_allBlank_of_looksLikeCode {line : List Char} (code : looksLikeCode line = true) : allBlank line = false := by
  by_contra blank
  have nothing : trim line = [] := by
    have start : trimStart line = [] := trimStart_eq_nil_iff.mpr (by simpa using blank)
    rw [trim, start]
    rfl
  unfold looksLikeCode at code
  simp [nothing] at code

/-- How many lines of a list are not blank. -/
def spoken (lines : List (List Char)) : Nat := (lines.filter (!allBlank ·)).length

/-- No run has more lines of code than a number. -/
def RunSearch.AtMost (n : Nat) (search : RunSearch) : Prop :=
  search.current.count ≤ n ∧ ∀ run, search.best = some run → run.count ≤ n

theorem RunSearch.AtMost.step {n : Nat} {search : RunSearch} (atMost : search.AtMost n) (line : List Char) :
    (search.step line).AtMost (n + spoken [line]) := by
  obtain ⟨current, best⟩ := atMost
  unfold RunSearch.step
  split
  · next code =>
    have one : spoken [line] = 1 := by simp [spoken, not_allBlank_of_looksLikeCode code]
    rw [one]
    refine ⟨Nat.succ_le_succ current, fun run chosen => ?_⟩
    simp only at chosen
    split at chosen
    · obtain rfl := Option.some.inj chosen
      exact Nat.succ_le_succ current
    · exact Nat.le_succ_of_le (best run chosen)
  · split
    · split
      · exact ⟨Nat.le_add_right_of_le current, fun run chosen => Nat.le_add_right_of_le (best run chosen)⟩
      · exact ⟨Nat.le_add_right_of_le current, fun run chosen => Nat.le_add_right_of_le (best run chosen)⟩
    · exact ⟨Nat.zero_le _, fun run chosen => Nat.le_add_right_of_le (best run chosen)⟩

theorem RunSearch.AtMost.foldl {n : Nat} {search : RunSearch} (atMost : search.AtMost n) (lines : List (List Char)) :
    (lines.foldl RunSearch.step search).AtMost (n + spoken lines) := by
  induction lines generalizing n search with
  | nil => exact atMost
  | cons line more ih =>
    have split : spoken (line :: more) = spoken [line] + spoken more := by
      unfold spoken
      rw [← List.length_append, ← List.filter_append, List.singleton_append]
    rw [List.foldl_cons, split, ← Nat.add_assoc]
    exact ih (atMost.step line)

/-! ### Confidences -/

theorem middle_fencedConfidence : fencedConfidence.Middle := Binary64.middle_nearest (by norm_num) (by norm_num)

theorem heuristic_bounds : 59 / 100 ≤ Binary64.rounded (60 / 100) ∧ Binary64.rounded (60 / 100) ≤ 61 / 100 ∧
    0 ≤ Binary64.rounded (Binary64.rounded (75 / 100) - Binary64.rounded (60 / 100)) ∧
    Binary64.rounded (Binary64.rounded (75 / 100) - Binary64.rounded (60 / 100)) ≤ 16 / 100 := by
  decide +kernel

theorem middle_heuristicConfidence {share : Rat} (nonneg : 0 ≤ share) (whole : share ≤ 1001 / 1000) :
    (heuristicConfidence share).Middle := by
  obtain ⟨least, most, positive, span⟩ := heuristic_bounds
  unfold heuristicConfidence
  simp only
  generalize Binary64.rounded (Binary64.rounded (75 / 100) - Binary64.rounded (60 / 100)) = width at positive span ⊢
  generalize Binary64.rounded (60 / 100) = base at least most ⊢
  have product : 0 ≤ width * share := mul_nonneg positive nonneg
  have small : width * share ≤ 17 / 100 := by nlinarith
  obtain ⟨low, high⟩ := Binary64.rounded_le product (by linarith)
  exact Binary64.middle_nearest (by linarith) (by linarith)

/-- The share of a part in the whole. -/
theorem share_bounds {part whole : Nat} (fits : part ≤ whole) :
    0 ≤ Binary64.rounded ((part : Rat) / whole) ∧ Binary64.rounded ((part : Rat) / whole) ≤ 1001 / 1000 := by
  have nonneg : (0 : Rat) ≤ (part : Rat) / whole := by positivity
  by_cases same : part = whole
  · by_cases zero : whole = 0
    · subst same zero
      rw [Nat.cast_zero, div_zero, Binary64.rounded_zero]
      norm_num
    · have one : (part : Rat) / whole = (1 : Nat) := by
        rw [same, div_self (by exact_mod_cast zero)]
        norm_num
      rw [one, Binary64.rounded_nat (by decide)]
      norm_num
  · have less : (part : Rat) / whole < 1 := by
      have strict : (part : Rat) < whole := by exact_mod_cast lt_of_le_of_ne fits same
      exact (div_lt_one (by linarith [part.cast_nonneg (α := Rat)])).mpr strict
    obtain ⟨low, high⟩ := Binary64.rounded_le nonneg less
    exact ⟨low, by linarith⟩

/-- The confidence in code from a response. -/
theorem middle_code? {response : String} {found : ExtractedCode} (extracted : code? response = some found) :
    found.confidence.Middle := by
  unfold code? at extracted
  split at extracted
  · next fenced =>
    obtain rfl := Option.some.inj extracted
    unfold fenced? at fenced
    obtain ⟨body, -, rfl⟩ := Option.map_eq_some_iff.mp fenced
    exact middle_fencedConfidence
  · unfold heuristic? at extracted
    obtain ⟨run, best, rfl⟩ := Option.map_eq_some_iff.mp extracted
    have start : RunSearch.start.AtMost 0 := ⟨Nat.le_refl 0, fun run impossible => by cases impossible⟩
    have fits := (start.foldl _).2 run best
    rw [Nat.zero_add] at fits
    obtain ⟨nonneg, whole⟩ := share_bounds fits
    exact middle_heuristicConfidence nonneg whole

end Extraction

/-! ### Candidates -/

/-- A candidate with code has the confidence in that code. -/
theorem Candidate.middle_ofResponse {strategy : Strategy} {response : Response}
    (usable : (ofResponse strategy response).isUsable = true) : (ofResponse strategy response).confidence.Middle := by
  cases response with
  | error e => cases usable
  | ok text =>
    obtain ⟨-, some⟩ := Bool.and_eq_true_iff.mp usable
    obtain ⟨found, extracted⟩ := Option.isSome_iff_exists.mp some
    have extracted : Extraction.code? text = .some found := extracted
    simp only [ofResponse, extracted, Option.map_some, Option.getD_some]
    exact Extraction.middle_code? extracted

/-- There is a candidate for each strategy, made of a response. -/
theorem Generator.candidates_spec {σ : Type} (g : Generator) (backend : Backend σ) (kind : DefectKind) (user : String)
    (strategies : List Strategy) (s : σ) :
    (g.candidates backend kind user strategies s).1.length = strategies.length ∧
      ∀ c ∈ (g.candidates backend kind user strategies s).1, ∃ strategy response, c = .ofResponse strategy response := by
  induction strategies generalizing s with
  | nil => exact ⟨rfl, by simp [candidates]⟩
  | cons strategy more ih =>
    obtain ⟨length, each⟩ := ih (backend.ask s ⟨strategy.systemPrompt kind, user, g.maxTokens⟩).2
    refine ⟨congrArg Nat.succ length, fun c member => ?_⟩
    rcases List.mem_cons.mp member with rfl | later
    · exact ⟨strategy, _, rfl⟩
    · exact each c later

namespace Consensus

/-- What is kept or replaced by the next element, element by element, is one of them in the end. -/
theorem mem_of_foldl {α : Type} {step : Option α → α → Option α} (either : ∀ best x, step best x = best ∨ step best x = some x)
    {elements : List α} {best : Option α} {x : α} (folded : elements.foldl step best = some x) :
    best = some x ∨ x ∈ elements := by
  induction elements generalizing best with
  | nil => exact .inl folded
  | cons first more ih =>
    rcases ih folded with kept | later
    · rcases either best first with same | replaced
      · exact .inl (same ▸ kept)
      · exact .inr (Option.some.inj (replaced.symm.trans kept) ▸ List.mem_cons_self)
    · exact .inr (List.mem_cons_of_mem first later)

/-- What is chosen among elements is one of them. -/
theorem firstGreatest?_mem {α : Type} {exceeds : α → α → Bool} {elements : List α} {x : α}
    (chosen : firstGreatest? exceeds elements = some x) : x ∈ elements := by
  refine (mem_of_foldl (fun best y => ?_) chosen).resolve_left (by simp)
  cases best with
  | none => exact .inr rfl
  | some first =>
    simp only
    split
    · exact .inr rfl
    · exact .inl rfl

/-- The winner is a usable candidate, and agrees with no more than there are. -/
theorem select_spec {policy : Policy} {candidates : List Candidate} {c : Candidate} {agreement : Nat}
    (selected : select policy candidates = .selected c agreement) :
    c ∈ candidates ∧ c.isUsable = true ∧ agreement ≤ candidates.length := by
  unfold select at selected
  simp only at selected
  split at selected
  · next winner chosen =>
    obtain ⟨rfl, rfl⟩ := by simpa using selected
    have eligible := firstGreatest?_mem chosen
    have usable : winner ∈ candidates.filter Candidate.isUsable := by
      unfold Consensus.eligible at eligible
      split at eligible
      · exact eligible
      · exact List.mem_of_mem_filter eligible
    obtain ⟨member, good⟩ := List.mem_filter.mp usable
    exact ⟨member, good, Nat.le_trans (List.length_filter_le _ _) (List.length_filter_le _ _)⟩
  · cases selected

end Consensus

/-- A candidate that is selected for a defect can be recorded in a document. -/
theorem Generator.selected_spec {σ : Type} {g : Generator} {backend : Backend σ} {s : σ} {tree : Files.Tree} {root : String}
    {d : Defect} {c : Candidate} {agreement : Nat}
    (selected : (g.propose backend s tree root d).1.consensus = .selected c agreement) :
    c.confidence.Middle ∧ agreement ≤ g.strategies.length := by
  obtain ⟨length, each⟩ := g.candidates_spec backend d.kind (FixContext.build tree root d g.radius).userPrompt g.strategies s
  obtain ⟨member, usable, fits⟩ := Consensus.select_spec selected
  obtain ⟨strategy, response, rfl⟩ := each c member
  exact ⟨Candidate.middle_ofResponse usable, length ▸ fits⟩

end GatedRepair

/-!
## Extracted code

Code that is found in a response is solid: it is not blank, and no newline stands at its end (`solid_of_code?`). For code from
between fences that is because the line endings after it are cut off, and for a run of lines because it ends with a line that
looks like code.
-/

namespace GatedRepair

open Text

/-- A text that is not blank and does not end in a newline. -/
structure Text.Solid (text : List Char) : Prop where
  notBlank : allBlank text = false
  notOpen : endsInNewline text = false

namespace Extraction

/-! ### Code from between fences -/

/-- Only blanks are cut off with line endings. -/
theorem allBlank_dropEndWhile (text : List Char) : allBlank (dropEndWhile isLineEnd text) = allBlank text := by
  have blank : ∀ c, isLineEnd c = true → isBlank c = true := by
    intro c ends
    simp only [isLineEnd, Bool.or_eq_true, beq_iff_eq] at ends
    rcases ends with rfl | rfl <;> rfl
  have reversed : ∀ back : List Char, (back.dropWhile isLineEnd).all isBlank = back.all isBlank := by
    intro back
    induction back with
    | nil => rfl
    | cons c back ih =>
      rw [List.dropWhile_cons]
      by_cases ends : isLineEnd c = true
      · rw [if_pos ends, ih, List.all_cons, blank c ends, Bool.true_and]
      · rw [if_neg ends]
  rw [allBlank, dropEndWhile, List.all_reverse, reversed, List.all_reverse, allBlank]

theorem endsInNewline_dropEndWhile (text : List Char) : endsInNewline (dropEndWhile isLineEnd text) = false := by
  rw [endsInNewline, beq_eq_false_iff_ne]
  intro ends
  exact absurd (getLast?_dropEndWhile ends) (by decide)

theorem mem_of_longest? {texts : List String} {best : String} (chosen : longest? texts = some best) : best ∈ texts := by
  refine (Consensus.mem_of_foldl (fun best other => ?_) chosen).resolve_left (by simp)
  cases best with
  | none => exact .inr rfl
  | some first =>
    simp only
    split
    · exact .inr rfl
    · exact .inl rfl

theorem solid_of_fenced? {response : List Char} {found : ExtractedCode} (fenced : fenced? response = some found) :
    Solid found.code.toList := by
  obtain ⟨body, chosen, rfl⟩ := Option.map_eq_some_iff.mp fenced
  obtain ⟨text, member, rfl⟩ := List.mem_map.mp (mem_of_longest? chosen)
  have notBlank := (List.mem_filter.mp member).2
  constructor
  · rw [String.toList_ofList, String.toList_ofList, allBlank_dropEndWhile]
    simpa using notBlank
  · rw [String.toList_ofList]
    exact endsInNewline_dropEndWhile _

/-! ### Runs of lines -/

/-- The best run, if there is one, ends with a line that looks like code. -/
def RunSearch.Coded (search : RunSearch) : Prop :=
  ∀ run, search.best = some run → ∃ line more, run.back = line :: more ∧ looksLikeCode line = true ∧ '\n' ∉ line

theorem RunSearch.Coded.step {search : RunSearch} (coded : search.Coded) {line : List Char} (free : '\n' ∉ line) :
    (search.step line).Coded := by
  intro run best
  unfold RunSearch.step at best
  by_cases code : looksLikeCode line = true
  · rw [if_pos code] at best
    simp only at best
    split at best
    · obtain rfl := Option.some.inj best
      exact ⟨line, search.current.back, rfl, code, free⟩
    · exact coded run best
  · rw [if_neg code] at best
    split at best
    · split at best
      · exact coded run best
      · exact coded run best
    · exact coded run best

theorem RunSearch.Coded.foldl {search : RunSearch} (coded : search.Coded) {lines : List (List Char)}
    (free : ∀ line ∈ lines, '\n' ∉ line) : (lines.foldl RunSearch.step search).Coded := by
  induction lines generalizing search with
  | nil => exact coded
  | cons line more ih =>
    obtain ⟨line_free, rest_free⟩ := List.forall_mem_cons.mp free
    rw [List.foldl_cons]
    exact ih (coded.step line_free) rest_free

theorem solid_of_heuristic? {response : List Char} {found : ExtractedCode} (searched : heuristic? response = some found) :
    Solid found.code.toList := by
  obtain ⟨run, best, rfl⟩ := Option.map_eq_some_iff.mp searched
  have start : RunSearch.start.Coded := fun run none => by cases none
  have free : ∀ line ∈ (lines response).filter (!approachLine.matches? ·), '\n' ∉ line := by
    intro line inside
    exact newline_not_mem_lines line (List.mem_filter.mp inside).1
  obtain ⟨line, more, back, code, free⟩ := start.foldl free run best
  have notBlank := not_allBlank_of_looksLikeCode code
  have some : line ≠ [] := by
    rintro rfl
    cases notBlank
  rw [String.toList_ofList, back, List.reverse_cons, join_concat]
  constructor
  · rw [allBlank, List.all_append]
    simp [show line.all isBlank = false from notBlank]
  · rw [endsInNewline_append _ some]
    exact endsInNewline_free free

/-- Extracted code is solid. -/
theorem solid_of_code? {response : String} {found : ExtractedCode} (extracted : code? response = some found) :
    Solid found.code.toList := by
  unfold code? at extracted
  split at extracted
  · next fenced =>
    obtain rfl := Option.some.inj extracted
    exact solid_of_fenced? fenced
  · exact solid_of_heuristic? extracted

end Extraction

end GatedRepair
