import GatedRepair.Fix.Consensus
import GatedRepair.Proofs.Pattern.Language
import GatedRepair.Proofs.Text.Lines
import Mathlib.Data.List.TakeWhile

/-!
# What the pattern of a label takes

At the start of a line the pattern of a label takes a word, a colon and the label behind the colon, if anything is behind it but
newlines (`prefers_label`, `ways_eq_nil`). The marks around the colon and the blanks before the label may hold newlines,
so the label need not stand on the line of its word (`labelIn?`).
-/

namespace GatedRepair.Extraction

open Text Pattern

/-! ## The word and the colon -/

/-- What stands behind the word at the start of a text and the marks after it. -/
def behindWord? (text : List Char) : Option (List Char) :=
  let word := "approach".toList
  let rest := text.dropWhile isLead
  if equalIgnoringAsciiCase (rest.take word.length) word then some ((rest.drop word.length).dropWhile isEmphasis) else none

/-- The label behind a colon: the first line that holds more than marks, without the marks around it. Where there are only marks
it is the last of them. -/
def labelIn? (behind : List Char) : Option (List Char) :=
  match behind.dropWhile isEmphasis with
  | [] => (behind.reverse.find? inLine).map ([·])
  | c :: more => some (dropEndWhile isEmphasis ((c :: more).takeWhile inLine))

/-- The label of a text that begins with it. -/
def labelAt? (text : List Char) : Option (List Char) :=
  match behindWord? text with
  | some (':' :: behind) => labelIn? behind
  | _ => none

section
variable {text leads word gap rest behind marks label tail : List Char} {before : Option Char} {groups : Groups} {c : Char}

theorem isLead_of_isEmphasis (mark : isEmphasis c = true) : isLead c = true := by
  simp [isLead, mark]

/-- No mark is a letter of the word. -/
theorem isLead_of_letter (letter : isAsciiLower (asciiLower c) = true) : isLead c = false := by
  have marks : ['*', '_', '#', '>', '-'].all (fun d => !isAsciiLower (asciiLower d)) = true := by decide
  have other : c ∉ ['*', '_', '#', '>', '-'] := by
    intro inside
    have none := List.all_eq_true.mp marks c inside
    rw [letter] at none
    cases none
  simp only [List.mem_cons, List.not_mem_nil, or_false, not_or] at other
  simp [isLead, isEmphasis, (letter_of_lower letter).1, other]

theorem isLead_of_word (same : word.map asciiLower = "approach".toList.map asciiLower) : ∀ c ∈ word, isLead c = false := by
  have letters : ("approach".toList.map asciiLower).all isAsciiLower = true := by decide
  intro c inside
  exact isLead_of_letter (List.all_eq_true.mp letters _ (same ▸ List.mem_map_of_mem inside))

/-- The parts at the start of a text with the word. -/
structure Worded (text leads word gap rest : List Char) : Prop where
  cut : text = leads ++ (word ++ (gap ++ rest))
  leads : ∀ c ∈ leads, isLead c = true
  word : word.map asciiLower = "approach".toList.map asciiLower
  gap : ∀ c ∈ gap, isEmphasis c = true
  stops : ∀ c, rest.head? = some c → isEmphasis c = false

theorem Worded.length (worded : Worded text leads word gap rest) : word.length = "approach".toList.length := by
  simpa using congrArg List.length worded.word

/-- No mark stands before the first letter. -/
theorem Worded.head? (worded : Worded text leads word gap rest) :
    ∀ c, (word ++ (gap ++ rest)).head? = some c → isLead c = false := by
  intro c head
  cases letters : word with
  | nil =>
    have size := worded.length
    rw [letters] at size
    cases size
  | cons first others =>
    obtain rfl : first = c := by simpa [letters] using head
    exact isLead_of_word worded.word first (by simp [letters])

theorem dropWhile_append_stop {p : Char → Bool} {front back : List Char} (all : ∀ c ∈ front, p c = true)
    (stops : ∀ c, back.head? = some c → p c = false) : (front ++ back).dropWhile p = back := by
  rw [List.dropWhile_append_of_pos all]
  cases back with
  | nil => rfl
  | cons c back => rw [List.dropWhile_cons_of_neg (by simp [stops c rfl])]

theorem Worded.behindWord? (worded : Worded text leads word gap rest) : behindWord? text = some rest := by
  have front := dropWhile_append_stop worded.leads worded.head?
  have same : equalIgnoringAsciiCase word "approach".toList = true := beq_iff_eq.mpr worded.word
  unfold Extraction.behindWord?
  simp only [worded.cut, front, ← worded.length, List.take_left, List.drop_left, same, if_true]
  rw [dropWhile_append_stop worded.gap worded.stops]

theorem exists_worded (found : behindWord? text = some rest) : ∃ leads word gap, Worded text leads word gap rest := by
  unfold behindWord? at found
  simp only at found
  split at found
  · next same =>
    obtain rfl := Option.some.inj found
    refine ⟨text.takeWhile isLead, _, ((text.dropWhile isLead).drop "approach".toList.length).takeWhile isEmphasis, ?_, ?_,
      beq_iff_eq.mp same, ?_, ?_⟩
    · rw [List.takeWhile_append_dropWhile, List.take_append_drop, List.takeWhile_append_dropWhile]
    · exact List.all_eq_true.mp List.all_takeWhile
    · exact List.all_eq_true.mp List.all_takeWhile
    · exact fun c head => head?_dropWhile head
  · cases found

/-! ## The label behind the colon -/

/-- A label between the marks behind a colon and those at the end of its line. It begins and ends with something else than a
mark, or it is a mark behind which nothing but newlines follow. -/
structure LabelCut (behind marks label tail rest : List Char) : Prop where
  cut : behind = marks ++ (label ++ (tail ++ rest))
  marked : ∀ c ∈ marks, isEmphasis c = true
  any : label ≠ []
  onLine : ∀ c ∈ label, inLine c = true
  trailing : ∀ c ∈ tail, isEmphasis c = true
  ends : ∀ c, rest.head? = some c → c = '\n'
  framed : ((∀ c, label.head? = some c → isEmphasis c = false) ∧ (∀ c, label.getLast? = some c → isEmphasis c = false)) ∨
    label.length = 1 ∧ ∀ c ∈ tail ++ rest, c = '\n'

theorem isEmphasis_of_not_inLine (newline : inLine c = false) : isEmphasis c = true := by
  obtain rfl : c = '\n' := by simpa [inLine] using newline
  rfl

/-- Of marks alone the last one that is no newline is the label. -/
theorem exists_labelCut_of_marks (each : ∀ c ∈ behind, isEmphasis c = true) (last : behind.reverse.find? inLine = some c) :
    ∃ marks tail, LabelCut behind marks [c] tail [] := by
  obtain ⟨inside, back, early, split, newlines⟩ := List.find?_eq_some_iff_append.mp last
  have cut : behind = early.reverse ++ ([c] ++ (back.reverse ++ [])) := by
    rw [← List.reverse_reverse behind, split]
    simp
  refine ⟨early.reverse, back.reverse, cut, ?_, List.cons_ne_nil c [], ?_, ?_, ?_, .inr ⟨rfl, ?_⟩⟩
  · exact fun d member => each d (by rw [cut]; exact List.mem_append_left _ member)
  · exact List.forall_mem_singleton.mpr inside
  · exact fun d member => each d (by rw [cut]; simp [List.mem_reverse.mp member])
  · exact fun d none => by cases none
  · intro d member
    rw [List.append_nil] at member
    simpa [inLine] using newlines d (List.mem_reverse.mp member)

/-- Where more than marks follow, the label is the rest of the line without the marks at its end. -/
theorem exists_labelCut_of_full {more : List Char} (body : behind.dropWhile isEmphasis = c :: more) :
    ∃ marks tail rest, LabelCut behind marks (dropEndWhile isEmphasis ((c :: more).takeWhile inLine)) tail rest := by
  have first : isEmphasis c = false := head?_dropWhile (congrArg List.head? body)
  have onLine : inLine c = true := by
    cases line : inLine c with
    | true => rfl
    | false => rw [isEmphasis_of_not_inLine line] at first; cases first
  obtain ⟨marks, line, all⟩ := dropEndWhile_cut isEmphasis ((c :: more).takeWhile inLine)
  have begins : (dropEndWhile isEmphasis ((c :: more).takeWhile inLine)).head? = some c := by
    rw [List.takeWhile_cons_of_pos onLine] at line ⊢
    cases kept : dropEndWhile isEmphasis (c :: more.takeWhile inLine) with
    | nil =>
      rw [kept, List.nil_append] at line
      rw [all c (line ▸ List.mem_cons_self)] at first
      cases first
    | cons d others =>
      rw [kept] at line
      rw [(List.cons.inj line).1]
      rfl
  have front := List.takeWhile_append_dropWhile (p := isEmphasis) (l := behind)
  refine ⟨behind.takeWhile isEmphasis, marks, (c :: more).dropWhile inLine, ?_, ?_, ?_, ?_, all, ?_, .inl ⟨?_, ?_⟩⟩
  · rw [← List.append_assoc, ← List.append_assoc, List.append_assoc _ _ marks, ← line, List.append_assoc,
      List.takeWhile_append_dropWhile, ← body, front]
  · exact List.all_eq_true.mp List.all_takeWhile
  · intro none
    rw [none] at begins
    cases begins
  · intro d inside
    have whole := List.all_eq_true.mp (List.all_takeWhile (p := inLine) (l := c :: more))
    exact whole d (by rw [line]; exact List.mem_append_left _ inside)
  · intro d head
    simpa [inLine] using head?_dropWhile head
  · intro d head
    rw [begins] at head
    exact Option.some.inj head ▸ first
  · exact fun d last => getLast?_dropEndWhile last

/-- The label behind a colon lies between marks. -/
theorem exists_labelCut (found : labelIn? behind = some label) : ∃ marks tail rest, LabelCut behind marks label tail rest := by
  unfold labelIn? at found
  cases body : behind.dropWhile isEmphasis with
  | nil =>
    rw [body] at found
    obtain ⟨c, last, rfl⟩ := Option.map_eq_some_iff.mp found
    obtain ⟨marks, tail, cut⟩ := exists_labelCut_of_marks (List.dropWhile_eq_nil_iff.mp body) last
    exact ⟨marks, tail, [], cut⟩
  | cons c more =>
    rw [body] at found
    obtain rfl := Option.some.inj found
    exact exists_labelCut_of_full body

/-- The marks at the end of a line are taken. -/
theorem exists_prefers_tail (tail_marks : ∀ c ∈ tail, isEmphasis c = true) (ends : ∀ c, rest.head? = some c → c = '\n') :
    ∃ other left, Prefers (all [run isEmphasis, atLineEnd]) (.of before (tail ++ rest) groups) (.of other left groups) := by
  obtain ⟨early, along, -⟩ := @trail_split groups isEmphasis tail tail_marks before rest
  have here : Place.of (tail.getLast?.or before) rest groups ∈ trail isEmphasis groups before (tail ++ rest) := by
    rw [along]
    cases rest <;> simp [trail]
  have ended : (all [atLineEnd]).ways (.of (tail.getLast?.or before) rest groups) = [.of (tail.getLast?.or before) rest groups] := by
    cases rest with
    | nil => rfl
    | cons c rest =>
      obtain rfl := ends c rfl
      rfl
  have way : Place.of (tail.getLast?.or before) rest groups ∈
      (all [run isEmphasis, atLineEnd]).ways (.of before (tail ++ rest) groups) := by
    refine List.mem_flatMap.mpr ⟨_, ?_, ended ▸ List.mem_singleton.mpr rfl⟩
    rw [run, ways_many, if_pos rfl]
    exact List.mem_reverse.mpr here
  obtain ⟨stop, member, preferred⟩ := exists_prefers way
  obtain ⟨middle, along, final⟩ := List.mem_flatMap.mp member
  rw [run, ways_many, if_pos rfl] at along
  obtain ⟨-, left, other, -, -, rfl⟩ := mem_trail (List.mem_reverse.mp along)
  have same : stop = .of other left groups := by
    have checked : stop ∈ atLineEnd.ways (.of other left groups) := by
      obtain ⟨last, checked, nothing⟩ := List.mem_flatMap.mp final
      obtain rfl := List.mem_singleton.mp nothing
      exact checked
    unfold atLineEnd ways at checked
    split at checked
    · exact List.mem_singleton.mp checked
    · cases checked
  exact ⟨other, left, same ▸ preferred⟩

/-- Inside a label that ends in something else than a mark the line does not end. -/
theorem ways_tail_eq_nil (onLine : ∀ c ∈ label, inLine c = true) (any : label ≠ [])
    (last : ∀ c, label.getLast? = some c → isEmphasis c = false) :
    (all [run isEmphasis, atLineEnd]).ways (.of before (label ++ rest) groups) = [] := by
  refine List.eq_nil_iff_forall_not_mem.mpr fun stop member => ?_
  obtain ⟨taken, split, takes, -⟩ := takes_of_mem_ways member
  obtain ⟨marks, _, rfl, isMarks, takes⟩ := takes_cons.mp takes
  obtain ⟨_, _, rfl, ⟨rfl, ended⟩, rfl⟩ := takes_cons.mp takes
  simp only [List.append_nil, Place.rest_of] at split ended
  have ends := List.getLast?_eq_some_getLast any
  have whole : label.getLast any ∉ marks := by
    intro inside
    have mark := isMarks _ inside
    rw [last _ ends] at mark
    cases mark
  rcases List.append_eq_append_iff.mp split with ⟨between, same, -⟩ | ⟨between, same, stops⟩
  · exact whole (by rw [same]; exact List.mem_append_left _ (List.getLast_mem any))
  · cases between with
    | nil =>
      rw [List.append_nil] at same
      exact whole (same ▸ List.getLast_mem any)
    | cons c between =>
      have newline := onLine c (by simp [same])
      rw [stops] at ended
      simp [inLine] at newline ended
      exact newline ended

/-- Behind the colon the label is taken. -/
theorem LabelCut.prefers {behind marks label tail rest : List Char} (cut : LabelCut behind marks label tail rest)
    (before : Option Char) :
    ∃ other left, Prefers (all [run isEmphasis, group "label" (few1 inLine), run isEmphasis, atLineEnd]) (.of before behind [])
      (.of other left [("label", label ++ (tail ++ rest), label.length)]) := by
  obtain ⟨other, left, ended⟩ := @exists_prefers_tail rest tail label.getLast?
    [("label", label ++ (tail ++ rest), label.length)] cut.trailing cut.ends
  refine ⟨other, left, ?_⟩
  rw [cut.cut]
  refine .cons_run_back cut.marked (fun front back after split any each => ?_)
    (.cons_few1 cut.any cut.onLine (fun front back after more split any any' => ?_) ended)
  · rcases cut.framed with ⟨first, -⟩ | ⟨single, newlines⟩
    · -- The label does not begin with a mark.
      obtain ⟨c, label, rfl⟩ := List.exists_cons_of_ne_nil cut.any
      obtain ⟨d, front, rfl⟩ := List.exists_cons_of_ne_nil any
      obtain ⟨rfl, -⟩ := List.cons.inj split
      have mark := each c (by simp)
      rw [first c rfl] at mark
      cases mark
    · -- Behind the label stand newlines only.
      obtain ⟨c, rfl⟩ := List.length_eq_one_iff.mp single
      obtain ⟨d, front, rfl⟩ := List.exists_cons_of_ne_nil any
      have behind : tail ++ rest = front ++ back := (List.cons.inj split).2
      have none : ∀ e ∈ (Place.of after back []).rest, e ∈ ['\n'] := by
        intro e inside
        exact List.mem_singleton.mpr (newlines e (behind ▸ List.mem_append_right front inside))
      exact ways_lacking rfl none
  · rcases cut.framed with ⟨-, last⟩ | ⟨single, -⟩
    · refine ways_tail_eq_nil (fun c inside => cut.onLine c (by simp [split, inside])) any' fun c ends => last c ?_
      rw [split, List.getLast?_append, ends]
      rfl
    · have sizes := congrArg List.length split
      have front_size := List.length_pos_iff.mpr any
      have back_size := List.length_pos_iff.mpr any'
      rw [List.length_append, single] at sizes
      omega

/-! ## The whole pattern -/

/-- A line starts behind a newline and at the start of the text. -/
def StartsLine (before : Option Char) : Prop := before = none ∨ before = some '\n'

theorem ways_lineStart : atLineStart.ways (.of before text groups) = [.of before text groups] ∧ StartsLine before ∨
    atLineStart.ways (.of before text groups) = [] ∧ ¬ StartsLine before := by
  unfold atLineStart ways
  split
  · next holds => exact .inl ⟨rfl, by simpa [Place.of, StartsLine] using holds⟩
  · next fails => exact .inr ⟨rfl, by simpa [Place.of, StartsLine] using fails⟩

/-- At the start of a line the label of the text is taken. -/
theorem prefers_label (starts : StartsLine before) (found : labelAt? text = some label) :
    ∃ other left more, Prefers approachLine (.of before text []) (.of other left [("label", label ++ more, label.length)]) := by
  unfold labelAt? at found
  split at found
  · next behind worded =>
    obtain ⟨leads, word, gap, worded⟩ := exists_worded worded
    obtain ⟨marks, tail, rest, cut⟩ := exists_labelCut found
    obtain ⟨other, left, ended⟩ := cut.prefers (some ':')
    have start : Prefers atLineStart (.of before text []) (.of before text []) := by
      rw [Prefers, (ways_lineStart.resolve_right fun inside => inside.2 starts).1]
      rfl
    refine ⟨other, left, tail ++ rest, .cons start ?_⟩
    rw [worded.cut]
    exact .cons (prefers_run worded.leads worded.head?) (.cons (prefers_anyCase worded.word)
      (.cons (prefers_run worded.gap worded.stops) (.cons (prefers_char ':') ended)))
  · cases found

theorem newlines_of_labelIn? (none : labelIn? behind = none) : ∀ c ∈ behind, inLine c = false := by
  unfold labelIn? at none
  split at none
  · rw [Option.map_eq_none_iff, List.find?_eq_none] at none
    intro c inside
    simpa using none c (List.mem_reverse.mpr inside)
  · cases none

/-- A text that does not begin with a label is not taken. -/
theorem ways_eq_nil (absent : labelAt? text = none) : approachLine.ways (.of before text groups) = [] := by
  refine List.eq_nil_iff_forall_not_mem.mpr fun stop member => ?_
  obtain ⟨taken, split, takes, -⟩ := takes_of_mem_ways member
  obtain ⟨_, _, rfl, ⟨rfl, -⟩, takes⟩ := takes_cons.mp takes
  obtain ⟨leads, _, rfl, isLeads, takes⟩ := takes_cons.mp takes
  obtain ⟨word, _, rfl, isWord, takes⟩ := takes_cons.mp takes
  obtain ⟨gap, _, rfl, isGap, takes⟩ := takes_cons.mp takes
  obtain ⟨_, _, rfl, isColon, takes⟩ := takes_cons.mp takes
  obtain rfl := takes_char.mp isColon
  obtain ⟨marks, _, rfl, -, takes⟩ := takes_cons.mp takes
  obtain ⟨_, more, rfl, ⟨_, others, rfl, ⟨c, onLine, rfl⟩, -⟩, -⟩ := takes_cons.mp takes
  simp only [Place.rest_of, List.append_assoc, List.nil_append, List.cons_append] at split
  have worded : Worded text leads word gap (':' :: (marks ++ c :: (others ++ (more ++ stop.rest)))) :=
    ⟨split, isLeads, lower_of_takes_anyCase isWord, isGap, fun d head => by cases head; rfl⟩
  unfold labelAt? at absent
  rw [worded.behindWord?] at absent
  have newline := newlines_of_labelIn? absent c (by simp)
  rw [onLine] at newline
  cases newline

/-- Inside a line nothing is taken. -/
theorem ways_inside {early : List Char} (some : early ≠ []) (free : '\n' ∉ early) :
    approachLine.ways (.of (early.getLast?.or before) text groups) = [] := by
  have inside : ¬ StartsLine (early.getLast?.or before) := by
    rw [List.getLast?_eq_some_getLast some, Option.some_or]
    rintro (impossible | newline)
    · cases impossible
    · exact free (Option.some.inj newline ▸ List.getLast_mem some)
  have start := (@ways_lineStart text (early.getLast?.or before) groups).resolve_left fun starts => inside starts.2
  have first : approachLine.ways (.of (early.getLast?.or before) text groups) =
      (atLineStart.ways (.of (early.getLast?.or before) text groups)).flatMap _ := rfl
  rw [first, start.1, List.flatMap_nil]

end

end GatedRepair.Extraction
