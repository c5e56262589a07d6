import GatedRepair.Text.Character
import GatedRepair.Text.Lines

/-!
# Trimmed texts and texts in pieces
-/

/-!
## Trimmed texts

Blanks at the ends of a text are lost when it is trimmed, and a text that has none there is kept as it is. So it is with the
characters of any class that are cut off at the end.
-/

namespace GatedRepair.Text

variable {text : List Char} {c : Char}

/-- A letter of a word is neither a blank nor a digit. -/
theorem letter_of_lower {c : Char} (lower : isAsciiLower (asciiLower c) = true) :
    isBlank c = false ∧ isAsciiDigit c = false := by
  have range : 65 ≤ c.toNat ∧ c.toNat ≤ 122 := by
    unfold asciiLower at lower
    split at lower
    · next upper =>
      simp only [isAsciiUpper, Bool.and_eq_true, decide_eq_true_eq] at upper
      omega
    · simp only [isAsciiLower, Bool.and_eq_true, decide_eq_true_eq] at lower
      omega
  constructor
  · simp only [isBlank, Bool.or_eq_false_iff, Bool.and_eq_false_iff, beq_eq_false_iff_ne, decide_eq_false_iff_not]
    omega
  · simp only [isAsciiDigit, Bool.and_eq_false_iff, decide_eq_false_iff_not]
    omega

/-! ### At the end -/

section
variable {p : Char → Bool}

theorem dropEndWhile_append {marks : List Char} (all : ∀ c ∈ marks, p c = true) (text : List Char) :
    dropEndWhile p (text ++ marks) = dropEndWhile p text := by
  unfold dropEndWhile
  rw [List.reverse_append, List.dropWhile_append_of_pos]
  intro c inside
  exact all c (List.mem_reverse.mp inside)

theorem dropEndWhile_concat (other : p c = false) (text : List Char) : dropEndWhile p (text ++ [c]) = text ++ [c] := by
  simp [dropEndWhile, other]

theorem dropEndWhile_eq_self (last : ∃ c, text.getLast? = some c ∧ p c = false) : dropEndWhile p text = text := by
  obtain ⟨c, ends, other⟩ := last
  obtain ⟨front, rfl⟩ := List.getLast?_eq_some_iff.mp ends
  exact dropEndWhile_concat other front

theorem dropWhile_eq_self (first : ∃ c, text.head? = some c ∧ p c = false) : text.dropWhile p = text := by
  obtain ⟨c, begins, other⟩ := first
  obtain ⟨rest, rfl⟩ := List.head?_eq_some_iff.mp begins
  exact List.dropWhile_cons_of_neg (by simp [other])

theorem dropEndWhile_cut (p : Char → Bool) (text : List Char) :
    ∃ marks, text = dropEndWhile p text ++ marks ∧ ∀ c ∈ marks, p c = true := by
  refine ⟨(text.reverse.takeWhile p).reverse, ?_, fun c inside => ?_⟩
  · rw [dropEndWhile, ← List.reverse_append, List.takeWhile_append_dropWhile, List.reverse_reverse]
  · have all := List.all_eq_true.mp (List.all_takeWhile (p := p) (l := text.reverse))
    exact all c (List.mem_reverse.mp inside)

theorem head?_dropWhile (first : (text.dropWhile p).head? = some c) : p c = false := by
  have kept := List.head?_dropWhile_not p text
  rw [first] at kept
  simpa using kept

theorem getLast?_dropEndWhile (last : (dropEndWhile p text).getLast? = some c) : p c = false :=
  head?_dropWhile (List.getLast?_reverse ▸ last)

end

theorem trimEnd_append_blank {blank : List Char} (all : allBlank blank = true) (text : List Char) :
    trimEnd (text ++ blank) = trimEnd text :=
  dropEndWhile_append (List.all_eq_true.mp all) text

theorem trimEnd_blank {blank : List Char} (all : allBlank blank = true) : trimEnd blank = [] :=
  trimEnd_append_blank all []

/-! ### At both ends -/

theorem trim_cons_blank (blank : isBlank c = true) (text : List Char) : trim (c :: text) = trim text := by
  rw [trim, trimStart, List.dropWhile_cons_of_pos blank]
  rfl

/-- A text that begins and ends with something else than a blank. -/
structure Framed (text : List Char) : Prop where
  first : ∃ c, text.head? = some c ∧ isBlank c = false
  last : ∃ c, text.getLast? = some c ∧ isBlank c = false

instance (text : List Char) : Decidable (Framed text) :=
  decidable_of_iff (text.head?.any (!isBlank ·) = true ∧ text.getLast?.any (!isBlank ·) = true)
    ⟨fun both => ⟨by simpa [Option.any_eq_true] using both.1, by simpa [Option.any_eq_true] using both.2⟩,
      fun framed => ⟨by simpa [Option.any_eq_true] using framed.first, by simpa [Option.any_eq_true] using framed.last⟩⟩

namespace Framed

theorem ne_nil (framed : Framed text) : text ≠ [] := by
  rintro rfl
  obtain ⟨c, none, -⟩ := framed.first
  cases none

theorem trimEnd_eq (framed : Framed text) : trimEnd text = text := dropEndWhile_eq_self framed.last

theorem trim_eq (framed : Framed text) : trim text = text := by
  rw [trim, trimStart, dropWhile_eq_self framed.first]
  exact framed.trimEnd_eq

theorem append {more : List Char} (framed : Framed text) (framed' : Framed more) (between : List Char) :
    Framed (text ++ (between ++ more)) := by
  obtain ⟨c, first, full⟩ := framed.first
  obtain ⟨d, last, full'⟩ := framed'.last
  exact ⟨⟨c, by simp [first], full⟩, ⟨d, by simp [last], full'⟩⟩

end Framed

theorem framed_of_full (some : text ≠ []) (full : ∀ c ∈ text, isBlank c = false) : Framed text :=
  ⟨⟨_, List.head?_eq_some_head some, full _ (List.head_mem some)⟩,
    ⟨_, List.getLast?_eq_some_getLast some, full _ (List.getLast_mem some)⟩⟩

end GatedRepair.Text

/-!
## Texts that are put together from pieces

A text that is put together from pieces is cut into these pieces again (`Pieced.pieces_flatten`), so what is put between some
of the pieces of a text is all that changes. In the texts in which every newline has a carriage return before it (`Crlf`) that
holds of each piece.
-/

namespace GatedRepair.Text

variable {text line piece : List Char} {parts front back : List (List Char)}

/-! ### Pieces -/

/-- Pieces as a text is cut into them: each ends in its only newline, but the last may lack one if it is not empty. -/
inductive Pieced : List (List Char) → Prop
  | none : Pieced []
  | loose {piece : List Char} (some : piece ≠ []) (free : '\n' ∉ piece) : Pieced [piece]
  | closed {line : List Char} {rest : List (List Char)} (free : '\n' ∉ line) (more : Pieced rest) :
      Pieced ((line ++ ['\n']) :: rest)

theorem pieces_eq_nil : pieces text = [] ↔ text = [] := by
  constructor
  · intro none
    rw [← flatten_pieces text, none]
    rfl
  · rintro rfl
    rfl

/-- A line with its newline is a piece of its own, whatever comes after it. -/
theorem pieces_closed (free : '\n' ∉ line) (text : List Char) :
    pieces (line ++ '\n' :: text) = (line ++ ['\n']) :: pieces text := by
  induction line with
  | nil => simp [consPiece]
  | cons c line ih =>
    obtain ⟨other, rest_free⟩ := List.ne_and_not_mem_of_not_mem_cons free
    rw [List.cons_append, pieces_cons, ih rest_free]
    unfold consPiece
    rw [if_neg other.symm]
    rfl

/-- A text without a newline is one piece. -/
theorem pieces_loose (some : piece ≠ []) (free : '\n' ∉ piece) : pieces piece = [piece] := by
  induction piece with
  | nil => exact absurd rfl some
  | cons c rest ih =>
    obtain ⟨other, rest_free⟩ := List.ne_and_not_mem_of_not_mem_cons free
    rw [pieces_cons]
    unfold consPiece
    rw [if_neg other.symm]
    by_cases last : rest = []
    · simp [last]
    · rw [ih last rest_free]

theorem consPiece_append {c : Char} {found : List (List Char)} (some : found ≠ []) (more : List (List Char)) :
    consPiece c (found ++ more) = consPiece c found ++ more := by
  obtain ⟨piece, others, rfl⟩ := List.exists_cons_of_ne_nil some
  unfold consPiece
  split <;> rfl

theorem pieces_append_newline (front back : List Char) :
    pieces (front ++ '\n' :: back) = pieces (front ++ ['\n']) ++ pieces back := by
  induction front with
  | nil => simp [consPiece]
  | cons c front ih =>
    have some : pieces (front ++ ['\n']) ≠ [] := fun none => by simpa using pieces_eq_nil.mp none
    rw [List.cons_append, pieces_cons, ih, consPiece_append some, List.cons_append, pieces_cons]

theorem mem_lines_of_append {front back line : List Char} (inside : line ∈ lines back) : line ∈ lines (front ++ '\n' :: back) := by
  rw [lines, pieces_append_newline, List.map_append]
  exact List.mem_append_right _ inside

/-- A text that is put together from pieces is cut into them again. -/
theorem Pieced.pieces_flatten (pieced : Pieced parts) : pieces parts.flatten = parts := by
  induction pieced with
  | none => rfl
  | loose some free => simpa using pieces_loose some free
  | closed free more ih =>
    rw [List.flatten_cons, List.append_assoc, List.singleton_append, pieces_closed free, ih]

theorem pieced_pieces (text : List Char) : Pieced (pieces text) := by
  induction text with
  | nil => exact .none
  | cons c text ih =>
    rw [pieces_cons]
    generalize pieces text = parts at ih
    unfold consPiece
    by_cases newline : c = '\n'
    · rw [if_pos newline]
      exact @Pieced.closed [] _ List.not_mem_nil ih
    · rw [if_neg newline]
      cases ih with
      | none => exact .loose (List.cons_ne_nil c []) (by simpa [eq_comm] using newline)
      | loose some free => exact .loose (List.cons_ne_nil c _) (by simp [free, Ne.symm newline])
      | @closed line _ free more => exact @Pieced.closed (c :: line) _ (by simp [free, Ne.symm newline]) more

/-- Pieces that all end in a newline. -/
def Closed (parts : List (List Char)) : Prop := ∀ piece ∈ parts, ∃ line, '\n' ∉ line ∧ piece = line ++ ['\n']

theorem Pieced.append (closed : Closed front) (pieced : Pieced back) : Pieced (front ++ back) := by
  induction front with
  | nil => exact pieced
  | cons piece more ih =>
    obtain ⟨⟨line, free, rfl⟩, rest⟩ := List.forall_mem_cons.mp closed
    exact .closed free (ih rest)

theorem Pieced.of_append (pieced : Pieced (front ++ back)) : Pieced front ∧ Pieced back ∧ (back ≠ [] → Closed front) := by
  induction front with
  | nil => exact ⟨.none, pieced, fun _ _ inside => absurd inside List.not_mem_nil⟩
  | cons piece more ih =>
    rw [List.cons_append] at pieced
    generalize joined : more ++ back = rest at pieced
    cases pieced with
    | loose some free =>
      obtain ⟨rfl, rfl⟩ := List.append_eq_nil_iff.mp joined
      exact ⟨.loose some free, .none, fun absent => absurd rfl absent⟩
    | @closed line _ free pieced =>
      obtain ⟨first, last, closed⟩ := ih (joined ▸ pieced)
      refine ⟨.closed free first, last, ?_⟩
      intro present other inside
      rcases List.mem_cons.mp inside with rfl | inside
      · exact ⟨line, free, rfl⟩
      · exact closed present other inside

@[simp] theorem endsInNewline_closed (line : List Char) : endsInNewline (line ++ ['\n']) = true := by
  simp [endsInNewline]

theorem endsInNewline_append (text : List Char) (some : piece ≠ []) : endsInNewline (text ++ piece) = endsInNewline piece := by
  unfold endsInNewline
  rw [List.getLast?_append, List.getLast?_eq_some_getLast some]
  rfl

theorem endsInNewline_free (free : '\n' ∉ text) : endsInNewline text = false := by
  simp only [endsInNewline, beq_eq_false_iff_ne]
  intro ends
  exact free (List.mem_of_getLast? ends)

theorem endsInNewline_flatten (parts : List (List Char)) (some : piece ≠ []) :
    endsInNewline (parts ++ [piece]).flatten = endsInNewline piece := by
  rw [List.flatten_append, List.flatten_singleton, endsInNewline_append _ some]

/-- All pieces but the last end in a newline, and the last one does if the text does. -/
theorem endsInNewline_piece (text : List Char) {i : Nat} (inside : i < (pieces text).length) :
    endsInNewline (pieces text)[i] = decide (i + 1 < (pieces text).length ∨ endsInNewline text = true) := by
  have cut : pieces text = (pieces text).take i ++ (pieces text)[i] :: (pieces text).drop (i + 1) := by
    rw [List.getElem_cons_drop, List.take_append_drop]
  have some : (pieces text)[i] ≠ [] := ne_nil_of_mem_pieces (List.getElem_mem inside)
  have pieced := pieced_pieces text
  rw [cut] at pieced
  obtain ⟨-, tail, -⟩ := pieced.of_append
  by_cases last : i + 1 < (pieces text).length
  · have more : (pieces text).drop (i + 1) ≠ [] := by simpa using last
    have front : Pieced ([(pieces text)[i]] ++ (pieces text).drop (i + 1)) := tail
    obtain ⟨-, -, closed⟩ := front.of_append
    obtain ⟨line, -, ends⟩ := closed more _ (List.mem_singleton.mpr rfl)
    simp [last, ends]
  · have none : (pieces text).drop (i + 1) = [] := by simpa using last
    rw [none] at cut
    have whole : endsInNewline text = endsInNewline (pieces text)[i] := by
      rw [← endsInNewline_flatten ((pieces text).take i) some, ← cut, flatten_pieces]
    simp [last, whole]

/-! ### Lines -/

theorem unterminated_loose (free : '\n' ∉ piece) : unterminated piece = piece := by
  unfold unterminated
  split
  · next back same =>
    exact absurd (List.mem_reverse.mp (same ▸ List.mem_cons_self)) free
  · next back same =>
    exact absurd (List.mem_reverse.mp (same ▸ List.mem_cons_self)) free
  · rfl

theorem unterminated_crlf (line : List Char) : unterminated (line ++ ['\r', '\n']) = line := by
  simp [unterminated]

theorem unterminated_lf (plain : line.getLast? ≠ some '\r') : unterminated (line ++ ['\n']) = line := by
  unfold unterminated
  split
  · next back same =>
    have back_eq : line.reverse = '\r' :: back := by simpa using same
    exact absurd (by rw [List.getLast?_eq_head?_reverse, back_eq]; rfl) plain
  · next back other same =>
    have back_eq : line.reverse = back := by simpa using same
    rw [← back_eq, List.reverse_reverse]
  · next other =>
    exact absurd (by simp) (other line.reverse)

/-- A line that ends in a newline ends before it or before the carriage return that stands there. -/
theorem unterminated_closed (line : List Char) :
    (line.getLast? = some '\r' ∧ line = unterminated (line ++ ['\n']) ++ ['\r']) ∨
      (line.getLast? ≠ some '\r' ∧ line = unterminated (line ++ ['\n'])) := by
  by_cases returns : line.getLast? = some '\r'
  · left
    obtain ⟨front, rfl⟩ := List.getLast?_eq_some_iff.mp returns
    refine ⟨returns, ?_⟩
    rw [List.append_assoc, List.singleton_append, unterminated_crlf]
  · right
    exact ⟨returns, (unterminated_lf returns).symm⟩

theorem newline_not_mem_unterminated {piece : List Char} {rest : List (List Char)} (pieced : Pieced (piece :: rest)) :
    '\n' ∉ unterminated piece := by
  cases pieced with
  | loose some free =>
    rw [unterminated_loose free]
    exact free
  | @closed line _ free more =>
    rcases unterminated_closed line with ⟨-, same⟩ | ⟨-, same⟩
    · intro inside
      exact free (by rw [same]; exact List.mem_append_left _ inside)
    · rw [← same]
      exact free

theorem newline_not_mem_lines {text : List Char} : ∀ line ∈ lines text, '\n' ∉ line := by
  intro line inside
  obtain ⟨piece, member, rfl⟩ := List.mem_map.mp inside
  obtain ⟨front, back, cut⟩ := List.append_of_mem member
  have pieced := pieced_pieces text
  rw [cut] at pieced
  exact newline_not_mem_unterminated pieced.of_append.2.1

theorem length_lines (text : List Char) : (lines text).length = (pieces text).length := List.length_map _

/-- The last line of a text that does not end in a newline is not empty. -/
theorem getLast?_lines (loose : endsInNewline text = false) : ∀ line, (lines text).getLast? = some line → line ≠ [] := by
  intro line last
  have present : pieces text ≠ [] := by
    intro none
    rw [lines, none] at last
    cases last
  obtain ⟨front, piece, cut⟩ : ∃ front piece, pieces text = front ++ [piece] :=
    ⟨_, _, (List.dropLast_concat_getLast present).symm⟩
  have some : piece ≠ [] := ne_nil_of_mem_pieces (cut ▸ List.mem_append_right front (List.mem_singleton.mpr rfl))
  have ends : endsInNewline piece = false := by
    rw [← endsInNewline_flatten front some, ← cut, flatten_pieces, loose]
  have pieced := pieced_pieces text
  rw [cut] at pieced
  rw [lines, cut, List.map_append, List.map_singleton, List.getLast?_concat, Option.some.injEq] at last
  cases pieced.of_append.2.1 with
  | loose _ free =>
    rw [unterminated_loose free] at last
    exact last ▸ some
  | closed free more => simp at ends

/-! ### Joined lines -/

theorem join_concat (separator : List Char) (front : List (List Char)) (last : List Char) :
    join separator (front ++ [last]) = (front.map (· ++ separator)).flatten ++ last := by
  induction front with
  | nil => simp [join]
  | cons first more ih =>
    have some : more ++ [last] ≠ [] := by simp
    rw [List.cons_append, join, List.intercalate_cons_of_ne_nil some, ← join, ih]
    simp

/-! ### Line endings -/

/-- Lines with a line ending after each. The last one goes without it unless it is wanted. -/
def withEndings (ending : List Char) (wanted : Bool) : List (List Char) → List (List Char)
  | [] => []
  | [line] => [if wanted then line ++ ending else line]
  | line :: next :: more => (line ++ ending) :: withEndings ending wanted (next :: more)

/-- Lines with their endings are lines that are joined, with one ending more if it is wanted. -/
theorem flatten_withEndings (ending : List Char) (wanted : Bool) (some : parts ≠ []) :
    (withEndings ending wanted parts).flatten = join ending parts ++ if wanted then ending else [] := by
  induction parts with
  | nil => exact absurd rfl some
  | cons line more ih =>
    cases more with
    | nil => cases wanted <;> simp [withEndings, join]
    | cons next rest =>
      rw [withEndings, List.flatten_cons, ih (List.cons_ne_nil next rest)]
      simp [join, List.intercalate_cons_cons]

/-- An ending: a newline, with a carriage return before it or not. -/
def IsEnding (ending : List Char) : Prop := ending = ['\r', '\n'] ∨ ending = ['\n']

/-- A text begins with its first line. The ending behind that may be missing at the end of the text. -/
theorem cut_lines_cons {later : List (List Char)} (lines_eq : lines text = line :: later) :
    ∃ ending rest, text = line ++ (ending ++ rest) ∧ '\n' ∉ line ∧ lines rest = later ∧ (IsEnding ending ∨ ending = [] ∧ rest = []) := by
  have pieced := pieced_pieces text
  have whole := flatten_pieces text
  rw [lines] at lines_eq
  generalize pieces text = parts at pieced whole lines_eq
  subst whole
  cases pieced with
  | none => cases lines_eq
  | loose _ free =>
    obtain ⟨rfl, rfl⟩ := List.cons.inj lines_eq
    rw [unterminated_loose free]
    exact ⟨[], [], by simp, free, rfl, .inr ⟨rfl, rfl⟩⟩
  | @closed line rest free more =>
    obtain ⟨rfl, rfl⟩ := List.cons.inj lines_eq
    have inside := newline_not_mem_unterminated (.closed free more)
    have later : lines rest.flatten = rest.map unterminated := by rw [lines, more.pieces_flatten]
    have cut := unterminated_closed line
    generalize unterminated (line ++ ['\n']) = kept at inside cut
    rcases cut with ⟨-, rfl⟩ | ⟨-, rfl⟩
    · exact ⟨['\r', '\n'], rest.flatten, by simp, inside, later, .inl (.inl rfl)⟩
    · exact ⟨['\n'], rest.flatten, by simp, inside, later, .inl (.inr rfl)⟩

/-- What holds of the empty text, and of a text if it holds of what follows the first line, holds of every text. -/
theorem lines_induction {motive : List Char → Prop} (nil : motive [])
    (cons : ∀ line ending rest, '\n' ∉ line → lines (line ++ (ending ++ rest)) = line :: lines rest →
      (IsEnding ending ∨ ending = [] ∧ rest = []) → motive rest → motive (line ++ (ending ++ rest)))
    (text : List Char) : motive text := by
  generalize lines_eq : lines text = parts
  induction parts generalizing text with
  | nil =>
    have none : text = [] := pieces_eq_nil.mp (List.map_eq_nil_iff.mp lines_eq)
    exact none ▸ nil
  | cons line later ih =>
    obtain ⟨ending, rest, rfl, free, rfl, isEnding⟩ := cut_lines_cons lines_eq
    exact cons line ending rest free lines_eq isEnding (ih rest rfl)

theorem IsEnding.closes {ending : List Char} (isEnding : IsEnding ending) (free : '\n' ∉ line) :
    ∃ front, '\n' ∉ front ∧ line ++ ending = front ++ ['\n'] := by
  rcases isEnding with rfl | rfl
  · exact ⟨line ++ ['\r'], by simp [free], by simp⟩
  · exact ⟨line, free, rfl⟩

theorem closed_withEndings {ending : List Char} (isEnding : IsEnding ending) (free : ∀ line ∈ parts, '\n' ∉ line) :
    Closed (withEndings ending true parts) := by
  induction parts with
  | nil => exact fun _ inside => absurd inside List.not_mem_nil
  | cons line more ih =>
    obtain ⟨line_free, rest_free⟩ := List.forall_mem_cons.mp free
    have first := isEnding.closes line_free
    cases more with
    | nil =>
      intro piece inside
      obtain rfl := List.mem_singleton.mp inside
      exact first
    | cons next rest =>
      intro piece inside
      rcases List.mem_cons.mp inside with rfl | inside
      · exact first
      · exact ih rest_free piece inside

/-- Lines of which the last is not empty are pieces when each but the last has its ending. -/
theorem pieced_withEndings {ending : List Char} (isEnding : IsEnding ending) (free : ∀ line ∈ parts, '\n' ∉ line)
    (last : ∀ line, parts.getLast? = some line → line ≠ []) : Pieced (withEndings ending false parts) := by
  induction parts with
  | nil => exact .none
  | cons line more ih =>
    obtain ⟨line_free, rest_free⟩ := List.forall_mem_cons.mp free
    cases more with
    | nil => exact .loose (last line rfl) line_free
    | cons next rest =>
      obtain ⟨front, front_free, same⟩ := isEnding.closes line_free
      rw [withEndings, same]
      refine .closed front_free (ih rest_free ?_)
      intro other found
      exact last other (by rwa [List.getLast?_cons_cons])

/-- Lines of which the last is not empty end in a newline when they have their endings, if the last one is wanted. -/
theorem endsInNewline_withEndings {ending : List Char} (isEnding : IsEnding ending) (wanted : Bool)
    (last : parts.getLast? = some line) (some : line ≠ []) (free : '\n' ∉ line) :
    (withEndings ending wanted parts).flatten ≠ [] ∧ endsInNewline (withEndings ending wanted parts).flatten = wanted := by
  obtain ⟨front, rfl⟩ := List.getLast?_eq_some_iff.mp last
  rw [flatten_withEndings ending wanted (by simp), join_concat, List.append_assoc]
  have present : line ++ (if wanted = true then ending else []) ≠ [] := by simp [some]
  refine ⟨by simp [some], ?_⟩
  rw [endsInNewline_append _ present]
  cases wanted with
  | true => rcases isEnding with rfl | rfl <;> simp [endsInNewline]
  | false => simpa using endsInNewline_free free

/-- Every newline of the text has a carriage return before it. -/
def Crlf (text : List Char) : Prop := ∀ front back, text = front ++ '\n' :: back → front.getLast? = some '\r'

theorem crlf_free (free : '\n' ∉ text) : Crlf text := by
  intro front back same
  exact absurd (by simp [same]) free

theorem Crlf.append {more : List Char} (first : Crlf text) (second : Crlf more) : Crlf (text ++ more) := by
  intro front back same
  rcases List.append_eq_append_iff.mp same with ⟨between, rfl, rest⟩ | ⟨between, rfl, rest⟩
  · have returns := second between back rest
    rw [List.getLast?_append, returns]
    rfl
  · cases between with
    | nil =>
      have returns := second [] back (by simpa using rest.symm)
      cases returns
    | cons c between =>
      obtain ⟨rfl, rfl⟩ := List.cons.inj rest
      exact first front between rfl

theorem Crlf.flatten (each : ∀ piece ∈ parts, Crlf piece) : Crlf parts.flatten := by
  induction parts with
  | nil => exact crlf_free List.not_mem_nil
  | cons piece more ih =>
    obtain ⟨first, rest⟩ := List.forall_mem_cons.mp each
    rw [List.flatten_cons]
    exact first.append (ih rest)

/-- Each piece of a text has a carriage return before its newline if all newlines of the text have one. -/
theorem Crlf.of_mem_pieces (crlf : Crlf text) : ∀ piece ∈ pieces text, Crlf piece := by
  have cut := pieced_pieces text
  rw [← flatten_pieces text] at crlf
  generalize pieces text = parts at cut crlf
  induction cut with
  | none => exact fun _ inside => absurd inside List.not_mem_nil
  | loose some free =>
    intro piece inside
    obtain rfl := List.mem_singleton.mp inside
    exact crlf_free free
  | @closed line rest free more ih =>
    intro piece inside
    rcases List.mem_cons.mp inside with rfl | inside
    · intro front back same
      exact crlf front (back ++ rest.flatten) (by simp [same])
    · refine ih ?_ piece inside
      intro front back same
      have returns := crlf (line ++ '\n' :: front) back (by simp [same])
      -- the carriage return cannot be the newline of the line before
      rw [List.getLast?_append, List.getLast?_cons] at returns
      cases last : front.getLast? with
      | none => simp [last] at returns
      | some c => simpa [last] using returns

end GatedRepair.Text
