import GatedRepair.Edit
import GatedRepair.Proofs.Fix.Extraction

/-!
# What a splice keeps and what it puts in

A splice fails only when its region does not lie in the file. Else it puts the lines of the code, each with the line ending of
the file, in the place of the region's lines, and all other lines stay as they are (`splice_replaces_region`).
-/

namespace GatedRepair.Edit

open Text

variable {content code text : List Char} {r : Region}

/-! ## Line endings -/

theorem isSome_fromFirst? {needle : List Char} (text : List Char) :
    (fromFirst? needle text).isSome = true ↔ needle <:+: text := by
  induction text with
  | nil =>
    rw [fromFirst?]
    cases needle with
    | nil => simp
    | cons c rest => simp
  | cons c rest ih =>
    rw [fromFirst?, List.infix_cons_iff, ← ih]
    by_cases here : needle.isPrefixOf (c :: rest) = true
    · rw [if_pos here]
      simp [List.isPrefixOf_iff_prefix.mp here]
    · rw [if_neg here]
      constructor
      · exact .inr
      · rintro (front | later)
        · exact absurd (List.isPrefixOf_iff_prefix.mpr front) here
        · exact later

theorem isEnding_lineEnding (content : List Char) : IsEnding (lineEnding content) := by
  unfold lineEnding
  split
  · exact .inl rfl
  · exact .inr rfl

theorem lineEnding_crlf (some : '\n' ∈ content) (crlf : Crlf content) : lineEnding content = ['\r', '\n'] := by
  obtain ⟨front, back, same⟩ := List.append_of_mem some
  obtain ⟨before, rfl⟩ := List.getLast?_eq_some_iff.mp (crlf front back same)
  have stands : ['\r', '\n'] <:+: content := ⟨before, back, by simp [same]⟩
  have found := (isSome_fromFirst? content).mpr stands
  rw [lineEnding, if_pos found]

/-! ## The code's lines -/

theorem join_ne_nil {separator line : List Char} {lines : List (List Char)} (last : lines.getLast? = some line)
    (some : line ≠ []) : join separator lines ≠ [] := by
  obtain ⟨front, rfl⟩ := List.getLast?_eq_some_iff.mp last
  rw [join_concat]
  simp [some]

theorem getLast?_solid (solid : Solid code) : ∃ line, (lines code).getLast? = some line ∧ line ≠ [] := by
  have present : lines code ≠ [] := by
    intro none
    have empty : code = [] := pieces_eq_nil.mp (List.map_eq_nil_iff.mp none)
    cases empty ▸ solid.notBlank
  refine ⟨_, List.getLast?_eq_some_getLast present, ?_⟩
  exact getLast?_lines solid.notOpen _ (List.getLast?_eq_some_getLast present)

/-- Joined lines of which the last is not empty are the lines with the line ending. -/
theorem ended_join {lines : List (List Char)} {line : List Char} (last : lines.getLast? = some line) (some : line ≠ [])
    (ending : List Char) (wanted : Bool) :
    ended ending wanted (join ending lines) = (withEndings ending wanted lines).flatten := by
  have present : lines ≠ [] := by
    rintro rfl
    cases last
  have fresh : join ending lines ≠ [] := join_ne_nil last some
  rw [flatten_withEndings ending wanted present, ended]
  cases wanted <;> simp [fresh]

theorem ended_respelled (solid : Solid code) (ending : List Char) (wanted : Bool) :
    ended ending wanted (respelled ending code) = (withEndings ending wanted (lines code)).flatten := by
  obtain ⟨line, last, some⟩ := getLast?_solid solid
  exact ended_join last some ending wanted

/-- Code with line endings of a kind has no others. -/
theorem crlf_ended (code : List Char) (wanted : Bool) : Crlf (ended ['\r', '\n'] wanted (respelled ['\r', '\n'] code)) := by
  have ending : Crlf ['\r', '\n'] := by
    intro front back same
    -- the only newline is the second of the two characters
    match front, same with
    | [c], same =>
      obtain ⟨rfl, -⟩ := List.cons.inj same
      rfl
    | c :: d :: more, same => simp at same
  have joined : Crlf (respelled ['\r', '\n'] code) := by
    unfold respelled
    have free := @newline_not_mem_lines code
    generalize lines code = parts at free
    rcases List.eq_nil_or_concat parts with rfl | ⟨front, last, rfl⟩
    · exact crlf_free List.not_mem_nil
    · rw [List.concat_eq_append] at free ⊢
      rw [join_concat]
      refine Crlf.append (Crlf.flatten ?_) (crlf_free (free last (by simp)))
      intro piece inside
      obtain ⟨line, member, rfl⟩ := List.mem_map.mp inside
      exact (crlf_free (free line (List.mem_append_left _ member))).append ending
  unfold ended
  split
  · exact joined.append ending
  · exact joined

/-! ## Splices -/

/-- A splice into a region that the file has. -/
theorem spliceChars_region (fits : r.fits (pieces content).length = true) (code : List Char) :
    spliceChars content (.region r) code = .ok (((pieces content).take (r.start - 1)).flatten ++
      ended (lineEnding content) (decide (r.stop < (pieces content).length ∨ endsInNewline content = true))
        (respelled (lineEnding content) code) ++ ((pieces content).drop r.stop).flatten) := by
  obtain ⟨first, order, last⟩ := Region.fits_iff.mp fits
  have inside : r.stop - 1 < (pieces content).length := by omega
  have closed := endsInNewline_piece content inside
  rw [Nat.sub_add_cancel (Nat.le_trans first order)] at closed
  simp only [spliceChars, fits, if_true, List.getElem?_eq_getElem inside, Option.map_some, Option.getD_some, closed]

/-- A splice into a region fails only when the file does not have the region. -/
theorem splice_isOk_iff (content code : String) (r : Region) :
    (∃ text, splice content (.region r) code = .ok text) ↔ r.fits (pieces content.toList).length = true := by
  constructor
  · rintro ⟨text, spliced⟩
    by_contra outside
    simp [splice, spliceChars, outside, Except.map] at spliced
  · intro fits
    rw [splice, spliceChars_region fits]
    exact ⟨_, rfl⟩

/-- Pieces around solid code with line endings are pieces. -/
theorem pieced_replaced (fits : r.fits (pieces content).length = true) (solid : Solid code) :
    Pieced ((pieces content).take (r.start - 1) ++
      withEndings (lineEnding content) (decide (r.stop < (pieces content).length ∨ endsInNewline content = true))
        (lines code) ++ (pieces content).drop r.stop) := by
  obtain ⟨first, order, last⟩ := Region.fits_iff.mp fits
  have pieced := pieced_pieces content
  have front : Closed ((pieces content).take (r.start - 1)) := by
    rw [← List.take_append_drop (r.start - 1) (pieces content)] at pieced
    refine pieced.of_append.2.2 ?_
    intro none
    rw [List.drop_eq_nil_iff] at none
    omega
  have back : Pieced ((pieces content).drop r.stop) := by
    rw [← List.take_append_drop r.stop (pieces content)] at pieced
    exact pieced.of_append.2.1
  rw [List.append_assoc]
  apply Pieced.append front
  -- without its last newline the file can only end in the region, and then nothing comes after the code
  by_cases wanted : r.stop < (pieces content).length ∨ endsInNewline content = true
  · rw [decide_eq_true wanted]
    exact Pieced.append (closed_withEndings (isEnding_lineEnding content) newline_not_mem_lines) back
  · have none : (pieces content).drop r.stop = [] := by
      rw [List.drop_eq_nil_iff]
      omega
    obtain ⟨line, found, some⟩ := getLast?_solid solid
    rw [decide_eq_false wanted, none, List.append_nil]
    refine pieced_withEndings (isEnding_lineEnding content) newline_not_mem_lines ?_
    intro other same
    obtain rfl := Option.some.inj (found.symm.trans same)
    exact some

/-- The last newline of a file, or the lack of one, stays. -/
theorem endsInNewline_replaced (fits : r.fits (pieces content).length = true) (solid : Solid code) :
    endsInNewline ((pieces content).take (r.start - 1) ++
      withEndings (lineEnding content) (decide (r.stop < (pieces content).length ∨ endsInNewline content = true))
        (lines code) ++ (pieces content).drop r.stop).flatten = endsInNewline content := by
  obtain ⟨-, -, last⟩ := Region.fits_iff.mp fits
  rw [List.flatten_append]
  by_cases more : r.stop < (pieces content).length
  · have some : ((pieces content).drop r.stop).flatten ≠ [] := by
      rw [List.drop_eq_getElem_cons more, List.flatten_cons]
      have := ne_nil_of_mem_pieces (List.getElem_mem more)
      simp [this]
    have whole : content = ((pieces content).take r.stop).flatten ++ ((pieces content).drop r.stop).flatten := by
      rw [← List.flatten_append, List.take_append_drop, flatten_pieces]
    rw [endsInNewline_append _ some]
    conv_rhs => rw [whole, endsInNewline_append _ some]
  · obtain ⟨line, found, some⟩ := getLast?_solid solid
    have free : '\n' ∉ line := newline_not_mem_lines line (List.mem_of_getLast? found)
    have none : (pieces content).drop r.stop = [] := by
      rw [List.drop_eq_nil_iff]
      omega
    obtain ⟨fresh, ends⟩ := endsInNewline_withEndings (isEnding_lineEnding content)
      (decide (r.stop < (pieces content).length ∨ endsInNewline content = true)) found some free
    rw [none, List.flatten_nil, List.append_nil, List.flatten_append, endsInNewline_append _ fresh, ends]
    simp [more]

/-- In a text whose newlines all have a carriage return before them, so have those of what a splice makes of it. -/
theorem crlf_splice (some : '\n' ∈ content) (crlf : Crlf content) {target : EditTarget}
    (spliced : spliceChars content target code = .ok text) : Crlf text := by
  cases target with
  | wholeFile =>
    obtain rfl := Except.ok.inj spliced
    rw [lineEnding_crlf some crlf]
    exact crlf_ended code _
  | region r =>
    by_cases fits : r.fits (pieces content).length = true
    · rw [spliceChars_region fits, lineEnding_crlf some crlf] at spliced
      obtain rfl := Except.ok.inj spliced
      have front : Crlf ((pieces content).take (r.start - 1)).flatten :=
        Crlf.flatten fun piece inside => crlf.of_mem_pieces piece (List.mem_of_mem_take inside)
      have back : Crlf ((pieces content).drop r.stop).flatten :=
        Crlf.flatten fun piece inside => crlf.of_mem_pieces piece (List.mem_of_mem_drop inside)
      exact (front.append (crlf_ended code _)).append back
    · simp [spliceChars, fits] at spliced

theorem spliceChars_wholeFile (some : content ≠ []) (code : List Char) :
    spliceChars content .wholeFile code = spliceChars content (.region ⟨1, (pieces content).length⟩) code := by
  have present : pieces content ≠ [] := fun none => some (pieces_eq_nil.mp none)
  have fits : (⟨1, (pieces content).length⟩ : Region).fits (pieces content).length = true := by
    have := List.length_pos_iff.mpr present
    exact Region.fits_iff.mpr ⟨Nat.le_refl 1, this, Nat.le_refl _⟩
  rw [spliceChars_region fits]
  simp [spliceChars]

/-- A splice into a region succeeds for any code if the file has the region, and only then. Code as it is extracted stands in
the place of the region's lines with the line ending of the file, and the last newline of the file, or the lack of one, stays.
A file in which all newlines have a carriage return stays so, and the whole file is the region of all its lines. -/
theorem splice_replaces_region (content code : String) (r : Region) :
    ((∃ text, splice content (.region r) code = .ok text) ↔
      1 ≤ r.start ∧ r.start ≤ r.stop ∧ r.stop ≤ (pieces content.toList).length) ∧
    (∀ text, Solid code.toList → splice content (.region r) code = .ok text →
      pieces text.toList = (pieces content.toList).take (r.start - 1) ++
          withEndings (lineEnding content.toList)
            (!decide (r.stop = (pieces content.toList).length ∧ endsInNewline content.toList = false)) (lines code.toList) ++
          (pieces content.toList).drop r.stop ∧
        endsInNewline text.toList = endsInNewline content.toList) ∧
    (∀ response found, Extraction.code? response = some found → Solid found.code.toList) ∧
    (∀ target text, '\n' ∈ content.toList → Crlf content.toList → splice content target code = .ok text →
      Crlf text.toList) ∧
    (content ≠ "" → splice content .wholeFile code = splice content (.region ⟨1, (pieces content.toList).length⟩) code) := by
  refine ⟨?_, ?_, ?_, ?_, ?_⟩
  · rw [splice_isOk_iff, Region.fits_iff]
  · intro text solid spliced
    have fits := (splice_isOk_iff content code r).mp ⟨text, spliced⟩
    rw [splice, spliceChars_region fits, ended_respelled solid] at spliced
    obtain rfl := Except.ok.inj spliced
    have wanted : decide (r.stop < (pieces content.toList).length ∨ endsInNewline content.toList = true) =
        !decide (r.stop = (pieces content.toList).length ∧ endsInNewline content.toList = false) := by
      obtain ⟨-, -, last⟩ := Region.fits_iff.mp fits
      cases endsInNewline content.toList with
      | true => simp
      | false =>
        rw [← decide_not, decide_eq_decide]
        simp only [Bool.false_eq_true, or_false, and_true]
        omega
    rw [← wanted, String.toList_ofList, ← List.flatten_append, ← List.flatten_append]
    exact ⟨(pieced_replaced fits solid).pieces_flatten, endsInNewline_replaced fits solid⟩
  · intro response found extracted
    exact Extraction.solid_of_code? extracted
  · intro target text some crlf spliced
    unfold splice at spliced
    cases chars : spliceChars content.toList target code.toList with
    | error e =>
      rw [chars] at spliced
      cases spliced
    | ok made =>
      rw [chars] at spliced
      obtain rfl := Except.ok.inj spliced
      rw [String.toList_ofList]
      exact crlf_splice some crlf chars
  · intro some
    have present : content.toList ≠ [] := by simpa using some
    rw [splice, splice, spliceChars_wholeFile present]

example : splice "a\r\nb\r\nc" (.region ⟨2, 3⟩) "x\ny" = .ok "a\r\nx\r\ny" := by decide +kernel

end GatedRepair.Edit
