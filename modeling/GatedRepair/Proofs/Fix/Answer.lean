import GatedRepair.Proofs.Fix.Label
import GatedRepair.Proofs.Fix.LongestRun

/-!
# Answers in the format that is asked for

A response in the format of the rules, with a label, a fence, code and the closing fence, gives exactly its code and its label
(`ofResponse_print`). In the text before the fence, in the code and behind it there are no three backquotes, so the pattern of a
fence can begin and end in one place only (`ways_fence_eq_nil`).
-/

namespace GatedRepair.Extraction

open Text Pattern

/-! ## Needles -/

section
variable {α : Type} {needle front back : List α} {c : α}

theorem prefix_of_foreign (foreign : c ∉ needle) (begins : needle <+: front ++ c :: back) : needle <+: front := by
  by_cases short : needle.length ≤ front.length
  · exact List.prefix_of_prefix_length_le begins (List.prefix_append front _) short
  · have longer : front ++ [c] <+: needle := by
      refine List.prefix_of_prefix_length_le ⟨back, by simp⟩ begins ?_
      rw [List.length_append, List.length_singleton]
      omega
    exact absurd (longer.subset (by simp)) foreign

/-- A text that is found behind elements it does not hold stands behind them. -/
theorem infix_of_foreign (some : needle ≠ []) (foreign : ∀ c ∈ front, c ∉ needle) (inside : needle <:+: front ++ back) :
    needle <:+: back := by
  induction front with
  | nil => exact inside
  | cons c front ih =>
    obtain ⟨first, others⟩ := List.forall_mem_cons.mp foreign
    rcases List.infix_cons_iff.mp inside with begins | later
    · obtain ⟨d, more, rfl⟩ := List.exists_cons_of_ne_nil some
      obtain ⟨rfl, -⟩ := List.cons_prefix_cons.mp begins
      exact absurd List.mem_cons_self first
    · exact ih others later

end

/-! ## Fences -/

/-- Three backquotes. -/
def backquotes : List Char := "```".toList

section
variable {text front late rest : List Char} {before : Option Char} {groups : Groups} {parts : List Pattern}

/-- Where no three backquotes stand, no pattern matches that begins with them. -/
theorem ways_fence_eq_nil (absent : ¬ backquotes <+: text) :
    (all (Pattern.text "```" :: parts)).ways (.of before text groups) = [] := by
  refine List.eq_nil_iff_forall_not_mem.mpr fun stop member => ?_
  obtain ⟨taken, split, takes, -⟩ := takes_of_mem_ways member
  obtain ⟨fence, others, rfl, isFence, -⟩ := takes_cons.mp takes
  refine absent ⟨others ++ stop.rest, ?_⟩
  rw [Place.rest_of, List.append_assoc] at split
  rw [split, takes_text.mp isFence, backquotes]

/-- In a line without three backquotes no fence begins. -/
theorem ways_fence_in_line (plain : ¬ backquotes <:+: text) (split : text ++ ['\n'] = front ++ late) (some : late ≠ []) :
    (all (Pattern.text "```" :: parts)).ways (.of before (late ++ rest) groups) = [] := by
  obtain ⟨line, last, rfl⟩ := (List.eq_nil_or_concat' late).resolve_left some
  rw [← List.append_assoc] at split
  obtain ⟨rfl, ends⟩ := List.append_inj' split rfl
  obtain rfl : '\n' = last := by simpa using ends
  refine ways_fence_eq_nil fun begins => plain ?_
  rw [List.append_assoc, List.singleton_append] at begins
  have inside := prefix_of_foreign (by decide) begins
  exact inside.isInfix.trans (List.suffix_append front line).isInfix

end

/-! ## Answers -/

/-- An answer to a request: its label, the name of the language, the code, and what follows the closing fence. -/
structure Answer where
  label : String
  tag : String
  code : String
  tail : String

namespace Answer

/-- A character that is cut off the ends of a label. -/
def isTrimmed (c : Char) : Bool := isEmphasis c || c == '"'

/-- The answer in the format that is asked for. -/
def print (a : Answer) : String := "APPROACH: " ++ a.label ++ "\n```" ++ a.tag ++ "\n" ++ a.code ++ "\n```" ++ a.tail

/-- The parts of the answer cannot be mixed up. -/
structure Formed (a : Answer) : Prop where
  labelOnLine : '\n' ∉ a.label.toList
  labelPlain : ¬ backquotes <:+: a.label.toList
  labelBegins : ∃ c, a.label.toList.head? = some c ∧ isTrimmed c = false
  labelEnds : ∃ c, a.label.toList.getLast? = some c ∧ isTrimmed c = false
  tag : ∀ c ∈ a.tag.toList, c ≠ '`' ∧ c ≠ '\n'
  codeFull : allBlank a.code.toList = false
  codePlain : ¬ backquotes <:+: a.code.toList
  codeEnds : ∀ c, a.code.toList.getLast? = some c → c ≠ '\n' ∧ c ≠ '\r'
  tailPlain : ¬ backquotes <:+: a.tail.toList

variable {a : Answer}

/-- The fence of an answer, and what is behind it. -/
def fenceOn (a : Answer) : List Char :=
  backquotes ++ (a.tag.toList ++ '\n' :: (a.code.toList ++ ['\n'] ++ (backquotes ++ a.tail.toList)))

theorem toList_print (a : Answer) : a.print.toList = "APPROACH: ".toList ++ a.label.toList ++ ['\n'] ++ a.fenceOn := by
  have mark : "\n```".toList = '\n' :: backquotes := by decide
  have newline : "\n".toList = ['\n'] := by decide
  unfold print fenceOn
  simp only [String.toList_append, mark, newline, List.append_assoc, List.cons_append, List.nil_append]

/-! ### The code -/

theorem Formed.headPlain (formed : a.Formed) : ¬ backquotes <:+: "APPROACH: ".toList ++ a.label.toList := by
  have foreign : "APPROACH: ".toList.all (· ∉ backquotes) = true := by decide
  intro inside
  refine formed.labelPlain (infix_of_foreign (by decide) (fun c spelt => ?_) inside)
  exact of_decide_eq_true (List.all_eq_true.mp foreign c spelt)

/-- Where the fence ends, and the code in it. -/
def fenceEnd (a : Answer) : Place :=
  .of (some '`') a.tail.toList
    [("body", a.code.toList ++ ['\n'] ++ (backquotes ++ a.tail.toList), (a.code.toList ++ ['\n']).length)]

/-- The fence is taken with the code in it. -/
theorem Formed.prefers_fence (formed : a.Formed) : Prefers fence (.of (some '\n') a.fenceOn []) a.fenceEnd := by
  refine .cons (prefers_text "```") (.cons (prefers_run (fun c inside => ?_) ?_)
    (.cons (prefers_char '\n') (.cons_few (fun _ _ => rfl) (fun front late other more split some => ?_)
      (.cons (prefers_text "```") prefers_nil))))
  · obtain ⟨quote, newline⟩ := formed.tag c inside
    simp [quote, newline]
  · rintro c ⟨⟩
    rfl
  · exact ways_fence_in_line formed.codePlain split some

/-- Between fences stands the code with its newline, and nothing else. -/
theorem Formed.bodies_print (formed : a.Formed) : bodies a.print.toList = [a.code.toList ++ ['\n']] := by
  have first : fence.first? a.print.toList = some ⟨.of (some '\n') a.fenceOn [], a.fenceEnd⟩ := by
    rw [toList_print, first?, firstFrom?_append, List.getLast?_concat, Option.some_or]
    · exact firstFrom?_of_prefers formed.prefers_fence
    · intro early late split some
      exact ways_fence_in_line formed.headPlain split some
  have later : fence.firstFrom? (some '`') a.tail.toList a.tail.toList.length = none := by
    refine firstFrom?_eq_none fun early late split => ways_fence_eq_nil fun begins => formed.tailPlain ?_
    rw [split]
    exact begins.isInfix.trans (List.suffix_append early late).isInfix
  rw [bodies, findAll_eq, each_eq_singleton (by simp [toList_print]) first later, List.filterMap_cons_some, List.filterMap_nil]
  rw [fenceEnd, Found.group?_cons, if_pos rfl, List.take_left]

theorem Formed.code?_print (formed : a.Formed) : code? a.print = some ⟨a.code, .fenced, fencedConfidence⟩ := by
  have full : allBlank (a.code.toList ++ ['\n']) = false := by
    simp [allBlank, List.all_append, show a.code.toList.all isBlank = false from formed.codeFull]
  have trimmed : dropEndWhile isLineEnd (a.code.toList ++ ['\n']) = a.code.toList := by
    rw [dropEndWhile_append (List.forall_mem_singleton.mpr rfl)]
    rcases List.eq_nil_or_concat' a.code.toList with none | ⟨front, last, cut⟩
    · rw [none]
      rfl
    · obtain ⟨newline, returns⟩ := formed.codeEnds last (by rw [cut, List.getLast?_concat])
      rw [cut]
      exact dropEndWhile_concat (by simp [isLineEnd, newline, returns]) front
  unfold code?
  rw [fenced?_of_single formed.bodies_print full, trimmed, String.ofList_toList]

/-! ### The label -/

theorem ends_of_isTrimmed {first : Option Char} {p : Char → Bool} (wider : ∀ c, p c = true → isTrimmed c = true)
    (kept : ∃ c, first = some c ∧ isTrimmed c = false) : ∃ c, first = some c ∧ p c = false := by
  obtain ⟨c, rfl, other⟩ := kept
  refine ⟨c, rfl, ?_⟩
  cases cut : p c with
  | false => rfl
  | true => rw [wider c cut] at other; cases other

/-- A label without anything to cut off is kept. -/
theorem Formed.cleanLabel?_label (formed : a.Formed) :
    cleanLabel? a.label.toList = some (String.ofList ((lowercase a.label.toList).take labelLimit)) := by
  have blank : ∀ c, isBlank c = true → isTrimmed c = true := fun c cut => by simp [isTrimmed, isEmphasis, cut]
  have quote : ∀ c, (c == '"') = true → isTrimmed c = true := fun c cut => by simp [isTrimmed, cut]
  have framed : Framed a.label.toList :=
    ⟨ends_of_isTrimmed blank formed.labelBegins, ends_of_isTrimmed blank formed.labelEnds⟩
  have full : a.label.toList.isEmpty = false := by simpa using framed.ne_nil
  unfold cleanLabel?
  simp only [framed.trim_eq, dropWhile_eq_self (ends_of_isTrimmed quote formed.labelBegins),
    dropEndWhile_eq_self (ends_of_isTrimmed quote formed.labelEnds), full, Bool.false_eq_true, if_false]

theorem Formed.approach?_print (formed : a.Formed) :
    approach? a.print = some (String.ofList ((lowercase a.label.toList).take labelLimit)) := by
  have mark : ∀ c, isEmphasis c = true → isTrimmed c = true := fun c cut => by simp [isTrimmed, cut]
  have begins := ends_of_isTrimmed mark formed.labelBegins
  have spelt : a.print.toList =
      [] ++ ("APPROACH".toList ++ ([] ++ ':' :: ([' '] ++ (a.label.toList ++ (['\n'] ++ a.fenceOn))))) := by
    have word : "APPROACH: ".toList = "APPROACH".toList ++ ':' :: [' '] := by decide
    simp only [toList_print, word, List.append_assoc, List.cons_append, List.nil_append]
  have worded : Worded a.print.toList [] "APPROACH".toList [] _ :=
    ⟨spelt, by simp, by decide, by simp, fun c head => by cases head; rfl⟩
  have full : a.label.toList.all isEmphasis = false := by
    obtain ⟨c, head, other⟩ := begins
    exact List.all_eq_false.mpr ⟨c, List.mem_of_head? head, by simp [other]⟩
  have found : labelAt? a.print.toList = some a.label.toList := by
    obtain ⟨c, more, body⟩ := exists_full full
    unfold labelAt?
    rw [worded.behindWord?]
    simp only
    rw [labelIn?_marks (List.forall_mem_singleton.mpr rfl) (dropWhile_append_full body _), labelIn?_line formed.labelOnLine full (.inl (.inr rfl)),
      dropWhile_eq_self begins, dropEndWhile_eq_self (ends_of_isTrimmed mark formed.labelEnds)]
  rw [approach?_eq, labelFrom?_here (.inl rfl) found, Option.bind_some, formed.cleanLabel?_label]

/-- A response in the format that is asked for is a usable candidate with exactly its code and its label. -/
theorem ofResponse_print (formed : a.Formed) (strategy : Strategy) :
    Candidate.ofResponse strategy (.ok a.print) =
      { strategy, approach := String.ofList ((lowercase a.label.toList).take 60)
        extracted := some ⟨a.code, .fenced, .nearest (85 / 100)⟩, confidence := .nearest (85 / 100), error := none } ∧
      (Candidate.ofResponse strategy (.ok a.print)).isUsable = true := by
  have made : Candidate.ofResponse strategy (.ok a.print) = { strategy, approach := _, extracted := _, confidence := _, error := none } := rfl
  rw [made, formed.code?_print, formed.approach?_print]
  exact ⟨rfl, rfl⟩

/-- Two backquotes in the code and behind it are no fence, and a second label is none. -/
theorem two_backquotes_are_no_fence :
    let a : Answer := ⟨"Guard \"x\" *First", "ts", "\n  let s = \"``\";\n\n  y``", "``\nAPPROACH: other\n"⟩
    a.Formed ∧ Candidate.ofResponse .creative (.ok a.print) =
      { strategy := .creative, approach := "guard \"x\" *first"
        extracted := some ⟨"\n  let s = \"``\";\n\n  y``", .fenced, .nearest (85 / 100)⟩, confidence := .nearest (85 / 100)
        error := none } := by
  intro a
  have formed : a.Formed := {
    labelOnLine := by decide +kernel
    labelPlain := by decide +kernel
    labelBegins := ⟨'G', by decide +kernel⟩
    labelEnds := ⟨'t', by decide +kernel⟩
    tag := by simp [a]
    codeFull := by decide +kernel
    codePlain := by decide +kernel
    codeEnds := by
      intro c last
      have ends : a.code.toList.getLast? = some '`' := by decide +kernel
      rw [ends] at last
      obtain rfl := Option.some.inj last
      decide
    tailPlain := by decide +kernel }
  have lowered : String.ofList ((lowercase a.label.toList).take 60) = "guard \"x\" *first" := by decide +kernel
  have made := (ofResponse_print formed .creative).1
  rw [lowered] at made
  exact ⟨formed, made⟩

end Answer

end GatedRepair.Extraction
