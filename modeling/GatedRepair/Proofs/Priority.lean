import GatedRepair.Priority
import GatedRepair.Proofs.Ledger.Merge
import GatedRepair.Proofs.Number.Nearest
import GatedRepair.Proofs.Report.Statistics
import Mathlib.Algebra.Order.AbsoluteValue.Basic
import Mathlib.Algebra.Order.Ring.Unbundled.Rat
import Mathlib.Data.List.Nodup
import Mathlib.Data.Prod.Lex
import Mathlib.Data.Rat.Defs
import Mathlib.Tactic.Linarith

/-!
# The order of repair

Which defects come first, and in which order the defects are taken when the order is worked out anew for each of them.
-/

/-!
## What is left of a ranking

A stable sort and a filter may change places (`mergeSort_filter`). So the defects that are left when some were taken are
ranked as they were before (`rank_filter`), and taking the first one that was not taken yet, again and again, goes down the
ranking from its top.
-/

namespace GatedRepair.Priority

open Number

/-! ### Sorting -/

section
variable {α : Type} {le : α → α → Bool}

/-- A list is cut in one way only into members that pass a test and members that do not. -/
theorem append_eq_of_test {test : α → Bool} {front back front' back' : List α} (same : front ++ back = front' ++ back')
    (passed : ∀ b ∈ front, test b = true) (failed : ∀ b ∈ back, test b = false)
    (passed' : ∀ b ∈ front', test b = true) (failed' : ∀ b ∈ back', test b = false) :
    front = front' ∧ back = back' := by
  have fronts : front = front' := by
    have kept := congrArg (List.filter test) same
    rwa [List.filter_append, List.filter_append, List.filter_eq_self.mpr passed, List.filter_eq_self.mpr passed',
      List.filter_eq_nil_iff.mpr (by simpa using failed), List.filter_eq_nil_iff.mpr (by simpa using failed'),
      List.append_nil, List.append_nil] at kept
  exact ⟨fronts, List.append_cancel_left (fronts ▸ same)⟩

/-- In a sorted list with one more member, those that the member does not precede stand in front of it. -/
theorem mergeSort_cons_cut (trans : ∀ a b c, le a b = true → le b c = true → le a c = true)
    (total : ∀ a b, (le a b || le b a) = true) (a : α) (l : List α) :
    ∃ front back, (a :: l).mergeSort le = front ++ a :: back ∧ l.mergeSort le = front ++ back ∧
      (∀ b ∈ front, (!le a b) = true) ∧ ∀ b ∈ back, (!le a b) = false := by
  obtain ⟨front, back, whole, rest, before⟩ := List.mergeSort_cons trans total a l
  refine ⟨front, back, whole, rest, by simpa using before, fun b member => ?_⟩
  have sorted := List.pairwise_mergeSort trans total (a :: l)
  rw [whole] at sorted
  have after := (List.pairwise_cons.mp (List.pairwise_append.mp sorted).2.1).1 b member
  simpa using after

/-- A stable sort keeps the order of what a filter leaves. -/
theorem mergeSort_filter (trans : ∀ a b c, le a b = true → le b c = true → le a c = true)
    (total : ∀ a b, (le a b || le b a) = true) (keep : α → Bool) (l : List α) :
    (l.filter keep).mergeSort le = (l.mergeSort le).filter keep := by
  induction l with
  | nil => simp
  | cons a l ih =>
    obtain ⟨front, back, whole, rest, before, after⟩ := mergeSort_cons_cut trans total a l
    rw [whole, List.filter_append]
    by_cases kept : keep a = true
    · obtain ⟨front', back', whole', rest', before', after'⟩ := mergeSort_cons_cut trans total a (l.filter keep)
      have same : front' ++ back' = front.filter keep ++ back.filter keep := by
        rw [← rest', ih, rest, List.filter_append]
      have stays {part : List α} {b : α} (member : b ∈ part.filter keep) : b ∈ part := List.mem_of_mem_filter member
      obtain ⟨rfl, rfl⟩ := append_eq_of_test same before' after' (fun b member => before b (stays member))
        (fun b member => after b (stays member))
      rw [List.filter_cons_of_pos kept, whole', List.filter_cons_of_pos kept]
    · rw [List.filter_cons_of_neg kept, List.filter_cons_of_neg kept, ih, rest, List.filter_append]

end

/-! ### Rankings -/

section
variable (round : Rat → Rat) (rates : Rates)

/-- The ranking of what is left is what is left of the ranking, if only identifiers decide what is left. -/
theorem rankWith_filter (keep : String → Bool) (defects : List Defect) :
    rankWith round (defects.filter fun d => keep d.id) rates =
      (rankWith round defects rates).filter fun ranked => keep ranked.id := by
  have trans : ∀ a b c : Ranked, decide (a.score ≤ b.score) = true → decide (b.score ≤ c.score) = true →
      decide (a.score ≤ c.score) = true := by
    intro a b c first second
    exact decide_eq_true (le_trans (of_decide_eq_true first) (of_decide_eq_true second))
  have total : ∀ a b : Ranked, (decide (a.score ≤ b.score) || decide (b.score ≤ a.score)) = true := by
    simpa using fun a b : Ranked => le_total a.score b.score
  unfold rankWith
  rw [← mergeSort_filter trans total, List.filter_map, List.filter_filter, List.filter_filter]
  simp only [Function.comp_def, Bool.and_comm]

theorem rank_filter (keep : String → Bool) (defects : List Defect) :
    rank (defects.filter fun d => keep d.id) rates = (rank defects rates).filter fun ranked => keep ranked.id :=
  rankWith_filter Binary64.rounded rates keep defects

theorem mem_rank {defects : List Defect} {ranked : Ranked} (listed : ranked ∈ rank defects rates) :
    ∃ d ∈ defects, d.isOpen = true ∧ d.id = ranked.id := by
  simp only [rank, rankWith, List.mem_mergeSort, List.mem_map, List.mem_filter] at listed
  obtain ⟨d, ⟨member, isOpen⟩, rfl⟩ := listed
  exact ⟨d, member, isOpen, rfl⟩

theorem nodup_rank {defects : List Defect} (distinct : (Ledger.ids defects).Nodup) :
    ((rank defects rates).map Ranked.id).Nodup := by
  have sorted := (List.mergeSort_perm
    ((defects.filter Defect.isOpen).map fun d => Ranked.mk d.id (score Binary64.rounded d (rates d.typeName d.category)))
    fun left right => decide (left.score ≤ right.score)).map Ranked.id
  refine sorted.nodup_iff.mpr ?_
  rw [List.map_map]
  exact distinct.sublist (List.filter_sublist.map _)

end

/-! ### Without a success -/

theorem score_zero {d : Defect} (small : baseScore d < 2 ^ 53) : score Binary64.rounded d 0 = baseScore d := by
  have share : clamped 0 * 5 = 0 := by decide +kernel
  rw [score, share, Binary64.rounded_zero, sub_zero, Binary64.rounded_nat small]

/-- Where no attempt has succeeded, defects are ranked by the bases of their scores. -/
theorem rank_zero {defects : List Defect} {rates : Rates}
    (failing : ∀ d ∈ defects, rates d.typeName d.category = 0 ∧ baseScore d < 2 ^ 53) :
    rank defects rates = ((defects.filter Defect.isOpen).map fun d => ⟨d.id, baseScore d⟩).mergeSort
      fun left right => decide (left.score ≤ right.score) := by
  have scores : ∀ d ∈ defects.filter Defect.isOpen,
      Ranked.mk d.id (score Binary64.rounded d (rates d.typeName d.category)) = ⟨d.id, baseScore d⟩ := by
    intro d member
    obtain ⟨rate, small⟩ := failing d (List.mem_of_mem_filter member)
    rw [rate, score_zero small]
  rw [rank, rankWith, List.map_congr_left scores]

/-!
## What a ranking goes by

A score packs four things into one number: severity, kind, attempts and past success. Up to nine attempts none of them reaches
over the one before it, so a ranking by exact scores is lexicographic, and what is equal in all four stays in the order given
(`ranking_is_lexicographic`). Scores of 53 bits may lose small differences of past success, but nothing else
(`rank_by_urgency`).
-/

/-! ### Occurrences in order -/

section
variable {α : Type} {order : List α} {before : α → α → Prop} {x y : α}

/-- Of two different members of a list one stands before the other. -/
theorem pair_sublist_or (first : x ∈ order) (second : y ∈ order) (different : x ≠ y) :
    [x, y].Sublist order ∨ [y, x].Sublist order := by
  obtain ⟨front, back, rfl⟩ := List.append_of_mem first
  rcases List.mem_append.mp second with earlier | later
  · refine .inr (List.Sublist.append (List.singleton_sublist.mpr earlier) ?_)
    exact List.singleton_sublist.mpr List.mem_cons_self
  · have behind : y ∈ back := (List.mem_cons.mp later).resolve_left (Ne.symm different)
    refine .inl (List.Sublist.trans ?_ (List.sublist_append_right front (x :: back)))
    exact (List.singleton_sublist.mpr behind).cons_cons x

/-- In a list that is sorted by a strict order, one member stands before another exactly if it comes before it. -/
theorem pair_sublist_iff (sorted : order.Pairwise before) (irrefl : ∀ a, ¬ before a a)
    (asymm : ∀ a b, before a b → ¬ before b a) (first : x ∈ order) (second : y ∈ order) :
    [x, y].Sublist order ↔ before x y := by
  have told {a b : α} (stands : [a, b].Sublist order) : before a b := List.pairwise_iff_forall_sublist.mp sorted stands
  refine ⟨told, fun comes => ?_⟩
  have different : x ≠ y := by
    rintro rfl
    exact irrefl x comes
  exact (pair_sublist_or first second different).resolve_right fun stands => asymm x y comes (told stands)

end

section
variable (round : Rat → Rat) (rates : Rates)

/-- The score of a defect under the share of successes on its type and category. -/
def scoreOf (d : Defect) : Rat := score round d (rates d.typeName d.category)

/-- A defect as a ranking lists it. -/
def listed (d : Defect) : Ranked := ⟨d.id, scoreOf round rates d⟩

/-- One occurrence has the smaller score, or an equal one and the earlier place. -/
def Ahead (x y : Defect × Nat) : Prop :=
  scoreOf round rates x.1 < scoreOf round rates y.1 ∨
    scoreOf round rates x.1 = scoreOf round rates y.1 ∧ x.2 < y.2

theorem Ahead.irrefl (x : Defect × Nat) : ¬ Ahead round rates x x := by simp [Ahead]

theorem Ahead.asymm (x y : Defect × Nat) (ahead : Ahead round rates x y) : ¬ Ahead round rates y x := by
  rintro (less | ⟨same, earlier⟩)
  · rcases ahead with less' | ⟨same', -⟩
    · exact lt_asymm less less'
    · exact less.ne same'.symm
  · rcases ahead with less' | ⟨-, earlier'⟩
    · exact less'.ne same.symm
    · exact Nat.lt_asymm earlier earlier'

/-- A ranking lists every occurrence of an open defect once, the smaller scores first and equal scores in the order given. -/
theorem rankWith_sorted (defects : List Defect) : ∃ order : List (Defect × Nat),
    order.Perm (defects.filter Defect.isOpen).zipIdx ∧
      rankWith round defects rates = order.map (fun x => listed round rates x.1) ∧
      order.Pairwise (Ahead round rates) := by
  let le := fun d e : Defect => decide (scoreOf round rates d ≤ scoreOf round rates e)
  have trans : ∀ a b c, le a b = true → le b c = true → le a c = true := by
    simpa [le] using fun a b c : Defect => @le_trans _ _ (scoreOf round rates a) (scoreOf round rates b) (scoreOf round rates c)
  have total : ∀ a b, (le a b || le b a) = true := by
    simpa [le] using fun a b : Defect => le_total (scoreOf round rates a) (scoreOf round rates b)
  have permuted := List.mergeSort_perm (defects.filter Defect.isOpen).zipIdx (List.zipIdxLE le)
  have sorted := List.pairwise_mergeSort (List.zipIdxLE_trans trans) (List.zipIdxLE_total total)
    (defects.filter Defect.isOpen).zipIdx
  refine ⟨_, permuted, ?_, ?_⟩
  · have listed_sorted : ((defects.filter Defect.isOpen).mergeSort le).map (listed round rates) =
        rankWith round defects rates := List.map_mergeSort fun _ _ _ _ => rfl
    rw [← listed_sorted, ← List.mergeSort_zipIdx, List.map_map]
    rfl
  · -- No two occurrences share a place, so those of one score are told apart.
    have distinct : ((defects.filter Defect.isOpen).zipIdx.mergeSort (List.zipIdxLE le)).Pairwise fun x y => x.2 ≠ y.2 := by
      refine (List.pairwise_map (f := Prod.snd)).mp ?_
      exact ((permuted.map Prod.snd).nodup_iff).mpr (by simpa using List.nodup_range')
    refine (sorted.and distinct).imp fun {x y} ⟨below, apart⟩ => ?_
    have below : scoreOf round rates x.1 ≤ scoreOf round rates y.1 ∧
        (scoreOf round rates y.1 ≤ scoreOf round rates x.1 → x.2 ≤ y.2) := by
      simpa [List.zipIdxLE, le, or_iff_not_imp_left] using below
    rcases below.1.lt_or_eq with less | same
    · exact .inl less
    · exact .inr ⟨same, lt_of_le_of_ne (below.2 same.ge) apart⟩

end

/-! ### What a score weighs -/

section
variable (rates : Rates) {x y d : Defect}

/-- Severity, kind and attempts, in the order in which they count. -/
def urgency (d : Defect) : ℕ ×ₗ ℕ ×ₗ ℕ := toLex (d.severity.rank, toLex (d.kind.rank, d.attempts))

/-- The share of successes that counts for a defect, between zero and one. -/
def rateOf (d : Defect) : Rat := clamped (rates d.typeName d.category)

theorem clamped_bounds (rate : Rat) : 0 ≤ clamped rate ∧ clamped rate ≤ 1 := by
  unfold clamped
  split
  · norm_num
  · split
    · norm_num
    · constructor <;> linarith

/-- The exact share of a history counts as it is. -/
theorem rateOf_ratesWith (history : History) (d : Defect) : rateOf (history.ratesWith id) d =
    if history.about d.typeName d.category = [] then 1 / 2
    else (History.successes (history.about d.typeName d.category) : Rat) / (history.about d.typeName d.category).length := by
  rw [rateOf, History.ratesWith_eq, History.shareWith, id]
  generalize history.about d.typeName d.category = attempts
  by_cases none : attempts = []
  · subst none
    decide +kernel
  · have positive : (0 : Rat) < attempts.length := by exact_mod_cast List.length_pos_iff.mpr none
    have few : (History.successes attempts : Rat) ≤ attempts.length := by exact_mod_cast List.length_filter_le _ _
    have nonneg : (0 : Rat) ≤ History.successes attempts / attempts.length := by positivity
    have whole : (History.successes attempts : Rat) / attempts.length ≤ 1 := (div_le_one positive).mpr few
    rw [if_neg (mt List.length_eq_zero_iff.mp none), if_neg none, clamped, if_neg nonneg.not_gt, if_neg whole.not_gt]

theorem urgency_lt_iff : urgency x < urgency y ↔ x.severity.rank < y.severity.rank ∨
    x.severity.rank = y.severity.rank ∧
      (x.kind.rank < y.kind.rank ∨ x.kind.rank = y.kind.rank ∧ x.attempts < y.attempts) := by
  simp only [urgency, Prod.Lex.toLex_lt_toLex]

theorem kind_rank_le (kind : DefectKind) : kind.rank ≤ 2 := by cases kind <;> decide

theorem severity_rank_le (severity : Severity) : severity.rank ≤ 3 := by cases severity <;> decide

theorem baseScore_lt (few : x.attempts ≤ 9) (urgent : urgency x < urgency y) : baseScore x + 10 ≤ baseScore y := by
  have kind := kind_rank_le x.kind
  unfold baseScore
  rcases urgency_lt_iff.mp urgent with severe | ⟨same, earlier | ⟨same', fewer⟩⟩ <;> omega

theorem baseScore_eq (same : urgency x = urgency y) : baseScore x = baseScore y := by
  simp only [urgency, EmbeddingLike.apply_eq_iff_eq, Prod.mk.injEq] at same
  obtain ⟨severity, kind, attempts⟩ := same
  rw [baseScore, baseScore, severity, kind, attempts]

theorem baseScore_le (few : d.attempts ≤ 9) : baseScore d ≤ 3290 := by
  have kind := kind_rank_le d.kind
  have severity := severity_rank_le d.severity
  unfold baseScore
  omega

/-- An arithmetic that gets numbers of the size of a score right up to one. -/
def Near (round : Rat → Rat) : Prop := ∀ q : Rat, |q| ≤ 4000 → |round q - q| ≤ 1

theorem near_id : Near id := by
  intro q _
  rw [id, sub_self, abs_zero]
  exact zero_le_one

theorem near_rounded : Near Binary64.rounded := fun _ small =>
  Binary64.rounded_within_one (lt_of_le_of_lt small (by norm_num))

/-- A score is not far from its base. -/
theorem scoreOf_bounds {round : Rat → Rat} (near : Near round) (few : d.attempts ≤ 9) :
    (baseScore d : Rat) - 7 ≤ scoreOf round rates d ∧ scoreOf round rates d ≤ (baseScore d : Rat) + 2 := by
  have small : (baseScore d : Rat) ≤ 3290 := by exact_mod_cast baseScore_le few
  have positive : (0 : Rat) ≤ baseScore d := Nat.cast_nonneg _
  obtain ⟨low, high⟩ := clamped_bounds (rates d.typeName d.category)
  obtain ⟨shareLow, shareHigh⟩ := abs_le.mp (near (clamped (rates d.typeName d.category) * 5)
    (abs_le.mpr ⟨by linarith, by linarith⟩))
  obtain ⟨scoreLow, scoreHigh⟩ := abs_le.mp (near ((baseScore d : Rat) - round (clamped (rates d.typeName d.category) * 5))
    (abs_le.mpr ⟨by linarith, by linarith⟩))
  unfold scoreOf score
  constructor <;> linarith

theorem scoreOf_lt {round : Rat → Rat} (near : Near round) (few : x.attempts ≤ 9) (few' : y.attempts ≤ 9)
    (urgent : urgency x < urgency y) : scoreOf round rates x < scoreOf round rates y := by
  have gap : (baseScore x : Rat) + 10 ≤ baseScore y := by exact_mod_cast baseScore_lt few urgent
  have upper := (scoreOf_bounds rates near few).2
  have lower := (scoreOf_bounds rates near few').1
  linarith

theorem scoreOf_id (same : urgency x = urgency y) :
    (scoreOf id rates x < scoreOf id rates y ↔ rateOf rates y < rateOf rates x) ∧
      (scoreOf id rates x = scoreOf id rates y ↔ rateOf rates x = rateOf rates y) := by
  have exact_score : ∀ d, scoreOf id rates d = baseScore d - rateOf rates d * 5 := fun _ => rfl
  rw [exact_score, exact_score, baseScore_eq same]
  constructor
  · constructor <;> intro less <;> linarith
  · constructor <;> intro equal <;> linarith

end

/-! ### Rankings -/

/-- One occurrence is more urgent, or as urgent with more past success, or equal in both and earlier in the order given. -/
def Before (rates : Rates) (x y : Defect × Nat) : Prop :=
  urgency x.1 < urgency y.1 ∨ urgency x.1 = urgency y.1 ∧
    (rateOf rates y.1 < rateOf rates x.1 ∨ rateOf rates x.1 = rateOf rates y.1 ∧ x.2 < y.2)

/-- Up to nine attempts exact scores pack the four parts without loss. -/
theorem ahead_iff_before {rates : Rates} {x y : Defect × Nat} (few : x.1.attempts ≤ 9) (few' : y.1.attempts ≤ 9) :
    Ahead id rates x y ↔ Before rates x y := by
  rcases lt_trichotomy (urgency x.1) (urgency y.1) with urgent | same | later
  · exact iff_of_true (.inl (scoreOf_lt rates near_id few few' urgent)) (.inl urgent)
  · obtain ⟨less, equal⟩ := scoreOf_id rates same
    rw [Ahead, Before, less, equal, same]
    simp
  · refine iff_of_false ?_ ?_
    · have behind := scoreOf_lt rates near_id few' few later
      rintro (less | ⟨equal, -⟩)
      · exact lt_asymm less behind
      · exact behind.ne' equal
    · rintro (less | ⟨equal, -⟩)
      · exact lt_asymm less later
      · exact later.ne' equal

theorem length_rank (defects : List Defect) (rates : Rates) :
    (rank defects rates).length = (defects.filter Defect.isOpen).length := by
  simp [rank, rankWith]

theorem select_eq_take (batch : Nat) (defects : List Defect) (rates : Rates) :
    select batch defects rates = (rank defects rates).take (min (max batch 1) (defects.filter Defect.isOpen).length) := by
  rw [select, batchSize, ← length_rank defects rates, List.take_eq_take_min]

theorem length_select (batch : Nat) (defects : List Defect) (rates : Rates) :
    (select batch defects rates).length = min (max batch 1) (defects.filter Defect.isOpen).length := by
  rw [select, List.length_take, length_rank, batchSize]

/-- Scores of 53 bits keep urgency apart from past success: of two open defects with at most nine attempts the more urgent one
stands first in the ranking. -/
theorem rank_by_urgency (defects : List Defect) (rates : Rates) : ∃ order : List (Defect × Nat),
    order.Perm (defects.filter Defect.isOpen).zipIdx ∧
      rank defects rates = order.map (fun x => listed Binary64.rounded rates x.1) ∧
      ∀ x ∈ order, ∀ y ∈ order, x.1.attempts ≤ 9 → y.1.attempts ≤ 9 → urgency x.1 < urgency y.1 →
        [x, y].Sublist order := by
  obtain ⟨order, permuted, ranked, sorted⟩ := rankWith_sorted Binary64.rounded rates defects
  refine ⟨order, permuted, ranked, fun x first y second few few' urgent => ?_⟩
  exact (pair_sublist_iff sorted (Ahead.irrefl _ rates) (Ahead.asymm _ rates) first second).mpr
    (.inl (scoreOf_lt rates near_rounded few few' urgent))

/-- A ranking by exact scores lists every occurrence of an open defect once. Of two with at most nine attempts the one stands
first that has the smaller severity, kind and attempts, compared in this order, whatever the past success; of those equal in
them the one with the larger share of successes; and of those equal in that too the one that was given first. A batch is the
top of the ranking. The exact share of a history is that of the successes among the attempts on defects of the same type and
category, and a half if there were none. -/
theorem ranking_is_lexicographic (defects : List Defect) (rates : Rates) :
    (∃ order : List (Defect × Nat),
      order.Perm (defects.filter Defect.isOpen).zipIdx ∧
      rankWith id defects rates = order.map (fun x => listed id rates x.1) ∧
      ∀ x ∈ order, ∀ y ∈ order, x.1.attempts ≤ 9 → y.1.attempts ≤ 9 →
        ([x, y].Sublist order ↔ Before rates x y)) ∧
    (∀ batch, (select batch defects rates).length = min (max batch 1) (defects.filter Defect.isOpen).length ∧
      select batch defects rates =
        (rank defects rates).take (min (max batch 1) (defects.filter Defect.isOpen).length)) ∧
    ∀ (history : History) d, rateOf (history.ratesWith id) d =
      if history.about d.typeName d.category = [] then 1 / 2
      else (History.successes (history.about d.typeName d.category) : Rat) / (history.about d.typeName d.category).length := by
  obtain ⟨order, permuted, ranked, sorted⟩ := rankWith_sorted id rates defects
  refine ⟨⟨order, permuted, ranked, fun x first y second few few' => ?_⟩,
    fun batch => ⟨length_select batch defects rates, select_eq_take batch defects rates⟩, rateOf_ratesWith⟩
  rw [pair_sublist_iff sorted (Ahead.irrefl id rates) (Ahead.asymm id rates) first second, ahead_iff_before few few']

/-- A share of successes that favours static analysis. -/
def favouring : Rates := fun typeName _ => if typeName = "static_analysis" then 1 else 0

/-- A defect found by static analysis or by a type check, as it is after some failures. -/
def tried (kind : DefectKind) (attempts : Nat) : Defect :=
  { Defect.new kind .high (some "a.ts") (some 1) "wrong" .epoch with attempts }

/-- Nine failures and no success leave a wrong type in front of what was never tried and always succeeds, although that was
given first. -/
theorem nine_failures_keep_kind_first :
    let x := (tried .typeCheck 9, 1)
    let y := (tried .staticAnalysis 0, 0)
    x.1.attempts ≤ 9 ∧ y.1.attempts ≤ 9 ∧ Before favouring x y ∧
      rankWith id [tried .staticAnalysis 0, tried .typeCheck 9] favouring = [listed id favouring x.1, listed id favouring y.1] := by
  intro x y
  have before : Before favouring x y := .inl (urgency_lt_iff.mpr (by decide))
  obtain ⟨⟨order, permuted, ranked, follows⟩, -⟩ :=
    ranking_is_lexicographic [tried .staticAnalysis 0, tried .typeCheck 9] favouring
  have occurrences : order.Perm [y, x] := permuted
  have stands : [x, y].Sublist order :=
    (follows x (occurrences.mem_iff.mpr (by simp)) y (occurrences.mem_iff.mpr (by simp)) (by decide) (by decide)).mpr before
  have whole : [x, y] = order := stands.eq_of_length occurrences.length_eq.symm
  exact ⟨by decide, by decide, before, by rw [ranked, ← whole]; rfl⟩

/-- After ten failures it falls behind. -/
example : urgency (tried .typeCheck 10) < urgency (tried .staticAnalysis 0) ∧
    scoreOf id favouring (tried .staticAnalysis 0) < scoreOf id favouring (tried .typeCheck 10) :=
  ⟨urgency_lt_iff.mpr (by decide), by decide +kernel⟩

end GatedRepair.Priority
