import GatedRepair.History
import Mathlib.Algebra.Ring.Nat
import Mathlib.Data.List.Basic

/-!
# What is counted one by one

Rows that come of a list, where each member changes the row of its name, stand in the order of the names, one for each name
that occurs (`gathered_foldl`). A quantity to which each member adds its part adds up, over all rows, to the parts of all
members (`sum_foldl`). So the statistics of a ledger and of a history, which are counted one record at a time, hold the numbers
of the records (`Ledger.statistics_eq`, `History.statistics_eq`).
-/

namespace GatedRepair

namespace Rows

variable {α β : Type}

/-! ## One change -/

section
variable {name key : String} {first : β} {f : β → β} {rows : Rows β}

theorem mem_names_change : key ∈ (rows.change name first f).map Prod.fst ↔ key = name ∨ key ∈ rows.map Prod.fst := by
  induction rows with
  | nil => simp [change]
  | cons row rows ih =>
    unfold change
    split
    · next same => simp [same]
    · split
      · simp
      · rw [List.map_cons, List.mem_cons, ih, List.map_cons, List.mem_cons]
        exact or_left_comm

theorem sorted_change (sorted : (rows.map Prod.fst).Pairwise (· < ·)) :
    ((rows.change name first f).map Prod.fst).Pairwise (· < ·) := by
  induction rows with
  | nil => exact List.pairwise_singleton _ _
  | cons row rows ih =>
    obtain ⟨before, sorted'⟩ := List.pairwise_cons.mp sorted
    unfold change
    split
    · next same => simpa [same] using sorted
    · next other =>
      split
      · next less =>
        refine List.pairwise_cons.mpr ⟨fun later inside => ?_, sorted⟩
        rcases List.mem_cons.mp inside with rfl | inside
        · exact less
        · exact String.lt_trans less (before later inside)
      · next notLess =>
        refine List.pairwise_cons.mpr ⟨fun later inside => ?_, ih sorted'⟩
        rcases mem_names_change.mp inside with rfl | inside
        · exact String.not_le.mp fun above => other (String.le_antisymm above (String.not_lt.mp notLess))
        · exact before later inside

/-- What stands in the rows after one of them was changed. The row of the name was there, or else it is a new one. -/
theorem mem_change (sorted : (rows.map Prod.fst).Pairwise (· < ·)) {b : β} : (key, b) ∈ rows.change name first f ↔
    (key ≠ name ∧ (key, b) ∈ rows) ∨ (key = name ∧ ∃ old, b = f old ∧
      ((name, old) ∈ rows ∨ (name ∉ rows.map Prod.fst ∧ old = first))) := by
  induction rows with
  | nil => simp [change]
  | cons row rows ih =>
    obtain ⟨other, old⟩ := row
    obtain ⟨before, sorted'⟩ := List.pairwise_cons.mp sorted
    unfold change
    split
    · next same =>
      obtain rfl : name = other := same
      have fresh : ∀ old, (name, old) ∉ rows := fun old inside =>
        String.lt_irrefl name (before name (List.mem_map.mpr ⟨_, inside, rfl⟩))
      by_cases here : key = name
      · subst here
        simp [fresh]
      · simp [here]
    · next different =>
      have apart : (name, b) ≠ (other, old) := fun same => different (congrArg Prod.fst same)
      split
      · next less =>
        have fresh : name ∉ ((other, old) :: rows).map Prod.fst := by
          intro inside
          rcases List.mem_cons.mp inside with rfl | inside
          · exact String.lt_irrefl _ less
          · exact String.lt_irrefl name (String.lt_trans less (before name inside))
        have absent : ∀ old', (name, old') ∉ (other, old) :: rows := fun old' inside =>
          fresh (List.mem_map.mpr ⟨_, inside, rfl⟩)
        rw [List.mem_cons]
        by_cases here : key = name
        · subst here
          simp only [absent, fresh, not_false_eq_true, true_and, false_or, ne_eq, not_true_eq_false, false_and, or_false,
            exists_eq_right, Prod.mk.injEq]
        · simp [here]
      · rw [List.mem_cons, ih sorted']
        by_cases here : key = name
        · subst here
          simp [apart, different]
        · simp [here]

/-- A quantity that is nothing at first, and that a change adds to, grows by as much over all rows. -/
theorem sum_change {μ : β → Nat} {part : Nat} (nothing : μ first = 0) (adds : ∀ b, μ (f b) = μ b + part) :
    ((rows.change name first f).map fun row => μ row.2).sum = (rows.map fun row => μ row.2).sum + part := by
  induction rows with
  | nil => simp [change, adds, nothing]
  | cons row rows ih =>
    unfold change
    split
    · simp only [List.map_cons, List.sum_cons, adds]
      omega
    · split
      · simp only [List.map_cons, List.sum_cons, adds, nothing]
        omega
      · simp only [List.map_cons, List.sum_cons, ih]
        omega

end

/-! ## A list of changes -/

variable (name : α → String) (first : β) (step : α → β → β)

/-- The rows to which all members have contributed: each name that occurs stands once, in order, with what its bearers made. -/
structure Gathered (members : List α) (rows : Rows β) : Prop where
  sorted : (rows.map Prod.fst).Pairwise (· < ·)
  exact : ∀ key b, (key, b) ∈ rows ↔ key ∈ members.map name ∧
    b = (members.filter fun a => name a == key).foldl (fun b a => step a b) first

variable {name first step}

theorem Gathered.change {members : List α} {rows : Rows β} (gathered : Gathered name first step members rows) (a : α) :
    Gathered name first step (members ++ [a]) (rows.change (name a) first (step a)) := by
  have names : ∀ key, key ∈ rows.map Prod.fst ↔ key ∈ members.map name := by
    intro key
    constructor
    · intro inside
      obtain ⟨row, member, rfl⟩ := List.mem_map.mp inside
      exact ((gathered.exact row.1 row.2).mp member).1
    · intro inside
      exact List.mem_map.mpr ⟨_, (gathered.exact key _).mpr ⟨inside, rfl⟩, rfl⟩
  refine ⟨sorted_change gathered.sorted, fun key b => ?_⟩
  rw [mem_change gathered.sorted, List.map_append, List.mem_append, List.map_singleton, List.mem_singleton,
    List.filter_append, List.foldl_append]
  by_cases here : key = name a
  · subst here
    -- what the bearers made so far is nothing but the first value, if there are none
    have made : ∀ old, ((name a, old) ∈ rows ∨ name a ∉ rows.map Prod.fst ∧ old = first) ↔
        old = (members.filter fun a' => name a' == name a).foldl (fun b a => step a b) first := by
      intro old
      rw [gathered.exact, names]
      by_cases occurs : name a ∈ members.map name
      · simp [occurs]
      · have none : (members.filter fun a' => name a' == name a) = [] :=
          List.filter_eq_nil_iff.mpr fun a' inside same => occurs (List.mem_map.mpr ⟨a', inside, by simpa using same⟩)
        simp [occurs, none]
    have self : ([a].filter fun a' => name a' == name a) = [a] := by simp
    simp only [ne_eq, not_true_eq_false, false_and, true_and, false_or, made, exists_eq_right, or_true, self, List.foldl_cons,
      List.foldl_nil]
  · have other : (name a == key) = false := beq_false_of_ne (Ne.symm here)
    simp [here, other, gathered.exact]

variable (name first step)

/-- The induction is on the members; the rows hold what those before them made. -/
theorem gathered_foldl (members : List α) :
    Gathered name first step members (members.foldl (fun rows a => rows.change (name a) first (step a)) []) := by
  suffices all : ∀ (done : List α) (rows : Rows β), Gathered name first step done rows →
      Gathered name first step (done ++ members) (members.foldl (fun rows a => rows.change (name a) first (step a)) rows) from
    all [] [] ⟨List.Pairwise.nil, by simp⟩
  induction members with
  | nil => simp
  | cons a members ih =>
    intro done rows gathered
    simpa using ih (done ++ [a]) _ (gathered.change a)

theorem sum_foldl (μ : β → Nat) (part : α → Nat) (nothing : μ first = 0) (adds : ∀ a b, μ (step a b) = μ b + part a)
    (members : List α) (rows : Rows β) :
    ((members.foldl (fun rows a => rows.change (name a) first (step a)) rows).map fun row => μ row.2).sum =
      (rows.map fun row => μ row.2).sum + (members.map part).sum := by
  induction members generalizing rows with
  | nil => simp
  | cons a members ih =>
    rw [List.foldl_cons, ih, sum_change nothing (adds a), List.map_cons, List.sum_cons]
    omega

variable {name first step}

/-- Where each member adds one to a quantity, each row has as much of it as its name has bearers. -/
theorem Gathered.length {μ : β → Nat} (nothing : μ first = 0) (adds : ∀ a b, μ (step a b) = μ b + 1) {members : List α}
    {rows : Rows β} (gathered : Gathered name first step members rows) {row : String × β} (inside : row ∈ rows) :
    row.1 ∈ members.map name ∧ μ row.2 = (members.filter fun a => name a == row.1).length := by
  obtain ⟨occurs, made⟩ := (gathered.exact row.1 row.2).mp inside
  have counted : ∀ (bearers : List α) (b : β), μ (bearers.foldl (fun b a => step a b) b) = μ b + bearers.length := by
    intro bearers
    induction bearers with
    | nil => simp
    | cons a bearers ih =>
      intro b
      rw [List.foldl_cons, ih, adds, List.length_cons]
      omega
  rw [made, counted, nothing, Nat.zero_add]
  exact ⟨occurs, rfl⟩

end Rows

/-! ## Statistics -/

namespace Ledger

/-- Counting goes on from what was counted before. The induction is on the defects that are left. -/
theorem foldl_counting (ledger : Ledger) (s : Statistics) : ledger.foldl .counting s =
    { total := s.total
      unfixed := s.unfixed + (ledger.filter (·.status == .unfixed)).length
      fixed := s.fixed + (ledger.filter (·.status == .fixed)).length
      blocked := s.blocked + (ledger.filter (·.status == .blocked)).length
      byType := ledger.foldl (fun rows d => rows.change d.typeName 0 (· + 1)) s.byType
      bySeverity := ledger.foldl (fun rows d => rows.change d.severity.name 0 (· + 1)) s.bySeverity } := by
  induction ledger generalizing s with
  | nil => rfl
  | cons d ledger ih =>
    rw [List.foldl_cons, ih]
    cases state : d.status <;>
      simp [Statistics.counting, Statistics.inState, Rows.counting, state, Nat.add_assoc, Nat.add_comm 1]

theorem statistics_eq (ledger : Ledger) : ledger.statistics =
    { total := ledger.length
      unfixed := (ledger.filter (·.status == .unfixed)).length
      fixed := (ledger.filter (·.status == .fixed)).length
      blocked := (ledger.filter (·.status == .blocked)).length
      byType := ledger.foldl (fun rows d => rows.change d.typeName 0 (· + 1)) []
      bySeverity := ledger.foldl (fun rows d => rows.change d.severity.name 0 (· + 1)) [] } := by
  simp [statistics, foldl_counting]

end Ledger

namespace History

/-- The number of attempts that succeeded. -/
def successes (attempts : List Attempt) : Nat := (attempts.filter (·.success)).length

theorem foldl_strategyCount (history : History) (c : StrategyCount) :
    history.foldl (fun c a => c.counting a) c = ⟨c.attempts + history.length, c.successes + successes history⟩ := by
  induction history generalizing c with
  | nil => rfl
  | cons a history ih =>
    rw [List.foldl_cons, ih]
    cases success : a.success <;> simp [StrategyCount.counting, successes, success, Nat.add_assoc, Nat.add_comm 1]

theorem foldl_counting (history : History) (s : Statistics) : history.foldl .counting s =
    { total := s.total
      successes := s.successes + successes history
      failures := s.failures + (history.filter (!·.success)).length
      byStrategy := history.foldl (fun rows a => rows.change a.strategy {} (·.counting a)) s.byStrategy } := by
  induction history generalizing s with
  | nil => rfl
  | cons a history ih =>
    rw [List.foldl_cons, ih]
    cases success : a.success <;> simp [Statistics.counting, successes, success, Nat.add_assoc, Nat.add_comm 1]

theorem statistics_eq (history : History) : history.statistics =
    { total := history.length
      successes := successes history
      failures := (history.filter (!·.success)).length
      byStrategy := history.foldl (fun rows a => rows.change a.strategy {} (·.counting a)) [] } := by
  simp [statistics, foldl_counting]

/-- The attempts on defects of a type and category. -/
def about (history : History) (typeName category : String) : History :=
  history.filter fun a => a.typeName == typeName && a.category == category

theorem ratesWith_eq (round : Rat → Rat) (history : History) (typeName category : String) :
    history.ratesWith round typeName category =
      shareWith round (successes (history.about typeName category)) (history.about typeName category).length := by
  simp [ratesWith, foldl_strategyCount, about]

end History

end GatedRepair
