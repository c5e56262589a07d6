import GatedRepair.Proofs.Ledger.Separate
import GatedRepair.Proofs.Priority
import GatedRepair.Proofs.Report.Statistics
import GatedRepair.Report

/-!
# The figures of a report

However the records of a ledger and of a history are sorted into groups, the groups together hold each record once
(`sum_count`). So all the figures of a report agree with the records and with each other, the queue shows different open
defects in the order of their scores, and what is saved holds the same figures (`build_adds_up`).
-/

namespace GatedRepair

/-! ## Counts by name -/

section
variable {α β : Type}

/-- The rows of a count by name: each name that occurs stands once, in order, with the number of its bearers. -/
structure Counted (name : α → String) (members : List α) (rows : List (String × Nat)) : Prop where
  sorted : (rows.map Prod.fst).Pairwise (· < ·)
  exact : ∀ key n, (key, n) ∈ rows ↔ 0 < n ∧ n = (members.filter fun a => name a == key).length

/-- A quantity to which each member adds one counts the bearers of each name. -/
theorem Rows.Gathered.counted {name : α → String} {first : β} {step : α → β → β} {μ : β → Nat} (nothing : μ first = 0)
    (adds : ∀ a b, μ (step a b) = μ b + 1) {members : List α} {rows : Rows β} (gathered : Gathered name first step members rows) :
    Counted name members (rows.map fun row => (row.1, μ row.2)) := by
  constructor
  · simpa [Function.comp_def] using gathered.sorted
  · intro key n
    simp only [List.mem_map, Prod.mk.injEq]
    constructor
    · rintro ⟨row, inside, rfl, rfl⟩
      obtain ⟨occurs, number⟩ := gathered.length nothing adds inside
      obtain ⟨a, member, bears⟩ := List.mem_map.mp occurs
      exact ⟨number ▸ List.length_pos_of_mem (List.mem_filter.mpr ⟨member, beq_iff_eq.mpr bears⟩), number⟩
    · rintro ⟨some, rfl⟩
      obtain ⟨a, inside⟩ := List.exists_mem_of_length_pos some
      obtain ⟨member, bears⟩ := List.mem_filter.mp inside
      have row := (gathered.exact key _).mpr ⟨List.mem_map.mpr ⟨a, member, beq_iff_eq.mp bears⟩, rfl⟩
      exact ⟨_, row, rfl, (gathered.length nothing adds row).2⟩

theorem counted_foldl (name : α → String) (members : List α) :
    Counted name members (members.foldl (fun (rows : Rows Nat) a => rows.change (name a) 0 (· + 1)) []) := by
  have gathered := Rows.gathered_foldl name 0 (fun _ n => n + 1) members
  simpa using gathered.counted (μ := id) rfl fun _ _ => rfl

theorem sum_foldl_counts (name : α → String) (members : List α) :
    ((members.foldl (fun (rows : Rows Nat) a => rows.change (name a) 0 (· + 1)) []).map Prod.snd).sum = members.length := by
  simpa using Rows.sum_foldl name 0 (fun _ n => n + 1) id (fun _ => 1) rfl (fun _ _ => rfl) members []

end

/-! ## Ledgers and histories -/

section
variable (ledger : Ledger) (history : History)

theorem Ledger.length_eq_states : ledger.length = (ledger.filter (·.status == .unfixed)).length +
    (ledger.filter (·.status == .fixed)).length + (ledger.filter (·.status == .blocked)).length := by
  induction ledger with
  | nil => rfl
  | cons d ledger ih => cases state : d.status <;> simp [state] <;> omega

theorem History.length_eq_outcomes : history.length = successes history + (history.filter (!·.success)).length := by
  rw [successes, ← List.countP_eq_length_filter, ← List.countP_eq_length_filter,
    List.length_eq_countP_add_countP Attempt.success]
  simp

theorem History.sum_attempts : ((history.foldl (fun (rows : Rows StrategyCount) a =>
    rows.change a.strategy {} (·.counting a)) []).map fun row => row.2.attempts).sum = history.length := by
  simpa using Rows.sum_foldl Attempt.strategy {} StrategyCount.counting StrategyCount.attempts (fun _ => 1) rfl
    (fun _ _ => rfl) history []

theorem History.sum_successes : ((history.foldl (fun (rows : Rows StrategyCount) a =>
    rows.change a.strategy {} (·.counting a)) []).map fun row => row.2.successes).sum = successes history := by
  rw [Rows.sum_foldl Attempt.strategy {} StrategyCount.counting StrategyCount.successes
    (fun a => if a.success then 1 else 0) rfl fun _ _ => rfl]
  rw [successes, ← List.countP_eq_length_filter, List.map_nil, List.sum_nil, Nat.zero_add]
  induction history with
  | nil => rfl
  | cons a history ih => rw [List.map_cons, List.sum_cons, ih, List.countP_cons, Nat.add_comm]

theorem Ledger.openCount_urgent : ledger.openCount .critical + ledger.openCount .high =
    (ledger.filter fun d => d.status = .unfixed ∧ (d.severity = .critical ∨ d.severity = .high)).length := by
  refine (length_filter_add fun d _ => ?_).symm
  unfold Defect.isOpen
  cases d.severity <;> cases d.status <;> decide

end

/-! ## Reports -/

namespace StatusReport

open Priority

/-- A defect as the queue shows it. -/
def shown (history : History) (d : Defect) : QueueEntry where
  id := d.id
  location := d.location
  kind := d.kind
  severity := d.severity
  score := scoreOf Number.Binary64.rounded history.rates d
  attempts := d.attempts
  message := d.message

/-- The queue shows different open defects, in the order of their scores. -/
theorem queue_shows {ledger : Ledger} (distinct : (Ledger.ids ledger).Nodup) (history : History) (batch : Nat)
    (now : Timestamp) : ∃ defects : List Defect, (∀ d ∈ defects, d ∈ ledger ∧ d.isOpen = true) ∧ (Ledger.ids defects).Nodup ∧
      (build ledger history batch now).queue = defects.map (shown history) ∧
      defects.length = min (max batch 1) (ledger.filter Defect.isOpen).length ∧
      (defects.map (shown history)).Pairwise (·.score ≤ ·.score) := by
  obtain ⟨order, permuted, ranked, sorted⟩ := rankWith_sorted Number.Binary64.rounded history.rates ledger
  have perm : (order.map Prod.fst).Perm (ledger.filter Defect.isOpen) := by
    simpa using permuted.map Prod.fst
  have known : ∀ d ∈ order.map Prod.fst, d ∈ ledger ∧ d.isOpen = true := fun d inside =>
    List.mem_filter.mp (perm.mem_iff.mp inside)
  have top : select batch ledger history.rates =
      ((order.map Prod.fst).take (batchSize batch)).map (listed Number.Binary64.rounded history.rates) := by
    rw [select, rank, ranked, List.map_take, List.map_map]
    rfl
  have found : ∀ d ∈ (order.map Prod.fst).take (batchSize batch),
      queued? ledger (listed Number.Binary64.rounded history.rates d) = some (shown history d) := by
    intro d inside
    rw [queued?, listed, Ledger.get?_of_mem distinct (known d (List.mem_of_mem_take inside)).1]
    rfl
  refine ⟨(order.map Prod.fst).take (batchSize batch), fun d inside => known d (List.mem_of_mem_take inside), ?_, ?_, ?_, ?_⟩
  · have open_distinct : (Ledger.ids (ledger.filter Defect.isOpen)).Nodup := distinct.sublist (List.filter_sublist.map _)
    exact ((perm.map Defect.id).nodup_iff.mpr open_distinct).sublist ((List.take_sublist _ _).map _)
  · show (select batch ledger history.rates).filterMap (queued? ledger) = _
    rw [top, List.filterMap_map]
    exact (List.filterMap_congr found).trans (congrFun List.filterMap_eq_map' _)
  · rw [List.length_take, perm.length_eq, batchSize]
  · have scores : (order.map Prod.fst).Pairwise fun d e =>
        scoreOf Number.Binary64.rounded history.rates d ≤ scoreOf Number.Binary64.rounded history.rates e := by
      refine List.pairwise_map.mpr (sorted.imp fun {x y} ahead => ?_)
      rcases ahead with less | ⟨same, -⟩
      · exact less.le
      · exact same.le
    exact List.pairwise_map.mpr (scores.sublist (List.take_sublist _ _))

/-- A report agrees with a ledger and a history, and its figures agree with each other. -/
structure AddsUp (ledger : Ledger) (history : History) (batch : Nat) (r : StatusReport) : Prop where
  total : r.defects.total = ledger.length
  states : r.defects.total = r.defects.unfixed + r.defects.fixed + r.defects.blocked
  unfixed : r.defects.unfixed = (ledger.filter Defect.isOpen).length
  fixed : r.defects.fixed = (ledger.filter (·.status = .fixed)).length
  types : Counted Defect.typeName ledger r.defects.byType
  types_sum : (r.defects.byType.map Prod.snd).sum = r.defects.total
  severities : Counted (·.severity.name) ledger r.defects.bySeverity
  severities_sum : (r.defects.bySeverity.map Prod.snd).sum = r.defects.total
  urgent : r.urgentOpen =
    (ledger.filter fun d => d.status = .unfixed ∧ (d.severity = .critical ∨ d.severity = .high)).length
  blocked : r.blocked = (ledger.filter (·.status = .blocked)).map fun d =>
    { id := d.id, location := d.location, attempts := d.attempts, lastFailure := d.lastFailure, message := d.message }
  blocked_length : r.blocked.length = r.defects.blocked
  queue : ∃ defects : List Defect, (∀ d ∈ defects, d ∈ ledger ∧ d.status = .unfixed) ∧ (Ledger.ids defects).Nodup ∧
    r.queue = defects.map (shown history)
  queue_length : r.queue.length = min (max batch 1) r.defects.unfixed
  queue_sorted : r.queue.Pairwise (·.score ≤ ·.score)
  attempts : r.history.total = history.length
  outcomes : r.history.total = r.history.successes + r.history.failures
  strategies : Counted Attempt.strategy history (r.history.byStrategy.map fun row => (row.1, row.2.attempts))
  strategies_sum : (r.history.byStrategy.map fun row => row.2.attempts).sum = r.history.total
  strategies_successes : (r.history.byStrategy.map fun row => row.2.successes).sum = r.history.successes
  strategies_bound : ∀ row ∈ r.history.byStrategy, row.2.successes ≤ row.2.attempts
  saved_ledger : ∀ time, (ledger.document time).get? "stats" = some r.defects.toJson
  saved_history : ∀ time, (history.document time).get? "stats" = some r.history.toJson

/-- The report on a ledger without repeated identifiers adds up, and so do the statistics that are saved with the ledger and the
history. -/
theorem build_adds_up {ledger : Ledger} (distinct : (Ledger.ids ledger).Nodup) (history : History) (batch : Nat)
    (now : Timestamp) : AddsUp ledger history batch (build ledger history batch now) := by
  obtain ⟨defects, known, different, queue, length, sorted⟩ := queue_shows distinct history batch now
  have gathered : Rows.Gathered Attempt.strategy {} History.StrategyCount.counting history
      (history.foldl (fun rows a => rows.change a.strategy {} (·.counting a)) []) := Rows.gathered_foldl _ _ _ history
  have figures : (build ledger history batch now).defects = _ := ledger.statistics_eq
  have attempts : (build ledger history batch now).history = _ := history.statistics_eq
  exact {
    total := by rw [figures]
    states := by
      rw [figures]
      exact ledger.length_eq_states
    unfixed := by
      rw [figures]
      rfl
    fixed := by
      rw [figures]
      rfl
    types := by
      rw [figures]
      exact counted_foldl Defect.typeName ledger
    types_sum := by
      rw [figures]
      exact sum_foldl_counts Defect.typeName ledger
    severities := by
      rw [figures]
      exact counted_foldl (·.severity.name) ledger
    severities_sum := by
      rw [figures]
      exact sum_foldl_counts (·.severity.name) ledger
    urgent := ledger.openCount_urgent
    blocked := rfl
    blocked_length := by
      rw [figures]
      exact List.length_map _
    queue := ⟨defects, fun d inside => ⟨(known d inside).1, (Defect.isOpen_iff d).mp (known d inside).2⟩, different, queue⟩
    queue_length := by
      rw [queue, List.length_map, length, figures]
      rfl
    queue_sorted := queue ▸ sorted
    attempts := by rw [attempts]
    outcomes := by
      rw [attempts]
      exact history.length_eq_outcomes
    strategies := by
      rw [attempts]
      exact gathered.counted (μ := History.StrategyCount.attempts) rfl fun _ _ => rfl
    strategies_sum := by
      rw [attempts]
      exact history.sum_attempts
    strategies_successes := by
      rw [attempts]
      exact history.sum_successes
    strategies_bound := by
      intro row inside
      rw [attempts] at inside
      rw [((gathered.exact row.1 row.2).mp inside).2, History.foldl_strategyCount, Nat.zero_add, Nat.zero_add]
      exact List.length_filter_le _ _
    saved_ledger := fun _ => rfl
    saved_history := fun _ => rfl }

/-- A defect in a state of repair, at a line of its own. -/
def placed (kind : DefectKind) (severity : Severity) (status : Status) (line : Nat) : Defect :=
  { Defect.new kind severity (some "a.py") (some line) "wrong" .epoch with status }

/-- Four defects in all three states, and two attempts, of which one failed. Of the two open defects one is shown. -/
theorem four_defects_add_up :
    let ledger := [placed .typeCheck .low .unfixed 1, placed .testFailure .critical .unfixed 2,
      placed .typeCheck .high .fixed 3, placed .staticAnalysis .high .blocked 4]
    let history : History := [Attempt.on (.ofNat 1) (.ofNat 1) (placed .typeCheck .low .unfixed 1) "creative" (some "no") .epoch,
      Attempt.on (.ofNat 2) (.ofNat 1) (placed .typeCheck .high .unfixed 3) "conservative" none .epoch]
    let r := build ledger history 1 .epoch
    (Ledger.ids ledger).Nodup ∧ AddsUp ledger history 1 r ∧ r.queue.length = 1 ∧ r.urgentOpen = 1 ∧
      r.blocked.map (·.id) = ["lint-a_py-L4"] ∧ (r.defects.byType.map Prod.snd).sum = 4 ∧
      (r.history.byStrategy.map fun row => row.2.successes).sum = 1 := by
  intro ledger history r
  have distinct : (Ledger.ids ledger).Nodup := by decide +kernel
  have adds : AddsUp ledger history 1 r := build_adds_up distinct history 1 .epoch
  exact ⟨distinct, adds, adds.queue_length, adds.urgent.trans (by decide +kernel), by decide +kernel, adds.types_sum,
    adds.strategies_successes⟩

end StatusReport

end GatedRepair
