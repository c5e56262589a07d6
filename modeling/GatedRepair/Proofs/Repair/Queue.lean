import GatedRepair.Proofs.Priority
import GatedRepair.Proofs.Repair.Gate
import GatedRepair.Report
import Mathlib.Data.List.Find

/-!
# The queue of the report and the batch

The report lists the defects of the next batch. A batch takes the first of them first, whoever takes part in it, and as long
as no attempt changes the ledger or the history it takes the others in the order of the list and leaves none of them out
(`batch_follows_queue`).
-/

namespace GatedRepair

open Priority

namespace StatusReport

/-- The queue is the top of the ranking: every ranked defect is found again by its identifier. -/
theorem queue_ids {ledger : Ledger} (distinct : (Ledger.ids ledger).Nodup) (history : History) (batch : Nat)
    (now : Timestamp) : (build ledger history batch now).queue.map (·.id) =
      ((rank ledger history.rates).map Ranked.id).take (batchSize batch) := by
  have listed : ∀ ranked ∈ select batch ledger history.rates,
      (queued? ledger ranked).map (·.id) = some ranked.id := by
    intro ranked member
    obtain ⟨d, known, -, same⟩ := mem_rank _ (List.mem_of_mem_take member)
    rw [queued?, ← same, Ledger.get?_of_mem distinct known]
    rfl
  have top : (build ledger history batch now).queue.map (·.id) =
      (select batch ledger history.rates).filterMap fun ranked => (queued? ledger ranked).map (·.id) :=
    List.map_filterMap
  rw [top, List.filterMap_congr listed, List.filterMap_eq_map', select, List.map_take]

end StatusReport

namespace Scene

variable {σ τ : Type}

/-- The identifiers of the open defects in the order of repair. -/
def order (s : Scene σ τ) : List String := (rank s.repair.ledger s.repair.history.rates).map Ranked.id

/-! ## Taking the next defect -/

section
variable {p : Participants σ τ} {s last : Scene σ τ}

theorem next?_eq (s : Scene σ τ) (attempted : List String) :
    s.next? attempted = (s.order.find? fun id => !attempted.contains id).bind s.repair.ledger.get? := by
  have left : (rank (s.repair.ledger.filter fun d => !attempted.contains d.id) s.repair.history.rates).head? =
      (rank s.repair.ledger s.repair.history.rates).find? fun ranked => !attempted.contains ranked.id := by
    rw [rank_filter s.repair.history.rates (fun id => !attempted.contains id), List.head?_filter]
  simp only [next?, order, left, List.find?_map, Option.bind_map, Function.comp_def]

/-- The next defect is the first in the order of repair that was not attempted yet. -/
theorem next?_id (distinct : (Ledger.ids s.repair.ledger).Nodup) (attempted : List String) :
    (s.next? attempted).map (·.id) = s.order.find? fun id => !attempted.contains id := by
  rw [next?_eq]
  cases found : s.order.find? fun id => !attempted.contains id with
  | none => rfl
  | some first =>
    obtain ⟨ranked, listed, rfl⟩ := List.mem_map.mp (List.mem_of_find?_eq_some found)
    obtain ⟨d, known, -, same⟩ := mem_rank _ listed
    rw [Option.bind_some, ← same, Ledger.get?_of_mem distinct known, Option.map_some]

/-- Of a list that repeats nothing, the first member beyond its top is the one right below it. -/
theorem find?_below_top {ids : List String} (distinct : ids.Nodup) (n : Nat) :
    (ids.find? fun id => !(ids.take n).contains id) = ids[n]? := by
  induction ids generalizing n with
  | nil => simp
  | cons first more ih =>
    obtain ⟨fresh, distinct⟩ := List.nodup_cons.mp distinct
    cases n with
    | zero => simp
    | succ n =>
      have apart : (more.find? fun id => !((first :: more).take (n + 1)).contains id) =
          more.find? fun id => !(more.take n).contains id := by
        refine List.find?_congr fun id member => ?_
        have other : id ≠ first := fun same => fresh (same ▸ member)
        simp [other]
      rw [List.find?_cons_of_neg (by simp), apart, ih distinct n, List.getElem?_cons_succ]

theorem nodup_order (distinct : (Ledger.ids s.repair.ledger).Nodup) : s.order.Nodup := nodup_rank _ distinct

theorem next?_below_top (distinct : (Ledger.ids s.repair.ledger).Nodup) (n : Nat) :
    (s.next? (s.order.take n)).map (·.id) = s.order[n]? := by
  rw [next?_id distinct, find?_below_top (nodup_order distinct)]

theorem next?_head (distinct : (Ledger.ids s.repair.ledger).Nodup) : (s.next? []).map (·.id) = s.order.head? := by
  rw [List.head?_eq_getElem?]
  exact next?_below_top distinct 0

end

/-! ## Rows of skipped attempts -/

section
variable {consensus : Consensus} {r last : Repair} {d : Defect} {outcome : DefectOutcome}

theorem Recorded.about (recorded : Recorded consensus r d outcome last) : outcome.defect = d.id := by
  cases recorded <;> rfl

theorem Recorded.unchanged (recorded : Recorded consensus r d outcome last) (skipped : outcome.result = .skipped) :
    last = r := by
  cases recorded with
  | skipped => rfl
  | fixed => cases skipped
  | failed c agreement id now result reason chosen failure =>
    obtain rfl : result = .skipped := skipped
    cases failure

end

section
variable {p : Participants σ τ}

/-- While all attempts are skipped, those that were made are on the top of the order. -/
theorem Turns.goes_down {done : List DefectOutcome} {s last : Scene σ τ} {turns : List (Turn σ τ)}
    (run : Turns p done s turns last) (distinct : (Ledger.ids s.repair.ledger).Nodup)
    (top : done.map (·.defect) = s.order.take done.length) (skipped : ∀ t ∈ turns, t.outcome.result = .skipped) :
    last.repair = s.repair ∧
      (done ++ turns.map Turn.outcome).map (·.defect) = s.order.take (done.length + turns.length) := by
  induction run with
  | none done s => exact ⟨rfl, by simpa using top⟩
  | @more done s after last d outcome turns going next made rest ih =>
    obtain ⟨first, others⟩ := List.forall_mem_cons.mp skipped
    have recorded := turn_recorded made
    have same : after.repair = s.repair := recorded.unchanged first
    have order : after.order = s.order := by rw [order, same, order]
    have taken : s.order[done.length]? = some outcome.defect := by
      rw [← next?_below_top distinct, ← top, next, Option.map_some, recorded.about]
    have longer : (done ++ [outcome]).map (·.defect) = after.order.take (done ++ [outcome]).length := by
      rw [order, List.length_append, List.length_singleton, List.take_add_one, taken, List.map_append, top]
      rfl
    obtain ⟨kept, attempted⟩ := ih (same ▸ distinct) longer others
    refine ⟨kept.trans same, ?_⟩
    simpa [order, Nat.add_assoc, Nat.add_comm 1] using attempted

/-- The queue of the report begins with the defect that a batch takes first, unless the batch is called off before that. A
batch that was not called off and skipped everything attempted the defects of the queue, in their order. -/
theorem batch_follows_queue (p : Participants σ τ) (s : Scene σ τ) (now : Timestamp)
    (distinct : (Ledger.ids s.repair.ledger).Nodup) :
    let queue := (StatusReport.build s.repair.ledger s.repair.history s.repair.config.batchSize now).queue.map (·.id)
    (s.next? []).map (·.id) = queue.head? ∧
      ∀ summary last, fixBatch p s = (.ok summary, last) →
        (summary.cancelled = true ∧ summary.outcomes = [] ∨ (summary.outcomes.map (·.defect)).head? = queue.head?) ∧
        (summary.cancelled = false → (∀ o ∈ summary.outcomes, o.result = .skipped) →
          summary.outcomes.map (·.defect) = queue) := by
  intro queue
  have top : queue = s.order.take (batchSize s.repair.config.batchSize) := StatusReport.queue_ids distinct _ _ now
  have room : batchSize s.repair.config.batchSize ≠ 0 := by unfold batchSize; omega
  have head : (s.next? []).map (·.id) = queue.head? := by
    rw [next?_head distinct, top, List.head?_take, if_neg room]
  refine ⟨head, fun summary last ended => ?_⟩
  obtain ⟨turns, run, outcomes, few, ends, -⟩ := fixMore_ok ended
  rw [List.nil_append] at outcomes
  constructor
  · cases run with
    | none =>
      cases called : summary.cancelled with
      | true => exact .inl ⟨rfl, by simpa using outcomes⟩
      | false =>
        have finished : s.uncounted.next? [] = none := by
          simpa [outcomes, room] using ends called (Nat.pos_of_ne_zero room)
        have finished : s.next? [] = none := finished
        exact .inr (by rw [← head, finished, outcomes]; rfl)
    | more going next made rest =>
      rw [outcomes, ← head, show s.next? [] = _ from next, Option.map_some, ← (turn_recorded made).about]
      exact .inr rfl
  · intro going skipped
    have all : ∀ t ∈ turns, t.outcome.result = .skipped := fun t member =>
      skipped _ (outcomes ▸ List.mem_map_of_mem member)
    obtain ⟨same, attempted⟩ := run.goes_down distinct (by simp) all
    have attempted : summary.outcomes.map (·.defect) = s.order.take turns.length := by
      simpa [outcomes, Scene.order] using attempted
    rw [attempted, top]
    rcases Nat.lt_or_ge turns.length (batchSize s.repair.config.batchSize) with short | full
    · -- The batch ended early, so nothing was left below what was attempted.
      have order : last.order = s.order := by rw [Scene.order, same, uncounted_repair, Scene.order]
      have finished := next?_below_top (same ▸ distinct) (s := last) turns.length
      rw [order, ← attempted, ends going short, Option.map_none] at finished
      have nothing := List.getElem?_eq_none_iff.mp finished.symm
      rw [List.take_of_length_le nothing, List.take_of_length_le (by omega)]
    · rw [Nat.le_antisymm few full]

end

/-! ## A batch without a backend -/

theorem ok_of_map_toOption {ε α β : Type} {f : α → β} {result : Except ε α} {b : β}
    (given : result.toOption.map f = some b) : ∃ a, result = .ok a ∧ f a = b := by
  obtain ⟨a, told, same⟩ := Option.map_eq_some_iff.mp given
  exact ⟨a, Files.toOption_eq_some.mp told, same⟩

/-- Of three open defects the two that matter most are in the queue. Nobody proposes a fix, and they are skipped in the order of
the queue; among equals the one that was known first comes first. -/
theorem unreachable_backend_leaves_queue :
    let p := approving (.unavailable Unit "offline")
    let known := fun severity line => Defect.new .typeCheck severity (some "a.py") (some line) "wrong" .epoch
    let ledger := [known .low 1, known .high 3, known .high 2]
    let history : History := [Attempt.on (.ofNat 1) (.ofNat 1) (known .high 9) "creative" (some "no") .epoch]
    let s : Scene Unit Unit := ⟨⟨"/r", { Config.standard with batchSize := 2 }, ledger, history, .ofNat 1⟩, (), (),
      .sound ⟨[(["r"], .directory)]⟩, {}⟩
    let queue := (StatusReport.build ledger history 2 .epoch).queue.map (·.id)
    (Ledger.ids ledger).Nodup ∧ queue = ["ts-a_py-L3", "ts-a_py-L2"] ∧
      (s.next? []).map (·.id) = some "ts-a_py-L3" ∧ ∃ summary last, fixBatch p s = (.ok summary, last) ∧
        summary.cancelled = false ∧ (∀ o ∈ summary.outcomes, o.result = .skipped) ∧
        summary.outcomes.map (·.defect) = queue := by
  intro p known ledger history s queue
  have distinct : (Ledger.ids ledger).Nodup := by decide +kernel
  -- The only attempt on record failed, so the bases of the scores decide.
  have order : s.order = ["ts-a_py-L3", "ts-a_py-L2", "ts-a_py-L1"] := by
    have bases : (ledger.filter Defect.isOpen).map (fun d => Ranked.mk d.id (baseScore d)) =
        [⟨"ts-a_py-L1", 3000⟩, ⟨"ts-a_py-L3", 1000⟩, ⟨"ts-a_py-L2", 1000⟩] := by decide +kernel
    have high : (3000 : Rat) ≤ 1000 ↔ False := by decide +kernel
    rw [order, rank_zero (by decide +kernel), bases]
    simp [List.mergeSort, List.MergeSort.Internal.splitInTwo, high]
  have listed : queue = ["ts-a_py-L3", "ts-a_py-L2"] :=
    (StatusReport.queue_ids distinct history 2 .epoch).trans (congrArg (List.take 2) order)
  obtain ⟨head, follows⟩ := batch_follows_queue p s .epoch distinct
  -- Each of the two turns skips the defect that is next, and leaves the order as it was.
  have turned : ((s.attemptAndSave p 0 (known .high 3)).1.toOption.map (·.result),
      ((s.attemptAndSave p 0 (known .high 3)).2.attemptAndSave p 1 (known .high 2)).1.toOption.map (·.result)) =
        (some .skipped, some .skipped) := by
    decide +kernel
  rcases made : s.attemptAndSave p 0 (known .high 3) with ⟨result, after⟩
  rcases made' : after.attemptAndSave p 1 (known .high 2) with ⟨result', last⟩
  rw [made, made'] at turned
  obtain ⟨one, two⟩ := Prod.mk.inj turned
  obtain ⟨outcome, rfl, skipped⟩ := ok_of_map_toOption one
  obtain ⟨outcome', rfl, skipped'⟩ := ok_of_map_toOption two
  have same : after.repair = s.repair := (turn_recorded made).unchanged skipped
  have about : outcome.defect = "ts-a_py-L3" := (turn_recorded made).about.trans (by decide +kernel)
  have first : s.next? [] = some (known .high 3) := by
    rw [next?_eq, order]
    decide +kernel
  have second : after.next? [outcome.defect] = some (known .high 2) := by
    have kept : after.order = s.order := by rw [Scene.order, same, Scene.order]
    rw [next?_eq, kept, order, same, about]
    decide +kernel
  have ended : fixBatch p s = (.ok ⟨last.counts, [outcome, outcome'], false⟩, last) := by
    have whole : fixBatch p s = fixMore p [] 2 s := rfl
    rw [whole, fixMore_turn [] rfl first made, List.nil_append, fixMore_turn [outcome] rfl second made']
    rfl
  have skips : ∀ o ∈ [outcome, outcome'], o.result = .skipped :=
    List.forall_mem_cons.mpr ⟨skipped, List.forall_mem_singleton.mpr skipped'⟩
  exact ⟨distinct, listed, head.trans (congrArg List.head? listed), _, last, ended, rfl, skips,
    (follows _ last ended).2 rfl skips⟩

end Scene

end GatedRepair
