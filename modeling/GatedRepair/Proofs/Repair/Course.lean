import GatedRepair.Proofs.Ledger.Sound
import GatedRepair.Proofs.Repair.Turns

/-!
# The course of a batch

What a row of attempts leaves of a ledger and a history is told by their outcomes (`Worked`): one turn is such a row, and
rows follow one another. With the order of repair, and with what ends a batch, this is all that a batch does
(`batch_runs_its_course`).
-/

namespace GatedRepair

open Files

namespace Ledger

theorem ids_update {change : Defect → Defect} (keeps : ∀ d, (change d).id = d.id) (ledger : Ledger) (id : String) :
    ids (ledger.update id change) = ids ledger := by
  induction ledger with
  | nil => rfl
  | cons d more ih =>
    unfold update
    split
    · simp [ids, keeps]
    · simpa [ids] using ih

end Ledger

namespace Scene

variable {σ τ : Type}

/-- A record tells of the attempt with an outcome, in a run. -/
structure Tells (run : Uuid) (x : Attempt) (o : DefectOutcome) : Prop where
  run : x.run = run
  defect : x.defect = o.defect
  success : x.success = true ↔ o.result = .fixed
  reason : x.failureReason = if o.result = .fixed then none else some o.detail

/-- What came of attempts with these outcomes, made after those on other defects. -/
structure Worked (attempted : List String) (before after : Repair) (outcomes : List DefectOutcome) : Prop where
  ids : Ledger.ids after.ledger = Ledger.ids before.ledger
  config : after.config = before.config
  run : after.run = before.run
  fresh : ∀ o ∈ outcomes, o.defect ∉ attempted
  distinct : (outcomes.map (·.defect)).Nodup
  wasOpen : ∀ o ∈ outcomes, ∃ d, before.ledger.get? o.defect = some d ∧ d.status = .unfixed
  unchanged : ∀ id, (∀ o ∈ outcomes, o.defect = id → o.result = .skipped) → after.ledger.get? id = before.ledger.get? id
  recorded : ∃ records, after.history = before.history ++ records ∧
    List.Forall₂ (Tells before.run) records (outcomes.filter (·.result ≠ .skipped))
  flagged : ∀ o ∈ outcomes, o.blocked = after.ledger.isBlocked o.defect

theorem Worked.none (attempted : List String) (r : Repair) : Worked attempted r r [] :=
  ⟨rfl, rfl, rfl, by simp, by simp, by simp, fun _ _ => rfl, ⟨[], by simp, by simp⟩, by simp⟩

theorem isBlocked_eq_false {ledger : Ledger} {id : String} {d : Defect} (found : ledger.get? id = some d)
    (free : d.status ≠ .blocked) : ledger.isBlocked id = false := by
  rw [Ledger.isBlocked, found]
  simpa using free

/-- A turn is a row of one attempt. -/
theorem Worked.turn {consensus : Consensus} {r last : Repair} {d : Defect} {outcome : DefectOutcome}
    (recorded : Recorded consensus r d outcome last) (there : r.ledger.get? d.id = some d) (isOpen : d.status = .unfixed)
    {attempted : List String} (fresh : d.id ∉ attempted) : Worked attempted r last [outcome] ∧ outcome.defect = d.id := by
  have found : ∀ {change : Defect → Defect}, (∀ e, (change e).id = e.id) → ∀ other,
      (r.ledger.update d.id change).get? other = if other = d.id then some (change d) else r.ledger.get? other := by
    intro change keeps other
    rw [Ledger.get?_update keeps, there, Option.map_some]
  -- A change to the defect alone, with a record of it, when the outcome is not that it was skipped.
  have charged : ∀ {change : Defect → Defect} {o : DefectOutcome} {x : Attempt}, (∀ e, (change e).id = e.id) →
      o.defect = d.id → o.result ≠ .skipped → Tells r.run x o →
      o.blocked = (r.ledger.update d.id change).isBlocked d.id →
      Worked attempted r { r with ledger := r.ledger.update d.id change, history := r.history ++ [x] } [o] := by
    intro change o x keeps about taken tells flagged
    have kept : [o].filter (·.result ≠ .skipped) = [o] := List.filter_eq_self.mpr (by simpa using taken)
    refine ⟨Ledger.ids_update keeps _ _, rfl, rfl, ?_, ?_, ?_, ?_, ⟨[x], rfl, ?_⟩, ?_⟩
    · simpa [about] using fresh
    · exact List.nodup_singleton _
    · simpa [about] using ⟨d, there, isOpen⟩
    · intro id skipped
      have other : id ≠ d.id := by
        rintro rfl
        exact taken (skipped o List.mem_cons_self about)
      exact (found keeps id).trans (if_neg other)
    · rw [kept]
      exact .cons tells .nil
    · simpa [about] using flagged
  cases recorded with
  | skipped reasons none =>
    refine ⟨⟨rfl, rfl, rfl, by simpa using fresh, List.nodup_singleton _, by simpa using ⟨d, there, isOpen⟩, fun _ _ => rfl,
      ⟨[], by simp, by simp⟩, ?_⟩, rfl⟩
    simpa using (isBlocked_eq_false there (by simp [isOpen])).symm
  | fixed c agreement id now chosen =>
    refine ⟨charged (fun _ => rfl) rfl (by simp) ⟨rfl, rfl, by simp [Attempt.on], rfl⟩ ?_, rfl⟩
    have fixed := (found (fun e => (Ledger.withFix_identity ⟨c.strategy.name, c.approach, c.confidence, agreement, now⟩
      now e).1) d.id).trans (if_pos rfl)
    exact (isBlocked_eq_false fixed (by simp [Ledger.withFix])).symm
  | failed c agreement id now result reason chosen failure =>
    have other : result ≠ .fixed ∧ result ≠ .skipped := by
      cases result <;> simp [AttemptResult.isFailure] at failure ⊢
    refine ⟨charged (fun _ => rfl) rfl other.2 ⟨rfl, rfl, ?_, ?_⟩ rfl, rfl⟩
    · simp [Attempt.on, other.1]
    · simp [Attempt.on, other.1]

/-- A row of attempts follows a first one. -/
theorem Worked.cons {attempted : List String} {before between after : Repair} {o : DefectOutcome}
    {outcomes : List DefectOutcome} (first : Worked attempted before between [o])
    (rest : Worked (attempted ++ [o.defect]) between after outcomes) : Worked attempted before after (o :: outcomes) := by
  obtain ⟨records, grown, tell⟩ := first.recorded
  obtain ⟨records', grown', tell'⟩ := rest.recorded
  have apart : ∀ e ∈ outcomes, e.defect ∉ attempted ∧ e.defect ≠ o.defect := by
    intro e member
    simpa using rest.fresh e member
  have same : ∀ id, id ≠ o.defect → between.ledger.get? id = before.ledger.get? id := by
    intro id other
    refine first.unchanged id fun e member about => absurd about ?_
    obtain rfl := List.mem_singleton.mp member
    exact Ne.symm other
  refine ⟨rest.ids.trans first.ids, rest.config.trans first.config, rest.run.trans first.run, ?_, ?_, ?_, ?_,
    ⟨records ++ records', ?_, ?_⟩, ?_⟩
  · exact List.forall_mem_cons.mpr ⟨first.fresh o List.mem_cons_self, fun e member => (apart e member).1⟩
  · refine List.nodup_cons.mpr ⟨fun again => ?_, rest.distinct⟩
    obtain ⟨e, member, about⟩ := List.mem_map.mp again
    exact (apart e member).2 about
  · refine List.forall_mem_cons.mpr ⟨first.wasOpen o List.mem_cons_self, fun e member => ?_⟩
    obtain ⟨d, found, isOpen⟩ := rest.wasOpen e member
    exact ⟨d, (same e.defect (apart e member).2).symm.trans found, isOpen⟩
  · intro id skipped
    obtain ⟨one, others⟩ := List.forall_mem_cons.mp skipped
    exact (rest.unchanged id others).trans (first.unchanged id (List.forall_mem_singleton.mpr one))
  · rw [grown', grown, List.append_assoc]
  · rw [first.run] at tell'
    have split : (o :: outcomes).filter (·.result ≠ .skipped) =
        [o].filter (·.result ≠ .skipped) ++ outcomes.filter (·.result ≠ .skipped) := by
      rw [← List.filter_append]
      rfl
    rw [split]
    exact List.rel_append tell tell'
  · refine List.forall_mem_cons.mpr ⟨?_, rest.flagged⟩
    -- The defects of the later attempts are others.
    have kept : after.ledger.get? o.defect = between.ledger.get? o.defect :=
      rest.unchanged o.defect fun e member about => absurd about (apart e member).2
    rw [Ledger.isBlocked, kept, ← Ledger.isBlocked]
    exact first.flagged o List.mem_cons_self

/-- A row of turns is a row of attempts. -/
theorem Turns.worked {p : Participants σ τ} {done : List DefectOutcome} {s last : Scene σ τ} {turns : List (Turn σ τ)}
    (run : Turns p done s turns last) (distinct : (Ledger.ids s.repair.ledger).Nodup) :
    Worked (done.map (·.defect)) s.repair last.repair (turns.map Turn.outcome) ∧
      ∀ t ∈ turns, t.outcome.defect = t.defect.id := by
  induction run with
  | none done s => exact ⟨.none _ _, by simp⟩
  | @more done s after last d outcome turns going next made rest ih =>
    obtain ⟨member, isOpen, fresh⟩ := next?_spec distinct next
    obtain ⟨first, about⟩ := Worked.turn (turn_recorded made) (Ledger.get?_of_mem distinct member) isOpen fresh
    obtain ⟨others, abouts⟩ := ih (first.ids ▸ distinct)
    rw [List.map_append] at others
    exact ⟨first.cons others, List.forall_mem_cons.mpr ⟨about, abouts⟩⟩

/-- Each turn of a row begins where those before it ended, with the defect that is next then. -/
theorem Turns.cut {p : Participants σ τ} {done : List DefectOutcome} {s last : Scene σ τ} {early late : List (Turn σ τ)}
    {t : Turn σ τ} (run : Turns p done s (early ++ t :: late) last) :
    Turns p done s early t.before ∧ t.before.next? ((done ++ early.map Turn.outcome).map (·.defect)) = some t.defect := by
  induction early generalizing done s with
  | nil =>
    cases run with
    | more going next made rest => exact ⟨.none _ _, by simpa using next⟩
  | cons first early ih =>
    cases run with
    | more going next made rest =>
      obtain ⟨before, next'⟩ := ih rest
      exact ⟨.more going next made before, by simpa using next'⟩

/-! ## What ends a batch -/

/-- The next defect leads the order of repair. -/
theorem next?_first {s : Scene σ τ} {attempted : List String} {d : Defect} (next : s.next? attempted = some d) :
    ∃ score, (Priority.rank (s.repair.ledger.filter (·.id ∉ attempted)) s.repair.history.rates).head? =
      some ⟨d.id, score⟩ := by
  unfold next? at next
  obtain ⟨first, ranked, found⟩ := Option.bind_eq_some_iff.mp next
  have left : (fun d : Defect => !attempted.contains d.id) = fun d => decide (d.id ∉ attempted) := by
    funext d
    simp
  rw [left] at ranked
  exact ⟨first.score, by rw [ranked, (Ledger.get?_eq_some found).2]⟩

/-- If no defect is next, every open one was attempted. -/
theorem next?_none {s : Scene σ τ} {attempted : List String} (finished : s.next? attempted = none) {d : Defect}
    (member : d ∈ s.repair.ledger) (isOpen : d.status = .unfixed) : d.id ∈ attempted := by
  by_contra fresh
  unfold next? at finished
  rw [Option.bind_eq_none_iff] at finished
  have listed : (⟨d.id, Priority.score Number.Binary64.rounded d (s.repair.history.rates d.typeName d.category)⟩ :
      Priority.Ranked) ∈
        Priority.rank (s.repair.ledger.filter fun d => !attempted.contains d.id) s.repair.history.rates := by
    simp only [Priority.rank, Priority.rankWith, List.mem_mergeSort, List.mem_map, List.mem_filter]
    exact ⟨d, ⟨⟨member, by simpa using fresh⟩, (Defect.isOpen_iff d).mpr isOpen⟩, rfl⟩
  obtain ⟨first, ranked⟩ := Option.isSome_iff_exists.mp (List.isSome_head?.mpr (List.ne_nil_of_mem listed))
  have known := List.mem_of_head? ranked
  simp only [Priority.rank, Priority.rankWith, List.mem_mergeSort, List.mem_map, List.mem_filter] at known
  obtain ⟨e, ⟨⟨inside, -⟩, -⟩, rfl⟩ := known
  exact Ledger.get?_eq_none_iff.mp (finished _ ranked) (List.mem_map_of_mem inside)

section
variable {attempted : List String} {before after : Repair} {outcomes : List DefectOutcome}

theorem Worked.subset (worked : Worked attempted before after outcomes) :
    outcomes.map (·.defect) ⊆ Ledger.ids (before.ledger.filter Defect.isOpen) := by
  intro id member
  obtain ⟨o, inside, rfl⟩ := List.mem_map.mp member
  obtain ⟨d, found, isOpen⟩ := worked.wasOpen o inside
  obtain ⟨there, id⟩ := Ledger.get?_eq_some found
  exact List.mem_map.mpr ⟨d, List.mem_filter.mpr ⟨there, (Defect.isOpen_iff d).mpr isOpen⟩, id⟩

/-- There are as many attempts as open defects if no open defect was left out. -/
theorem Worked.length (worked : Worked attempted before after outcomes) (distinct : (Ledger.ids before.ledger).Nodup) :
    outcomes.length ≤ (before.ledger.filter Defect.isOpen).length ∧
      ((∀ d ∈ after.ledger, d.status = .unfixed → d.id ∈ outcomes.map (·.defect)) →
        outcomes.length = (before.ledger.filter Defect.isOpen).length) := by
  have some : outcomes.length ≤ (before.ledger.filter Defect.isOpen).length := by
    have few := worked.distinct.length_le_of_subset worked.subset
    simpa [Ledger.ids] using few
  refine ⟨some, fun all => Nat.le_antisymm some ?_⟩
  have apart : (Ledger.ids (before.ledger.filter Defect.isOpen)).Nodup := distinct.sublist (List.filter_sublist.map _)
  have every : Ledger.ids (before.ledger.filter Defect.isOpen) ⊆ outcomes.map (·.defect) := by
    intro id member
    obtain ⟨d, inside, rfl⟩ := List.mem_map.mp member
    obtain ⟨there, isOpen⟩ := List.mem_filter.mp inside
    by_contra fresh
    have same := worked.unchanged d.id fun o attempted about => absurd (List.mem_map.mpr ⟨o, attempted, about⟩) fresh
    rw [Ledger.get?_of_mem distinct there] at same
    exact fresh (all d (Ledger.get?_eq_some same).1 ((Defect.isOpen_iff d).mp isOpen))
  have many := apart.length_le_of_subset every
  simpa [Ledger.ids] using many

/-- The attempts after which a defect was blocked are those on the defects that were open before and are blocked now. -/
theorem Worked.blocked (worked : Worked attempted before after outcomes) (distinct : (Ledger.ids before.ledger).Nodup) :
    ((outcomes.filter (·.blocked)).map (·.defect)).Perm
      (Ledger.ids (before.ledger.filter fun d => d.isOpen && after.ledger.isBlocked d.id)) := by
  have left : ((outcomes.filter (·.blocked)).map (·.defect)).Nodup :=
    worked.distinct.sublist (List.filter_sublist.map _)
  have right : (Ledger.ids (before.ledger.filter fun d => d.isOpen && after.ledger.isBlocked d.id)).Nodup :=
    distinct.sublist (List.filter_sublist.map _)
  refine (List.perm_ext_iff_of_nodup left right).mpr fun id => ⟨fun member => ?_, fun member => ?_⟩
  · obtain ⟨o, inside, rfl⟩ := List.mem_map.mp member
    obtain ⟨taken, blocked⟩ := List.mem_filter.mp inside
    obtain ⟨d, found, isOpen⟩ := worked.wasOpen o taken
    obtain ⟨there, id⟩ := Ledger.get?_eq_some found
    rw [worked.flagged o taken, ← id] at blocked
    exact List.mem_map.mpr ⟨d, List.mem_filter.mpr ⟨there, by simp [(Defect.isOpen_iff d).mpr isOpen, blocked]⟩, id⟩
  · obtain ⟨d, inside, rfl⟩ := List.mem_map.mp member
    obtain ⟨there, both⟩ := List.mem_filter.mp inside
    obtain ⟨isOpen, blocked⟩ := Bool.and_eq_true_iff.mp both
    have taken : ∃ o ∈ outcomes, o.defect = d.id := by
      by_contra untaken
      have same := worked.unchanged d.id fun o member about => absurd ⟨o, member, about⟩ untaken
      rw [Ledger.get?_of_mem distinct there] at same
      have free := isBlocked_eq_false same (by rw [(Defect.isOpen_iff d).mp isOpen]; decide)
      rw [free] at blocked
      cases blocked
    obtain ⟨o, member, about⟩ := taken
    refine List.mem_map.mpr ⟨o, List.mem_filter.mpr ⟨member, ?_⟩, about⟩
    rw [worked.flagged o member, about, blocked]

end

/-- What a batch does, when it gives a summary. The attempts are turns, and each turn takes the first defect in the order of
repair among the open ones that were not attempted before it, by the history of that moment. No defect is attempted twice,
and all were open at the start. What was counted on the way is what the outcomes show, and each outcome was counted once.
There are no more attempts than a batch may have, and if it was not called off there are so many, or one for each open
defect. Each attempt that is not skipped is recorded once, in order. The attempts after which a defect was blocked are those
on the defects that went from open to blocked. What was not attempted, or skipped, stays as it was. -/
theorem batch_runs_its_course {p : Participants σ τ} {s last : Scene σ τ} {summary : BatchSummary}
    (distinct : (Ledger.ids s.repair.ledger).Nodup) (ended : fixBatch p s = (.ok summary, last)) :
    (∃ turns, Turns p [] s.uncounted turns last ∧ summary.outcomes = turns.map Turn.outcome ∧
      ∀ early t late, turns = early ++ t :: late →
        Turns p [] s.uncounted early t.before ∧
        ∃ score, (Priority.rank (t.before.repair.ledger.filter (·.id ∉ early.map (·.outcome.defect)))
          t.before.repair.history.rates).head? = some ⟨t.outcome.defect, score⟩) ∧
    (summary.outcomes.map (·.defect)).Nodup ∧
    (∀ o ∈ summary.outcomes, ∃ d, s.repair.ledger.get? o.defect = some d ∧ d.status = .unfixed) ∧
    summary.toBatchCounts.Counts summary.outcomes ∧
    summary.outcomes.length = summary.fixed + summary.failed + summary.skipped ∧
    summary.outcomes.length ≤ max s.repair.config.batchSize 1 ∧
    (summary.cancelled = false → summary.outcomes.length =
      min (max s.repair.config.batchSize 1) (s.repair.ledger.filter Defect.isOpen).length) ∧
    (∃ records, last.repair.history = s.repair.history ++ records ∧
      List.Forall₂ (Tells s.repair.run) records (summary.outcomes.filter (·.result ≠ .skipped))) ∧
    (summary.blocking.map (·.defect)).Perm
      (Ledger.ids (s.repair.ledger.filter fun d => d.isOpen && last.repair.ledger.isBlocked d.id)) ∧
    Ledger.ids last.repair.ledger = Ledger.ids s.repair.ledger ∧
    ∀ d ∈ s.repair.ledger, (∀ o ∈ summary.outcomes, o.defect = d.id → o.result = .skipped) → d ∈ last.repair.ledger := by
  obtain ⟨turns, run, outcomes, bound, ends, counts⟩ := fixMore_ok ended
  rw [List.nil_append] at outcomes
  have counted : summary.toBatchCounts.Counts summary.outcomes := by
    rw [counts, outcomes]
    exact run.counts .none
  obtain ⟨worked, about⟩ := run.worked (uncounted_repair s ▸ distinct)
  rw [uncounted_repair] at worked
  rw [← outcomes] at worked
  have number : summary.outcomes.length = turns.length := by rw [outcomes, List.length_map]
  obtain ⟨few, all⟩ := worked.length distinct
  refine ⟨⟨turns, run, outcomes, ?first⟩, worked.distinct, worked.wasOpen, counted, counted.sum, ?bounded,
    ?full, worked.recorded, worked.blocked distinct, worked.ids, ?kept⟩
  case first =>
    rintro early t late rfl
    obtain ⟨before, next⟩ := run.cut
    obtain ⟨score, first⟩ := next?_first next
    refine ⟨before, score, ?_⟩
    rw [about t (by simp)]
    simpa using first
  case bounded =>
    rw [number]
    exact bound
  case full =>
    intro going
    have size : Priority.batchSize s.repair.config.batchSize = max s.repair.config.batchSize 1 := rfl
    rcases Nat.lt_or_ge turns.length (max s.repair.config.batchSize 1) with short | long
    · have finished := ends going (size ▸ short)
      have every := all fun d member isOpen => next?_none finished member isOpen
      omega
    · omega
  case kept =>
    intro d member untouched
    have same := worked.unchanged d.id untouched
    rw [Ledger.get?_of_mem distinct member] at same
    exact (Ledger.get?_eq_some same).1

/-- The only open defect is attempted, though the batch has room for two. Its fix is judged bad and taken back, which is
recorded, and blocks it. -/
theorem only_open_defect_attempted :
    let reply : Response := .ok "APPROACH: guard\nCONFIDENCE: 0.9\n```\nx = 2\n```"
    let p : Participants Unit Unit :=
      ⟨.standard, ⟨"model", fun _ _ => (⟨reply, 0⟩, ())⟩, ⟨fun judged disk => (.fail "no", judged, disk)⟩,
        fun _ _ => false, fun _ => .epoch, .ofNat⟩
    let known := fun line => Defect.new .typeCheck .high (some "a.py") (some line) "wrong" .epoch
    let ledger := [{ known 2 with status := .blocked }, known 1]
    let config := { Config.standard with maxAttempts := 1, batchSize := 2 }
    let tree : Tree := ⟨[(["r"], .directory), (["r", "a.py"], .file "x = 1\n".toUTF8 .shared)]⟩
    let s : Scene Unit Unit := ⟨⟨"/r", config, ledger, [], .ofNat 1⟩, (), (), .sound tree, {}⟩
    ∃ summary last, fixBatch p s = (.ok summary, last) ∧
      summary.outcomes.map (fun o => (o.defect, o.result, o.blocked)) = [("ts-a_py-L1", .reverted, true)] ∧
      (Ledger.ids ledger).Nodup ∧ summary.outcomes.length = min (max 2 1) (ledger.filter Defect.isOpen).length ∧
      (∃ records, last.repair.history = records ∧
        List.Forall₂ (Tells (.ofNat 1)) records (summary.outcomes.filter (·.result ≠ .skipped))) ∧
      (summary.blocking.map (·.defect)).Perm
        (Ledger.ids (ledger.filter fun d => d.isOpen && last.repair.ledger.isBlocked d.id)) := by
  intro reply p known ledger config tree s
  have distinct : (Ledger.ids ledger).Nodup := by decide +kernel
  have results : (fixBatch p s).1.toOption.map (fun summary =>
      (summary.outcomes.map (fun o => (o.defect, o.result, o.blocked)), summary.cancelled)) =
        some ([("ts-a_py-L1", .reverted, true)], false) := by
    decide +kernel
  rcases ended : fixBatch p s with ⟨result, last⟩
  rw [ended] at results
  cases result with
  | error e => cases results
  | ok summary =>
    obtain ⟨fates, going⟩ := Prod.mk.inj (Option.some.inj results)
    obtain ⟨-, -, -, -, -, -, full, recorded, blocked, -⟩ := batch_runs_its_course (s := s) distinct ended
    exact ⟨summary, last, rfl, fates, distinct, full going, by simpa [s] using recorded, blocked⟩

end Scene

end GatedRepair
