import GatedRepair.Proofs.Collection.Spelling
import GatedRepair.Proofs.Repair.Turns
import GatedRepair.Proofs.State.Reload

/-!
# Calls

The calls that change the work on a repository (`Call`), and what each of them can do to the ledger and the history.
-/

namespace GatedRepair

open Files

/-- A call that may change the ledger and the history. -/
inductive Call : Type 1 where
  | ingest (outputs : List ProducerOutput) (now : Timestamp)
  | fix {σ τ : Type} (p : Participants σ τ) (asked : σ) (judged : τ)
  | unblock (id : String) (now : Timestamp)
  | unblockAll (now : Timestamp)

/-- What a call gives. -/
inductive Answer where
  | collected (summary : CollectionSummary)
  | attempted (summary : BatchSummary)
  | released (was : Bool)
  | releasedAll (count : Nat)

/-- The attempts that a batch charges. -/
def BatchSummary.charged (s : BatchSummary) : Nat := s.fixed + s.failed

namespace Repair

/-- A step with its result as an answer. -/
def answering {α : Type} (answer : α → Answer) (step : Step α) : Step Answer := (step.1.map answer, step.2)

/-- Makes a call. -/
def perform (r : Repair) (disk : Disk) : Call → Step Answer
  | .ingest outputs now => answering .collected (r.ingest outputs now disk)
  | .fix p asked judged =>
    let (result, s) := Scene.fixBatch p ⟨r, asked, judged, disk, {}⟩
    answering .attempted (result, s.repair, s.disk)
  | .unblock id now => answering .released (r.unblock id now disk)
  | .unblockAll now => answering .releasedAll (r.unblockAll now disk)

theorem answering_ok {α : Type} {f : α → Answer} {step : Step α} {answer : Answer} {rest : Repair × Disk}
    (made : answering f step = (.ok answer, rest)) : ∃ given, step = (.ok given, rest) ∧ answer = f given := by
  obtain ⟨result, rest'⟩ := step
  cases result with
  | error e => simp [answering, Except.map] at made
  | ok given =>
    obtain ⟨rfl, rfl⟩ := by simpa [answering, Except.map] using made
    exact ⟨given, rfl, rfl⟩

/-- A step that gives a result has saved the work. -/
theorem saving_ok {α : Type} {r last : Repair} {disk after : Disk} {now : Timestamp} {result given : α}
    (made : saving r disk now result = (.ok given, last, after)) :
    given = result ∧ last = r ∧ r.save disk now = (.ok (), after) := by
  unfold saving at made
  split at made
  · next saved =>
    obtain ⟨rfl, rfl, rfl⟩ := by simpa using made
    exact ⟨rfl, rfl, saved⟩
  · simp at made

section
variable {r last : Repair} {disk after : Disk} {answer : Answer}

theorem ingest_eq (outputs : List ProducerOutput) (now : Timestamp) : r.ingest outputs now disk =
    let collection := Collection.ofOutputs .standard r.root (fun path => (disk.tree.canonical path).toOption) now outputs
    saving { r with ledger := (r.ledger.merge collection.defects collection.scope now).1 } disk now
      ⟨(r.ledger.merge collection.defects collection.scope now).2, collection⟩ := rfl

theorem perform_ingest {outputs : List ProducerOutput} {now : Timestamp}
    (made : r.perform disk (.ingest outputs now) = (.ok answer, last, after)) :
    ∃ summary incoming scope, answer = .collected summary ∧ (∀ d ∈ incoming, d.Untried ∧ d.Storable) ∧
      last = { r with ledger := (r.ledger.merge incoming scope now).1 } ∧ last.save disk now = (.ok (), after) := by
  obtain ⟨summary, step, rfl⟩ := answering_ok made
  rw [ingest_eq] at step
  obtain ⟨-, rfl, saved⟩ := saving_ok step
  exact ⟨summary, _, _, rfl, fun d told => ⟨Collection.untried_defects told, Collection.storable_defects told⟩, rfl, saved⟩

/-- Releasing one defect releases it if it was blocked, and does nothing otherwise. -/
theorem perform_unblock {id : String} {now : Timestamp}
    (made : r.perform disk (.unblock id now) = (.ok answer, last, after)) :
    answer = .released (r.ledger.isBlocked id) ∧
      ((r.ledger.isBlocked id = true ∧ last = { r with ledger := r.ledger.unblock id now } ∧
          last.save disk now = (.ok (), after)) ∨
        (r.ledger.isBlocked id = false ∧ last = r ∧ after = disk)) := by
  obtain ⟨was, step, rfl⟩ := answering_ok made
  unfold unblock at step
  split at step
  · next blocked =>
    obtain ⟨rfl, rfl, saved⟩ := saving_ok step
    exact ⟨by rw [blocked], .inl ⟨blocked, rfl, saved⟩⟩
  · next free =>
    obtain ⟨rfl, rfl, rfl⟩ := by simpa using step
    have free : r.ledger.isBlocked id = false := by simpa using free
    exact ⟨by rw [free], .inr ⟨free, rfl, rfl⟩⟩

theorem perform_unblockAll {now : Timestamp} (made : r.perform disk (.unblockAll now) = (.ok answer, last, after)) :
    answer = .releasedAll r.ledger.blocked.length ∧
      ((last = { r with ledger := r.ledger.unblockAll now } ∧ last.save disk now = (.ok (), after)) ∨
        (r.ledger.blocked = [] ∧ last = r ∧ after = disk)) := by
  obtain ⟨count, step, rfl⟩ := answering_ok made
  unfold unblockAll at step
  simp only at step
  split at step
  · obtain ⟨rfl, rfl, saved⟩ := saving_ok step
    exact ⟨rfl, .inl ⟨rfl, saved⟩⟩
  · next none =>
    obtain ⟨rfl, rfl, rfl⟩ := by simpa using step
    have none : r.ledger.blocked = [] := by simpa using none
    exact ⟨by rw [none]; rfl, .inr ⟨none, rfl, rfl⟩⟩

/-- A batch is a row of turns whose outcomes the summary lists. -/
theorem perform_fix {σ τ : Type} {p : Participants σ τ} {asked : σ} {judged : τ}
    (made : r.perform disk (.fix p asked judged) = (.ok answer, last, after)) :
    ∃ summary turns s, answer = .attempted summary ∧ Scene.Turns p [] ⟨r, asked, judged, disk, {}⟩ turns s ∧
      summary.outcomes = turns.map Turn.outcome ∧ summary.toBatchCounts.Counts summary.outcomes ∧ last = s.repair ∧
      after = s.disk := by
  obtain ⟨summary, step, rfl⟩ := answering_ok made
  obtain ⟨result, rfl, rfl⟩ := by simpa using step
  obtain ⟨turns, run, outcomes, -, -, counts⟩ := Scene.fixMore_ok (Prod.ext result rfl)
  rw [List.nil_append] at outcomes
  have counted : summary.toBatchCounts.Counts summary.outcomes := by
    rw [counts, outcomes]
    exact run.counts .none
  exact ⟨summary, turns, _, rfl, run, outcomes, counted, rfl, rfl⟩

end

end Repair

/-!
## The history accounts for the ledger

While calls are made, it is noted how long the history was when each defect was last released, how often each defect
was opened again, and how many attempts the summaries charge (`Account`). The attempts and the regressions in the ledger
agree with these notes and the history after any calls (`history_accounts_for_ledger`).
-/

namespace History

/-- The number of failed attempts on a defect. -/
def failuresOf (id : String) (history : History) : Nat := history.countP fun x => x.defect == id && !x.success

/-- The number of successful attempts on a defect. -/
def successesOf (id : String) (history : History) : Nat := history.countP fun x => x.defect == id && x.success

end History

/-- The work on a repository, and what was noted about the calls that led to it. -/
structure Account where
  repair : Repair
  /-- How long the history was when a defect was last released. -/
  marks : String → Nat
  /-- How often a defect was opened again. -/
  reopened : String → Nat
  /-- How many attempts the summaries charge. -/
  charged : Nat

namespace Account

open History Scene

/-- The account at the beginning. -/
def opening (r : Repair) : Account := ⟨r, fun _ => 0, fun _ => 0, 0⟩

/-- The status of the defect with an identifier. -/
def statusOf (r : Repair) (id : String) : Option Status := (r.ledger.get? id).map (·.status)

/-- The account after a call. -/
def after (a : Account) (call : Call) (answer : Answer) (r : Repair) : Account where
  repair := r
  marks id := match call, answer with
    | .unblock one _, .released true => if id = one then r.history.length else a.marks id
    | .unblockAll _, _ => if statusOf a.repair id = some .blocked then r.history.length else a.marks id
    | _, _ => a.marks id
  reopened id := match call with
    | .ingest _ _ => a.reopened id + if statusOf a.repair id = some .fixed ∧ statusOf r id = some .unfixed then 1 else 0
    | _ => a.reopened id
  charged := match answer with
    | .attempted summary => a.charged + summary.charged
    | _ => a.charged

/-- Calls that all give a result, made one after another, each of them with some disk. -/
inductive Runs : Account → Account → Prop
  | none (a : Account) : Runs a a
  | call {a last : Account} {r : Repair} {disk disk' : Disk} {call : Call} {answer : Answer}
      (made : a.repair.perform disk call = (.ok answer, r, disk')) (rest : Runs (a.after call answer r) last) :
      Runs a last

/-- Makes calls one after another on a disk, if they all give a result. -/
def play (a : Account) (disk : Disk) : List Call → Option Account
  | [] => some a
  | call :: more =>
    match a.repair.perform disk call with
    | (.ok answer, r, disk) => (a.after call answer r).play disk more
    | (.error _, _) => none

theorem runs_of_play {a last : Account} {disk : Disk} {calls : List Call} (played : a.play disk calls = some last) :
    Runs a last := by
  induction calls generalizing a disk with
  | nil =>
    obtain rfl := by simpa [play] using played
    exact .none a
  | cons call more ih =>
    unfold play at played
    split at played
    · next made => exact .call made (ih played)
    · simp at played

/-! ### The balance -/

/-- The ledger agrees with the history and the notes. -/
structure Balanced (marks reopened : String → Nat) (r : Repair) : Prop where
  sound : r.ledger.Sound (max r.config.maxAttempts 1)
  known : ∀ x ∈ r.history, x.defect ∈ Ledger.ids r.ledger
  honest : ∀ x ∈ r.history, x.success = x.failureReason.isNone
  past : ∀ id, marks id ≤ r.history.length
  first : ∀ id, id ∉ Ledger.ids r.ledger → reopened id = 0
  attempts : ∀ d ∈ r.ledger, d.attempts = failuresOf d.id (r.history.drop (marks d.id))
  regressions : ∀ d ∈ r.ledger, d.regressions = min (reopened d.id) (Number.bound32 - 1)
  successes : ∀ d ∈ r.ledger,
    successesOf d.id r.history ≤ reopened d.id + if d.status = .fixed then 1 else 0

section
variable {marks reopened : String → Nat} {r : Repair}

theorem failuresOf_drop_append (id : String) {mark : Nat} {history : History} (past : mark ≤ history.length)
    (x : Attempt) : failuresOf id ((history ++ [x]).drop mark) =
      failuresOf id (history.drop mark) + if x.defect = id ∧ x.success = false then 1 else 0 := by
  rw [List.drop_append_of_le_length past]
  simp [failuresOf, List.countP_append, List.countP_cons]

theorem successesOf_append (id : String) (history : History) (x : Attempt) :
    successesOf id (history ++ [x]) = successesOf id history + if x.defect = id ∧ x.success = true then 1 else 0 := by
  simp [successesOf, List.countP_append, List.countP_cons]

theorem Balanced.unrecorded (balanced : Balanced marks reopened r) {id : String} (unknown : id ∉ Ledger.ids r.ledger) :
    successesOf id r.history = 0 ∧ ∀ mark, failuresOf id (r.history.drop mark) = 0 := by
  have other : ∀ x ∈ r.history, x.defect ≠ id := by
    rintro x member rfl
    exact unknown (balanced.known x member)
  refine ⟨?_, fun mark => ?_⟩
  · rw [successesOf, List.countP_eq_zero]
    intro x member
    simp [other x member]
  · rw [failuresOf, List.countP_eq_zero]
    intro x member
    simp [other x (List.mem_of_mem_drop member)]

/-- A recorded attempt: the record and the change to the defect count the same. -/
theorem Balanced.record (balanced : Balanced marks reopened r) {d : Defect} (member : d ∈ r.ledger)
    {change : Defect → Defect} {x : Attempt} (about : x.defect = d.id) (honest : x.success = x.failureReason.isNone)
    (identity : ∀ e, (change e).id = e.id ∧ (change e).kind = e.kind ∧ (change e).createdAt = e.createdAt)
    (sound : Ledger.Sound (max r.config.maxAttempts 1) (r.ledger.update d.id change))
    (attempts : (change d).attempts = d.attempts + if x.success = false then 1 else 0)
    (regressions : (change d).regressions = d.regressions)
    (successes : ((if x.success = true then 1 else 0) + if d.status = .fixed then 1 else 0) ≤
      if (change d).status = .fixed then 1 else 0) :
    Balanced marks reopened { r with ledger := r.ledger.update d.id change, history := r.history ++ [x] } := by
  have changed := Ledger.update_eq_map balanced.sound.distinct d.id change
  have identity := @Ledger.only_keeps _ d.id identity
  have same : Ledger.ids (r.ledger.update d.id change) = Ledger.ids r.ledger := by
    rw [changed, Ledger.ids_map fun e => (identity e).1]
  have alone : ∀ e ∈ r.ledger, e.id = d.id ∧ e = d ∧ Ledger.only d.id change e = change d ∨
      e.id ≠ d.id ∧ Ledger.only d.id change e = e := by
    intro e inside
    by_cases it : e.id = d.id
    · obtain rfl := Ledger.eq_of_id_eq balanced.sound.distinct inside member it
      exact .inl ⟨rfl, rfl, if_pos rfl⟩
    · exact .inr ⟨it, if_neg it⟩
  refine ⟨sound, ?_, ?_, ?_, ?_, ?_, ?_, ?_⟩
  · intro y recorded
    rw [same]
    rcases List.mem_append.mp recorded with old | new
    · exact balanced.known y old
    · obtain rfl := List.mem_singleton.mp new
      exact List.mem_map.mpr ⟨d, member, about.symm⟩
  · intro y recorded
    rcases List.mem_append.mp recorded with old | new
    · exact balanced.honest y old
    · obtain rfl := List.mem_singleton.mp new
      exact honest
  · intro id
    exact Nat.le_trans (balanced.past id) (by simp)
  · simp only [same]
    exact balanced.first
  all_goals
    simp only [changed]
    intro e' found
    obtain ⟨e, inside, rfl⟩ := List.mem_map.mp found
    rw [(identity e).1]
  · have before := balanced.attempts e inside
    rw [failuresOf_drop_append _ (balanced.past e.id), ← before]
    rcases alone e inside with ⟨-, rfl, it⟩ | ⟨other, it⟩
    · simp only [it, attempts, about, true_and]
    · simp [it, about, Ne.symm other]
  · have before := balanced.regressions e inside
    rcases alone e inside with ⟨-, rfl, it⟩ | ⟨-, it⟩
    · rw [it, regressions, before]
    · rw [it, before]
  · have before := balanced.successes e inside
    rw [successesOf_append]
    rcases alone e inside with ⟨-, rfl, it⟩ | ⟨other, it⟩
    · simp only [it, about, true_and]
      omega
    · simpa [it, about, Ne.symm other] using before

/-- One turn of a batch keeps the balance, and adds as many records as its outcome charges. -/
theorem Balanced.turn (balanced : Balanced marks reopened r) (small : r.config.maxAttempts < Number.bound32)
    {d : Defect} (member : d ∈ r.ledger) (isOpen : d.status = .unfixed) {consensus : Consensus}
    {outcome : DefectOutcome} {last : Repair} (recorded : Recorded consensus r d outcome last) :
    Balanced marks reopened last ∧ last.config = r.config ∧ r.history <+: last.history ∧
      last.history.length = r.history.length + [outcome].countP (·.result ≠ .skipped) := by
  cases recorded with
  | skipped reasons none => exact ⟨balanced, rfl, List.prefix_rfl, rfl⟩
  | fixed c agreement id now chosen =>
    refine ⟨?_, rfl, List.prefix_append _ _, by simp⟩
    exact balanced.record member rfl rfl (Ledger.withFix_identity _ _)
      (balanced.sound.markFixed member isOpen _ _).1 rfl rfl (by simp [isOpen, Attempt.on, Ledger.withFix])
  | failed c agreement id now result reason chosen failure =>
    have positive : max r.config.maxAttempts 1 < Number.bound32 := by
      have one : 1 < Number.bound32 := by decide
      omega
    refine ⟨?_, rfl, List.prefix_append _ _, ?_⟩
    · refine balanced.record member rfl rfl (Ledger.withFailure_identity _ _ _)
        (balanced.sound.recordFailure member isOpen positive _ _).1 ?_ rfl (by simp [isOpen, Attempt.on])
      exact (balanced.sound.each d member).attempts_withFailure now isOpen positive reason _
    · have taken : result ≠ .skipped := by
        rintro rfl
        cases failure
      simp [taken]

/-- A row of turns keeps the balance. -/
theorem Balanced.turns {σ τ : Type} {p : Participants σ τ} {done : List DefectOutcome} {s last : Scene σ τ}
    {turns : List (Turn σ τ)} (run : Turns p done s turns last)
    (balanced : Balanced marks reopened s.repair) (small : s.repair.config.maxAttempts < Number.bound32) :
    Balanced marks reopened last.repair ∧ last.repair.config = s.repair.config ∧
      s.repair.history <+: last.repair.history ∧
      last.repair.history.length =
        s.repair.history.length + (turns.map Turn.outcome).countP (·.result ≠ .skipped) := by
  induction run with
  | none => exact ⟨balanced, rfl, List.prefix_rfl, rfl⟩
  | more going next made rest ih =>
    obtain ⟨member, isOpen, -⟩ := next?_spec balanced.sound.distinct next
    obtain ⟨balanced, config, grown, counted⟩ := balanced.turn small member isOpen (turn_recorded made)
    obtain ⟨balanced, config', grown', counted'⟩ := ih balanced (config ▸ small)
    refine ⟨balanced, config'.trans config, grown.trans grown', ?_⟩
    rw [counted', counted, Nat.add_assoc, ← List.countP_append]
    rfl

end

/-! ### Reports and releases -/

section
variable {reopened : String → Nat} {r : Repair} (now : Timestamp)

/-- A settled defect was opened again, or it was not: then it counts as fixed if it did before. -/
theorem settled_counts (incoming : List Defect) (scope : List DefectKind) (d : Defect) :
    (Ledger.settled incoming scope now d).1.attempts = d.attempts ∧
    ((d.status = .fixed ∧ (Ledger.settled incoming scope now d).1.status = .unfixed ∧
        (Ledger.settled incoming scope now d).1.regressions = Number.saturatingAdd Number.bound32 d.regressions 1) ∨
      (¬ (d.status = .fixed ∧ (Ledger.settled incoming scope now d).1.status = .unfixed) ∧
        (d.status = .fixed → (Ledger.settled incoming scope now d).1.status = .fixed) ∧
        (Ledger.settled incoming scope now d).1.regressions = d.regressions)) := by
  unfold Ledger.settled
  split
  · unfold Ledger.miss
    split
    · exact ⟨rfl, .inr ⟨fun ⟨_, h⟩ => (nomatch h), fun _ => rfl, rfl⟩⟩
    · refine ⟨rfl, .inr ⟨?_, id, rfl⟩⟩
      rintro ⟨fixed, isOpen⟩
      exact absurd (fixed.symm.trans isOpen) (by decide)
  · next f _ =>
    have attempts : (Ledger.refresh now d f).attempts = d.attempts := by rw [Ledger.refresh_keeps]
    have regressions : (Ledger.refresh now d f).regressions = d.regressions := by rw [Ledger.refresh_keeps]
    unfold Ledger.receive
    split
    · next fixed => exact ⟨attempts, .inl ⟨fixed, rfl, rfl⟩⟩
    · next unfixed => exact ⟨attempts, .inr ⟨fun h => unfixed h.1, fun fixed => absurd fixed unfixed, regressions⟩⟩

/-- What tools report keeps the balance, once it is noted what was opened again. -/
theorem Balanced.merge {marks : String → Nat} (balanced : Balanced marks reopened r) {incoming : List Defect}
    (untried : ∀ d ∈ incoming, d.Untried) (scope : List DefectKind) {last : Repair}
    (merged : last = { r with ledger := (r.ledger.merge incoming scope now).1 }) :
    Balanced marks (fun id => reopened id +
      if statusOf r id = some .fixed ∧ statusOf last id = some .unfixed then 1 else 0) last := by
  subst merged
  have distinct := balanced.sound.distinct
  have sound := (balanced.sound.merge (by omega) untried scope now).1
  have found : ∀ d ∈ r.ledger, (r.ledger.merge incoming scope now).1.get? d.id =
      some (Ledger.settled incoming scope now d).1 := by
    intro d member
    rw [Ledger.get?_merge incoming scope now distinct, Ledger.get?_of_mem distinct member]
  -- A member of the merged ledger is a settled defect, or it is new and nothing is noted about it.
  have cases : ∀ e ∈ (r.ledger.merge incoming scope now).1,
      (∃ d ∈ r.ledger, e = (Ledger.settled incoming scope now d).1) ∨
        (e.id ∉ Ledger.ids r.ledger ∧ e.attempts = 0 ∧ e.regressions = 0) := by
    rw [Ledger.merge_eq incoming scope now distinct]
    intro e member
    rcases List.mem_append.mp member with known | new
    · obtain ⟨d, inside, rfl⟩ := List.mem_map.mp known
      exact .inl ⟨d, inside, rfl⟩
    · obtain ⟨f, unknown, rfl⟩ := List.mem_map.mp new
      obtain ⟨reported, absent⟩ := Ledger.mem_unknown.mp unknown
      have untried := untried f (Ledger.mem_of_mem_firsts reported)
      exact .inr ⟨absent, untried.attempts, untried.regressions⟩
  have unknown : ∀ id, id ∉ Ledger.ids r.ledger → statusOf r id = none := by
    intro id absent
    rw [statusOf, Ledger.get?_eq_none_iff.mpr absent, Option.map_none]
  refine ⟨sound, ?_, balanced.honest, balanced.past, ?_, ?_, ?_, ?_⟩
  · intro x recorded
    exact (Ledger.mem_ids_merge incoming scope now _ _).mpr (.inl (balanced.known x recorded))
  · intro id absent
    have before : id ∉ Ledger.ids r.ledger :=
      fun known => absent ((Ledger.mem_ids_merge incoming scope now _ id).mpr (.inl known))
    simp [balanced.first id before, unknown id before]
  · intro e member
    rcases cases e member with ⟨d, inside, rfl⟩ | ⟨absent, none, -⟩
    · rw [Ledger.settled_id, (settled_counts now incoming scope d).1]
      exact balanced.attempts d inside
    · rw [none, (balanced.unrecorded absent).2]
  · intro e member
    rcases cases e member with ⟨d, inside, rfl⟩ | ⟨absent, -, none⟩
    · have before := balanced.regressions d inside
      simp only [Ledger.settled_id, statusOf, found d inside, Ledger.get?_of_mem distinct inside, Option.map_some,
        Option.some.injEq]
      rcases (settled_counts now incoming scope d).2 with ⟨fixed, isOpen, more⟩ | ⟨not, -, same⟩
      · rw [if_pos ⟨fixed, isOpen⟩, more, before, Number.saturatingAdd]
        omega
      · rw [if_neg not, same, before, Nat.add_zero]
    · simp [none, balanced.first e.id absent, unknown e.id absent]
  · intro e member
    rcases cases e member with ⟨d, inside, rfl⟩ | ⟨absent, -, -⟩
    · have before := balanced.successes d inside
      simp only [Ledger.settled_id, statusOf, found d inside, Ledger.get?_of_mem distinct inside, Option.map_some,
        Option.some.injEq]
      rcases (settled_counts now incoming scope d).2 with ⟨fixed, isOpen, -⟩ | ⟨not, still, -⟩
      · rw [if_pos fixed] at before
        simp only [fixed, isOpen, and_self, if_true]
        omega
      · rw [if_neg not]
        by_cases fixed : d.status = .fixed
        · simpa [fixed, still fixed] using before
        · rw [if_neg fixed] at before
          omega
    · rw [(balanced.unrecorded absent).1]
      exact Nat.zero_le _

/-- Releasing some of the blocked defects keeps the balance, once it is noted how long the history is. -/
theorem Balanced.release {marks : String → Nat} (balanced : Balanced marks reopened r) (free : String → Prop)
    [DecidablePred free] (blocked : ∀ d ∈ r.ledger, free d.id → d.status = .blocked) {ledger : Ledger}
    (freed : ledger = r.ledger.map fun d => if free d.id then Ledger.released now d else d) :
    Balanced (fun id => if free id then r.history.length else marks id) reopened { r with ledger } := by
  have change : ∀ d ∈ r.ledger, (free d.id ∧ (if free d.id then Ledger.released now d else d) =
        { d with status := .unfixed, attempts := 0, updatedAt := now }) ∨
      (¬ free d.id ∧ (if free d.id then Ledger.released now d else d) = d) := by
    intro d member
    by_cases h : free d.id
    · exact .inl ⟨h, by rw [if_pos h, Ledger.released, if_pos (blocked d member h)]⟩
    · exact .inr ⟨h, if_neg h⟩
  have identity : ∀ d : Defect, (if free d.id then Ledger.released now d else d).id = d.id := by
    intro d
    split
    · exact (Ledger.released_identity now d).1
    · rfl
  have same : Ledger.ids ledger = Ledger.ids r.ledger := by rw [freed, Ledger.ids_map identity]
  refine ⟨?_, ?_, balanced.honest, ?_, ?_, ?_, ?_, ?_⟩
  · simp only [freed]
    refine balanced.sound.map identity ?_
    intro d member
    split
    · exact (balanced.sound.each d member).released now (by omega)
    · exact balanced.sound.each d member
  · simp only [same]
    exact balanced.known
  · intro id
    simp only
    split
    · exact Nat.le_refl _
    · exact balanced.past id
  · simp only [same]
    exact balanced.first
  all_goals
    simp only [freed]
    intro e' found
    obtain ⟨e, inside, rfl⟩ := List.mem_map.mp found
    rw [identity e]
    rcases change e inside with ⟨h, it⟩ | ⟨h, it⟩ <;> rw [it]
  · simp only [h, if_true, List.drop_length]
    rfl
  · simp only [h, if_false]
    exact balanced.attempts e inside
  · exact balanced.regressions e inside
  · exact balanced.regressions e inside
  · have before := balanced.successes e inside
    simpa [blocked e inside h] using before
  · exact balanced.successes e inside

end

/-! ### Calls -/

theorem statusOf_of_mem {r : Repair} (distinct : (Ledger.ids r.ledger).Nodup) {d : Defect} (member : d ∈ r.ledger) :
    statusOf r d.id = some d.status := by
  rw [statusOf, Ledger.get?_of_mem distinct member, Option.map_some]

theorem blocked_of_isBlocked {r : Repair} (distinct : (Ledger.ids r.ledger).Nodup) {d : Defect} (member : d ∈ r.ledger)
    (blocked : r.ledger.isBlocked d.id = true) : d.status = .blocked := by
  unfold Ledger.isBlocked at blocked
  rw [Ledger.get?_of_mem distinct member] at blocked
  simpa using blocked

/-- The balance of an account. -/
abbrev Even (a : Account) : Prop := Balanced a.marks a.reopened a.repair

/-- Every call keeps the balance. It only adds to the history, and as much as its answer charges. -/
theorem Even.call {a : Account} (even : a.Even) (small : a.repair.config.maxAttempts < Number.bound32) {call : Call}
    {answer : Answer} {r : Repair} {disk disk' : Disk} (made : a.repair.perform disk call = (.ok answer, r, disk')) :
    (a.after call answer r).Even ∧ r.config = a.repair.config ∧ a.repair.history <+: r.history ∧
      r.history.length + a.charged = a.repair.history.length + (a.after call answer r).charged := by
  have distinct := even.sound.distinct
  cases call with
  | ingest outputs now =>
    obtain ⟨summary, incoming, scope, rfl, told, rfl, -⟩ := Repair.perform_ingest made
    exact ⟨even.merge now (fun d member => (told d member).1) scope rfl, rfl, List.prefix_rfl, rfl⟩
  | fix p asked judged =>
    obtain ⟨summary, turns, s, rfl, run, outcomes, counts, rfl, -⟩ := Repair.perform_fix made
    obtain ⟨balanced, config, grown, counted⟩ := Balanced.turns run even small
    refine ⟨balanced, config, grown, ?_⟩
    have charged : (a.after (.fix p asked judged) (.attempted summary) s.repair).charged = a.charged + summary.charged :=
      rfl
    have all : summary.charged = (turns.map Turn.outcome).countP (·.result ≠ .skipped) := by
      rw [← outcomes]
      exact counts.charged
    rw [charged, counted, all, Nat.add_assoc, Nat.add_comm a.charged]
  | unblock id now =>
    obtain ⟨rfl, ⟨blocked, rfl, -⟩ | ⟨free, rfl, -⟩⟩ := Repair.perform_unblock made
    · rw [blocked]
      refine ⟨?_, rfl, List.prefix_rfl, rfl⟩
      refine even.release now (· = id) ?_ (Ledger.update_eq_map distinct id _)
      rintro d member rfl
      exact blocked_of_isBlocked distinct member blocked
    · rw [free]
      exact ⟨even, rfl, List.prefix_rfl, rfl⟩
  | unblockAll now =>
    obtain ⟨rfl, ⟨rfl, -⟩ | ⟨none, rfl, -⟩⟩ := Repair.perform_unblockAll made
    · refine ⟨?_, rfl, List.prefix_rfl, rfl⟩
      refine even.release now (fun id => statusOf a.repair id = some .blocked) ?_ ?_
      · intro d member blocked
        rw [statusOf_of_mem distinct member] at blocked
        exact Option.some.inj blocked
      · refine List.map_congr_left fun d member => ?_
        by_cases blocked : d.status = .blocked
        · rw [if_pos (by rw [statusOf_of_mem distinct member, blocked])]
        · rw [Ledger.released, if_neg blocked, ite_self]
    · refine ⟨?_, rfl, List.prefix_rfl, rfl⟩
      have unmarked : (a.after (.unblockAll now) (.releasedAll a.repair.ledger.blocked.length) a.repair).marks = a.marks := by
        funext id
        refine if_neg fun blocked => ?_
        obtain ⟨d, found, status⟩ := Option.map_eq_some_iff.mp blocked
        have member : d ∈ a.repair.ledger.blocked :=
          List.mem_filter.mpr ⟨(Ledger.get?_eq_some found).1, by simp [status]⟩
        simp [none] at member
      unfold Even
      rw [unmarked]
      exact even

/-- Calls keep the balance. -/
theorem Even.runs {a last : Account} (run : Runs a last) (even : a.Even)
    (small : a.repair.config.maxAttempts < Number.bound32) :
    last.Even ∧ last.repair.config = a.repair.config ∧ a.repair.history <+: last.repair.history ∧
      last.repair.history.length + a.charged = a.repair.history.length + last.charged := by
  induction run with
  | none => exact ⟨even, rfl, List.prefix_rfl, rfl⟩
  | call made rest ih =>
    obtain ⟨even, config, grown, counted⟩ := even.call small made
    obtain ⟨even, config', grown', counted'⟩ := ih even (config ▸ small)
    refine ⟨even, config'.trans config, grown.trans grown', ?_⟩
    have same : ∀ (b : Account) (c : Call) (answer : Answer) (r : Repair), (b.after c answer r).repair = r :=
      fun _ _ _ _ => rfl
    rw [same] at counted'
    omega

/-- Nothing is in the ledger and the history yet. -/
def Blank (r : Repair) : Prop := r.ledger = [] ∧ r.history = []

theorem Blank.even {r : Repair} (blank : Blank r) : (opening r).Even := by
  obtain ⟨noDefects, noAttempts⟩ := blank
  unfold Even opening
  refine ⟨?_, ?_, ?_, ?_, ?_, ?_, ?_, ?_⟩
  · simp only [noDefects]
    exact Ledger.sound_nil _
  all_goals simp [noDefects, noAttempts]

/-- A repository without state files is blank when it is opened. -/
theorem blank_of_opened {disk last : Disk} {path : String} {config : Config} {run : Uuid} {now : Timestamp} {r : Repair}
    (begun : Repair.opened disk path config run now = (.ok r, last))
    (noDefects : disk.tree.readText (State.defectsPath r.root) = .error .notFound)
    (noHistory : disk.tree.readText (State.historyPath r.root) = .error .notFound) : Blank r := by
  obtain ⟨-, -, between, first, second⟩ := Repair.opened_ok begun
  have unread : ∀ {disk : Disk} {path : String}, disk.tree.readText path = .error .notFound →
      ∀ text, (disk.readText path).1 ≠ .ok text := by
    intro disk path missing text read
    rw [(State.readText_ok read).1] at missing
    cases missing
  unfold Ledger.load at first
  unfold History.load at second
  split at first
  · next document disk' loaded =>
    obtain ⟨rfl, kept⟩ := State.load_unread loaded (unread noDefects)
    obtain ⟨noLedger, rfl⟩ := by simpa using first
    split at second
    · next document' disk'' loaded' =>
      obtain ⟨rfl, -⟩ := State.load_unread loaded' (unread (kept ▸ noHistory))
      obtain ⟨noRecords, -⟩ := by simpa using second
      exact ⟨noLedger, noRecords⟩
    · cases second
  · cases first

/-- The history accounts for the ledger. However a repository without state files is worked on, the attempts of every
defect are the failures that were recorded since it was last released, and it was fixed at most once more often than it
was opened again, and not more often if it is open. A record tells of success exactly when it gives no reason for
failure, records are only added, and they are as many as the summaries charge. -/
theorem history_accounts_for_ledger {disk begun : Disk} {path : String} {config : Config} {run : Uuid} {now : Timestamp}
    {r : Repair} (opened : Repair.opened disk path config run now = (.ok r, begun))
    (noDefects : disk.tree.readText (State.defectsPath r.root) = .error .notFound)
    (noHistory : disk.tree.readText (State.historyPath r.root) = .error .notFound)
    (small : config.maxAttempts < Number.bound32) {earlier later : Account} (early : Runs (opening r) earlier)
    (late : Runs earlier later) :
    (∀ d ∈ later.repair.ledger,
      d.attempts = failuresOf d.id (later.repair.history.drop (later.marks d.id)) ∧
      (later.reopened d.id < Number.bound32 →
        successesOf d.id later.repair.history ≤ if d.status = .fixed then d.regressions + 1 else d.regressions)) ∧
    (∀ x ∈ later.repair.history, x.success = true ↔ x.failureReason = none) ∧
    earlier.repair.history <+: later.repair.history ∧
    later.repair.history.length = later.charged := by
  have blank := blank_of_opened opened noDefects noHistory
  have small : r.config.maxAttempts < Number.bound32 := (Repair.opened_ok opened).2.1 ▸ small
  obtain ⟨even, same, -, counted⟩ := blank.even.runs early small
  obtain ⟨even, -, grown, counted'⟩ := even.runs late (same ▸ small)
  refine ⟨fun d member => ⟨even.attempts d member, fun few => ?_⟩, fun x member => ?_, grown, ?_⟩
  · have regressions := even.regressions d member
    have successes := even.successes d member
    rw [regressions, Nat.min_eq_left (Nat.le_sub_one_of_lt few)]
    by_cases fixed : d.status = .fixed
    · simpa only [fixed, if_true] using successes
    · simpa only [fixed, if_false, Nat.add_zero] using successes
  · rw [even.honest x member, Option.isNone_iff_eq_none]
  · have none : r.history = [] := blank.2
    simp only [opening, none, List.length_nil] at counted
    omega

/-- Tools report a defect in a file that is not there, a fix is proposed for it, and the failure is charged. -/
theorem failed_attempt_accounted :
    let disk : Disk := .sound ⟨[(["r"], .directory)]⟩
    let reply := "APPROACH: guard\nCONFIDENCE: 0.9\n```\n1\n```"
    let people : Participants Unit Unit :=
      ⟨.standard, ⟨"model", fun _ _ => (⟨.ok reply, 0⟩, ())⟩, ⟨fun s disk => (.pass "", s, disk)⟩, fun _ _ => false,
        fun _ => .epoch, .ofNat⟩
    let calls : List Call :=
      [.ingest [.saved "tsc" .typeCheck "a.ts(1,5): error TS2322: x"] .epoch, .fix people () ()]
    ∃ r last, (Repair.opened disk "/r" .standard (.ofNat 1) .epoch).1 = .ok r ∧ (opening r).play disk calls = some last ∧
      last.repair.history.length = 1 ∧
      ∀ d ∈ last.repair.ledger, d.attempts = failuresOf d.id (last.repair.history.drop (last.marks d.id)) := by
  intro disk reply people calls
  have root : (Repair.opened disk "/r" .standard (.ofNat 1) .epoch).1.toOption.map (·.root) = some "/r" := by
    decide +kernel
  have absent : disk.tree.readText (State.defectsPath "/r") = .error .notFound ∧
      disk.tree.readText (State.historyPath "/r") = .error .notFound := by decide +kernel
  have charged : ((Repair.opened disk "/r" .standard (.ofNat 1) .epoch).1.toOption.bind fun r =>
      (opening r).play disk calls).map (·.charged) = some 1 := by decide +kernel
  obtain ⟨last, played, charged⟩ := Option.map_eq_some_iff.mp charged
  rcases opened : Repair.opened disk "/r" .standard (.ofNat 1) .epoch with ⟨result, begun⟩
  rw [opened] at root played
  cases result with
  | error e => simp [Except.toOption] at root
  | ok r =>
    have root : r.root = "/r" := by simpa [Except.toOption] using root
    have played : (opening r).play disk calls = some last := by simpa [Except.toOption] using played
    have accounts := history_accounts_for_ledger opened (root ▸ absent.1) (root ▸ absent.2) (by decide) (.none _)
      (runs_of_play played)
    exact ⟨r, last, rfl, played, accounts.2.2.2.trans charged, fun d member => (accounts.1 d member).1⟩

end Account

end GatedRepair
