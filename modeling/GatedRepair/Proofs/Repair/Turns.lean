import GatedRepair.Proofs.Ledger.Merge
import GatedRepair.Repair

/-!
# Batches, turn by turn

A batch is a row of turns. In each of them one defect is taken, attempted and recorded, and the work is saved (`Turns`). It is
the same batch when the verifier keeps a record of its judgements (`fixBatch_recorded`).
-/

/-!
## The turns of a batch

A batch is a row of turns. In each of them one defect is taken, attempted and recorded, and the work is saved
(`Turns`); what a turn can do to the ledger and the history is listed once (`Recorded`).
-/

namespace GatedRepair

/-- One turn of a batch: the scene before it, the defect that was taken, what came of it, and the scene after it. -/
structure Turn (σ τ : Type) where
  before : Scene σ τ
  defect : Defect
  outcome : DefectOutcome
  after : Scene σ τ

namespace BatchCounts

/-- One outcome more is counted. -/
def withOutcome (c : BatchCounts) (o : DefectOutcome) : BatchCounts :=
  match o.result with
  | .fixed => c.withFix
  | .skipped => c.withSkip
  | .reverted | .failedToApply => c.withFailure o.blocked

/-- The counts are those of the outcomes. -/
structure Counts (c : BatchCounts) (done : List DefectOutcome) : Prop where
  fixed : c.fixed = done.countP (·.result = .fixed)
  failed : c.failed = done.countP (·.result.isFailure)
  skipped : c.skipped = done.countP (·.result = .skipped)
  blocked : c.blocked = done.countP (·.blocked)

theorem Counts.none : Counts {} [] := ⟨rfl, rfl, rfl, rfl⟩

theorem Counts.more {c : BatchCounts} {done : List DefectOutcome} (counts : c.Counts done) {o : DefectOutcome}
    (failure : o.blocked = true → o.result.isFailure = true) : (c.withOutcome o).Counts (done ++ [o]) := by
  obtain ⟨fixed, failed, skipped, blocked⟩ := counts
  -- the result says which count grows, and the mark whether another one does
  cases kind : o.result <;> cases mark : o.blocked <;> simp [kind, mark, AttemptResult.isFailure] at failure <;>
    constructor <;>
    simp [withOutcome, withFix, withFailure, withSkip, kind, mark, AttemptResult.isFailure, fixed, failed, skipped,
      blocked]

theorem Counts.sum {c : BatchCounts} {done : List DefectOutcome} (counts : c.Counts done) :
    done.length = c.fixed + c.failed + c.skipped := by
  rw [counts.fixed, counts.failed, counts.skipped]
  clear counts
  induction done with
  | nil => rfl
  | cons o done ih => cases kind : o.result <;> simp [kind, AttemptResult.isFailure, ih] <;> omega

theorem Counts.charged {c : BatchCounts} {done : List DefectOutcome} (counts : c.Counts done) :
    c.fixed + c.failed = done.countP (·.result ≠ .skipped) := by
  have all := done.length_eq_countP_add_countP (·.result = .skipped)
  have sum := counts.sum
  rw [counts.skipped] at sum
  simp only [decide_not, decide_eq_true_eq] at all ⊢
  omega

end BatchCounts

namespace Scene

variable {σ τ : Type}

@[simp] theorem uncounted_repair (s : Scene σ τ) : s.uncounted.repair = s.repair := rfl

/-- What is proposed for a defect in a scene. -/
def proposal (p : Participants σ τ) (s : Scene σ τ) (d : Defect) : Proposal :=
  (p.generator.propose p.backend s.asked s.disk.tree s.repair.root d).1

/-- The scene after the backend was asked about a defect. -/
def afterAsking (p : Participants σ τ) (s : Scene σ τ) (d : Defect) : Scene σ τ :=
  { s with asked := (p.generator.propose p.backend s.asked s.disk.tree s.repair.root d).2 }

/-- Turns that follow those with the outcomes given, from one defect boundary to another. -/
inductive Turns (p : Participants σ τ) : List DefectOutcome → Scene σ τ → List (Turn σ τ) → Scene σ τ → Prop
  | none (done : List DefectOutcome) (s : Scene σ τ) : Turns p done s [] s
  | more {done : List DefectOutcome} {s after last : Scene σ τ} {d : Defect} {outcome : DefectOutcome}
      {turns : List (Turn σ τ)} (going : p.cancelled s.judged done.length = false)
      (next : s.next? (done.map (·.defect)) = some d)
      (made : s.attemptAndSave p done.length d = (.ok outcome, after))
      (rest : Turns p (done ++ [outcome]) after turns last) : Turns p done s (⟨s, d, outcome, after⟩ :: turns) last

/-! ### The loop -/

/-- A batch that ends well is a row of turns. It was called off, or it is full, or no defect is left to attempt. -/
theorem fixMore_ok {p : Participants σ τ} {left : Nat} {done : List DefectOutcome} {s last : Scene σ τ}
    {summary : BatchSummary} (run : fixMore p done left s = (.ok summary, last)) :
    ∃ turns, Turns p done s turns last ∧ summary.outcomes = done ++ turns.map Turn.outcome ∧ turns.length ≤ left ∧
      (summary.cancelled = false → turns.length < left → last.next? (summary.outcomes.map (·.defect)) = none) ∧
      summary.toBatchCounts = last.counts := by
  induction left generalizing done s with
  | zero =>
    obtain ⟨rfl, rfl⟩ := by simpa [fixMore] using run
    exact ⟨[], .none done s, by simp, by simp, by simp, rfl⟩
  | succ left ih =>
    unfold fixMore at run
    split at run
    · obtain ⟨rfl, rfl⟩ := by simpa using run
      exact ⟨[], .none done s, by simp, by simp, by simp, rfl⟩
    · next going =>
      split at run
      · next finished =>
        obtain ⟨rfl, rfl⟩ := by simpa using run
        exact ⟨[], .none done s, by simp, by simp, fun _ _ => finished, rfl⟩
      · next d next =>
        split at run
        · simp at run
        · next outcome after made =>
          obtain ⟨turns, rest, outcomes, bound, ends, counts⟩ := ih run
          refine ⟨⟨s, d, outcome, after⟩ :: turns, .more (by simpa using going) next made rest, ?_, ?_, ?_, counts⟩
          · simp [outcomes]
          · simpa using bound
          · simpa using ends

theorem fixMore_turn {p : Participants σ τ} (done : List DefectOutcome) {left : Nat} {s after : Scene σ τ} {d : Defect}
    {outcome : DefectOutcome} (going : p.cancelled s.judged done.length = false)
    (next : s.next? (done.map (·.defect)) = some d) (made : s.attemptAndSave p done.length d = (.ok outcome, after)) :
    fixMore p done (left + 1) s = fixMore p (done ++ [outcome]) left after := by
  simp only [fixMore, going, next, made, Bool.false_eq_true, if_false]

theorem Turns.fixMore {p : Participants σ τ} {done : List DefectOutcome} {s boundary : Scene σ τ} {turns : List (Turn σ τ)}
    (run : Turns p done s turns boundary) (left : Nat) :
    Scene.fixMore p done (left + turns.length) s = Scene.fixMore p (done ++ turns.map Turn.outcome) left boundary := by
  induction run with
  | none => simp
  | more going next made _ ih =>
    rw [List.length_cons, ← Nat.add_assoc, fixMore_turn _ going next made, ih]
    simp

/-- A batch ends in an error if the turn after some completed ones does, and only then. -/
theorem fixMore_error_iff {p : Participants σ τ} {left : Nat} {done : List DefectOutcome} {s last : Scene σ τ}
    {e : RepairError} : fixMore p done left s = (.error e, last) ↔
      ∃ turns boundary d, Turns p done s turns boundary ∧ turns.length < left ∧
        p.cancelled boundary.judged (done.length + turns.length) = false ∧
        boundary.next? ((done ++ turns.map Turn.outcome).map (·.defect)) = some d ∧
        boundary.attemptAndSave p (done.length + turns.length) d = (.error e, last) := by
  constructor
  · intro run
    induction left generalizing done s with
    | zero => simp [Scene.fixMore] at run
    | succ left ih =>
      unfold Scene.fixMore at run
      split at run
      · simp at run
      · next going =>
        split at run
        · simp at run
        · next d next =>
          split at run
          · next e' after failed =>
            obtain ⟨rfl, rfl⟩ := by simpa using run
            exact ⟨[], s, d, .none done s, by simp, by simpa using going, by simpa using next, by simpa using failed⟩
          · next outcome after made =>
            obtain ⟨turns, boundary, d', rest, bound, going', next', failed⟩ := ih run
            refine ⟨⟨s, d, outcome, after⟩ :: turns, boundary, d', .more (by simpa using going) next made rest, ?_, ?_, ?_, ?_⟩
            · simpa using bound
            · simpa [Nat.add_assoc, Nat.add_comm 1] using going'
            · simpa using next'
            · simpa [Nat.add_assoc, Nat.add_comm 1] using failed
  · rintro ⟨turns, boundary, d, run, bound, going, next, failed⟩
    obtain ⟨more, rfl⟩ := Nat.exists_eq_add_of_le' bound
    have going : p.cancelled boundary.judged (done ++ turns.map Turn.outcome).length = false := by simpa using going
    have failed : boundary.attemptAndSave p (done ++ turns.map Turn.outcome).length d = (.error e, last) := by
      simpa using failed
    have whole : more + turns.length.succ = more + 1 + turns.length := by omega
    rw [whole, run.fixMore]
    simp only [Scene.fixMore, going, next, failed, Bool.false_eq_true, if_false]

theorem Turns.invariant {p : Participants σ τ} {I : Scene σ τ → Prop}
    (keeps : ∀ (attempted : List String) (number : Nat) (s after : Scene σ τ) (d : Defect) (outcome : DefectOutcome),
      I s → s.next? attempted = some d → s.attemptAndSave p number d = (.ok outcome, after) → I after)
    {done : List DefectOutcome} {s last : Scene σ τ} {turns : List (Turn σ τ)} (run : Turns p done s turns last)
    (start : I s) : I last := by
  induction run with
  | none => exact start
  | more _ next made _ ih => exact ih (keeps _ _ _ _ _ _ start next made)

/-! ### One turn -/

/-- The defect that is taken next is open and was not attempted yet. -/
theorem next?_spec {s : Scene σ τ} (distinct : (Ledger.ids s.repair.ledger).Nodup) {attempted : List String} {d : Defect}
    (next : s.next? attempted = some d) :
    d ∈ s.repair.ledger ∧ d.status = .unfixed ∧ d.id ∉ attempted := by
  unfold next? at next
  obtain ⟨first, ranked, found⟩ := Option.bind_eq_some_iff.mp next
  have listed := List.mem_of_head? ranked
  simp only [Priority.rank, Priority.rankWith, List.mem_mergeSort, List.mem_map, List.mem_filter] at listed
  obtain ⟨e, ⟨⟨member, fresh⟩, isOpen⟩, rfl⟩ := listed
  have same : e = d := by
    rw [Ledger.get?_of_mem distinct member] at found
    exact Option.some.inj found
  subst same
  exact ⟨member, (Defect.isOpen_iff e).mp isOpen, by simpa using fresh⟩

/-- An attempt in steps: what is proposed is applied and recorded. -/
theorem attempt_eq (p : Participants σ τ) (s : Scene σ τ) (number : Nat) (d : Defect) : s.attempt p number d =
    match (s.proposal p d).consensus with
    | .failed reasons =>
      (.ok ⟨d.id, d.location, .skipped, skipDetail reasons, false⟩, { s.afterAsking p d with counts := s.counts.withSkip })
    | .selected c agreement =>
      match applyCandidate p (s.afterAsking p d) (s.proposal p d).context c (p.clock number) with
      | (.error e, s) => (.error (.notRestored d.id e), s)
      | (.ok outcome, s) =>
        (.ok (s.record d c agreement outcome (p.ids number) (p.clock number)).1,
          (s.record d c agreement outcome (p.ids number) (p.clock number)).2) := by
  unfold attempt proposal afterAsking
  generalize p.generator.propose p.backend s.asked s.disk.tree s.repair.root d = proposed
  obtain ⟨proposal, asked⟩ := proposed
  rfl

/-- An attempt skips its defect, or applies the selected candidate and records what came of it. -/
theorem attempt_cases {p : Participants σ τ} {s after : Scene σ τ} {number : Nat} {d : Defect} {outcome : DefectOutcome}
    (made : s.attempt p number d = (.ok outcome, after)) :
    (∃ reasons, (s.proposal p d).consensus = .failed reasons ∧
      outcome = ⟨d.id, d.location, .skipped, skipDetail reasons, false⟩ ∧
      after = { s.afterAsking p d with counts := s.counts.withSkip }) ∨
    ∃ c agreement applied between, (s.proposal p d).consensus = .selected c agreement ∧
      applyCandidate p (s.afterAsking p d) (s.proposal p d).context c (p.clock number) = (.ok applied, between) ∧
      (outcome, after) = between.record d c agreement applied (p.ids number) (p.clock number) := by
  rw [attempt_eq] at made
  split at made
  · next reasons failed =>
    obtain ⟨rfl, rfl⟩ := by simpa using made
    exact .inl ⟨reasons, failed, rfl, rfl⟩
  · next c agreement selected =>
    split at made
    · simp at made
    · next applied between done =>
      refine .inr ⟨c, agreement, applied, between, selected, done, ?_⟩
      simp only [Prod.mk.injEq, Except.ok.injEq] at made
      obtain ⟨rfl, rfl⟩ := made
      rfl

theorem applyCandidate_repair (p : Participants σ τ) (s : Scene σ τ) (context : FixContext) (c : Candidate)
    (now : Timestamp) : (applyCandidate p s context c now).2.repair = s.repair ∧
      (applyCandidate p s context c now).2.counts = s.counts := by
  unfold applyCandidate
  split <;> exact ⟨rfl, rfl⟩

/-- An attempt that ends in an error changes neither the ledger nor the history. -/
theorem attempt_error_repair {p : Participants σ τ} {s after : Scene σ τ} {number : Nat} {d : Defect} {e : RepairError}
    (failed : s.attempt p number d = (.error e, after)) : after.repair = s.repair := by
  rw [attempt_eq] at failed
  split at failed
  · cases failed
  · next c agreement _ =>
    have kept := (applyCandidate_repair p (s.afterAsking p d) (s.proposal p d).context c (p.clock number)).1
    split at failed
    · next e' between same =>
      rw [same] at kept
      obtain ⟨-, rfl⟩ := Prod.mk.inj failed
      exact kept
    · cases failed

theorem attemptAndSave_ok {p : Participants σ τ} {s after : Scene σ τ} {number : Nat} {d : Defect}
    {outcome : DefectOutcome} (made : s.attemptAndSave p number d = (.ok outcome, after)) :
    ∃ between disk, s.attempt p number d = (.ok outcome, between) ∧
      between.repair.save between.disk (p.clock number) = (.ok (), disk) ∧ after = { between with disk } := by
  unfold attemptAndSave at made
  split at made
  · simp at made
  · next outcome' between attempted =>
    split at made
    · simp at made
    · next disk saved =>
      simp only [Prod.mk.injEq, Except.ok.injEq] at made
      obtain ⟨rfl, rfl⟩ := made
      exact ⟨between, disk, attempted, saved, rfl⟩

/-- What a turn records: nothing for a skipped defect, a verified fix, or a failure. -/
inductive Recorded (consensus : Consensus) (r : Repair) (d : Defect) : DefectOutcome → Repair → Prop
  | skipped (reasons : List String) (none : consensus = .failed reasons) :
      Recorded consensus r d ⟨d.id, d.location, .skipped, skipDetail reasons, false⟩ r
  | fixed (c : Candidate) (agreement : Nat) (id : Uuid) (now : Timestamp) (chosen : consensus = .selected c agreement) :
      Recorded consensus r d ⟨d.id, d.location, .fixed, c.approach ++ " via " ++ c.strategy.name, false⟩
        { r with
          ledger := r.ledger.markFixed d.id ⟨c.strategy.name, c.approach, c.confidence, agreement, now⟩ now
          history := r.history ++ [Attempt.on id r.run d c.strategy.name none now] }
  | failed (c : Candidate) (agreement : Nat) (id : Uuid) (now : Timestamp) (result : AttemptResult) (reason : String)
      (chosen : consensus = .selected c agreement) (failure : result.isFailure = true) :
      Recorded consensus r d
        ⟨d.id, d.location, result, reason,
          (r.ledger.recordFailure d.id reason r.config.maxAttempts now).isBlocked d.id⟩
        { r with
          ledger := r.ledger.recordFailure d.id reason r.config.maxAttempts now
          history := r.history ++ [Attempt.on id r.run d c.strategy.name (some reason) now] }

theorem attempt_recorded {p : Participants σ τ} {s after : Scene σ τ} {number : Nat} {d : Defect}
    {outcome : DefectOutcome} (made : s.attempt p number d = (.ok outcome, after)) :
    Recorded (s.proposal p d).consensus s.repair d outcome after.repair := by
  rcases attempt_cases made with ⟨reasons, failed, rfl, rfl⟩ | ⟨c, agreement, applied, between, selected, done, recorded⟩
  · exact .skipped reasons failed
  · have kept : between.repair = s.repair := by
      have := (applyCandidate_repair p (s.afterAsking p d) (s.proposal p d).context c (p.clock number)).1
      rw [done] at this
      exact this
    cases applied with
    | success verdict =>
      obtain ⟨rfl, rfl⟩ := by simpa [record, recordFix] using recorded
      exact kept ▸ .fixed c agreement (p.ids number) (p.clock number) selected
    | reverted verdict =>
      obtain ⟨rfl, rfl⟩ := by simpa [record, recordFailure] using recorded
      exact kept ▸ .failed c agreement (p.ids number) (p.clock number) .reverted _ selected rfl
    | notMade obstacle =>
      obtain ⟨rfl, rfl⟩ := by simpa [record, recordFailure] using recorded
      exact kept ▸ .failed c agreement (p.ids number) (p.clock number) .failedToApply _ selected rfl

theorem Recorded.failed_of_blocked {consensus : Consensus} {r r' : Repair} {d : Defect} {outcome : DefectOutcome}
    (recorded : Recorded consensus r d outcome r') (blocked : outcome.blocked = true) :
    outcome.result.isFailure = true := by
  cases recorded with
  | skipped | fixed => simp at blocked
  | failed _ _ _ _ _ _ _ failure => exact failure

theorem attempt_counts {p : Participants σ τ} {s after : Scene σ τ} {number : Nat} {d : Defect}
    {outcome : DefectOutcome} (made : s.attempt p number d = (.ok outcome, after)) :
    after.counts = s.counts.withOutcome outcome := by
  rcases attempt_cases made with ⟨reasons, -, rfl, rfl⟩ | ⟨c, agreement, applied, between, -, done, recorded⟩
  · rfl
  · have kept : between.counts = s.counts := by
      have := (applyCandidate_repair p (s.afterAsking p d) (s.proposal p d).context c (p.clock number)).2
      rw [done] at this
      exact this
    cases applied <;>
      (obtain ⟨rfl, rfl⟩ := by simpa [record, recordFix, recordFailure] using recorded
       simp [BatchCounts.withOutcome, kept])

theorem turn_recorded {p : Participants σ τ} {s after : Scene σ τ} {number : Nat} {d : Defect} {outcome : DefectOutcome}
    (made : s.attemptAndSave p number d = (.ok outcome, after)) :
    Recorded (s.proposal p d).consensus s.repair d outcome after.repair := by
  obtain ⟨between, disk, attempted, -, rfl⟩ := attemptAndSave_ok made
  have recorded := attempt_recorded attempted
  exact recorded

theorem turn_counts {p : Participants σ τ} {s after : Scene σ τ} {number : Nat} {d : Defect} {outcome : DefectOutcome}
    (made : s.attemptAndSave p number d = (.ok outcome, after)) :
    after.counts = s.counts.withOutcome outcome := by
  obtain ⟨between, disk, attempted, -, rfl⟩ := attemptAndSave_ok made
  have counted := attempt_counts attempted
  exact counted

/-- The counts of a batch stay those of the outcomes it has brought so far. -/
theorem Turns.counts {p : Participants σ τ} {done : List DefectOutcome} {s last : Scene σ τ} {turns : List (Turn σ τ)}
    (run : Turns p done s turns last) (start : s.counts.Counts done) :
    last.counts.Counts (done ++ turns.map Turn.outcome) := by
  induction run with
  | none => simpa using start
  | more _ _ made _ ih =>
    have step := start.more (turn_recorded made).failed_of_blocked
    rw [← turn_counts made] at step
    simpa using ih step

end Scene

/-!
## Judgements on record

A verifier can be made to keep a record of every judgement: the tree that it saw and its verdict. This changes nothing of
a batch (`fixBatch_recorded`).
-/

open Files

/-- The judgements that were made: the trees and the verdicts on them. -/
abbrev Record := List (Tree × Verdict)

/-- A verifier that also keeps a record. -/
def Verifier.recorded {τ : Type} (verifier : Verifier τ) : Verifier (τ × Record) where
  verify s disk :=
    let (verdict, judged, after) := verifier.verify s.1 disk
    (verdict, (judged, s.2 ++ [(disk.tree, verdict)]), after)

/-- The same participants, with a record of the judgements. -/
def Participants.recorded {σ τ : Type} (p : Participants σ τ) : Participants σ (τ × Record) where
  generator := p.generator
  backend := p.backend
  verifier := p.verifier.recorded
  cancelled s := p.cancelled s.1
  clock := p.clock
  ids := p.ids

namespace Edit

variable {τ : Type}

/-- What came of an edit, without the record. -/
def Applied.bare (applied : Applied (τ × Record)) : Applied τ := (applied.1, applied.2.1.1, applied.2.2)

theorem takeBack_bare (target backup : String) (outcome : Outcome) (s : τ × Record) (disk : Disk) :
    takeBack target backup outcome s.1 disk = Applied.bare (takeBack target backup outcome s disk) := by
  unfold takeBack
  split <;> rfl

theorem judge_eq {σ : Type} (verifier : Verifier σ) (target backup : String) (s : σ) (disk : Disk) :
    judge verifier target backup s disk =
      if (verifier.verify s disk).1.passed = true then
        (.ok (.success (verifier.verify s disk).1), (verifier.verify s disk).2.1,
          discard backup (verifier.verify s disk).2.2)
      else takeBack target backup (.reverted (verifier.verify s disk).1) (verifier.verify s disk).2.1
        (verifier.verify s disk).2.2 := rfl

theorem verify_recorded (verifier : Verifier τ) (s : τ × Record) (disk : Disk) :
    verifier.recorded.verify s disk = ((verifier.verify s.1 disk).1,
      ((verifier.verify s.1 disk).2.1, s.2 ++ [(disk.tree, (verifier.verify s.1 disk).1)]),
      (verifier.verify s.1 disk).2.2) := rfl

theorem judge_bare (verifier : Verifier τ) (target backup : String) (s : τ × Record) (disk : Disk) :
    judge verifier target backup s.1 disk = Applied.bare (judge verifier.recorded target backup s disk) := by
  rw [judge_eq, judge_eq, verify_recorded]
  split
  · rfl
  · exact takeBack_bare target backup _ (_, _) _

theorem apply_bare (root backups : String) (now : Timestamp) (verifier : Verifier τ) (r : Replacement) (s : τ × Record)
    (disk : Disk) :
    apply root backups now verifier r s.1 disk = Applied.bare (apply root backups now verifier.recorded r s disk) := by
  unfold apply
  split
  · rfl
  · split
    · rfl
    · split
      · rfl
      · split
        · exact takeBack_bare _ _ _ s _
        · exact judge_bare verifier _ _ s _

end Edit

namespace Scene

variable {σ τ : Type}

/-- A scene without the record. -/
def bare (s : Scene σ (τ × Record)) : Scene σ τ := { s with judged := s.judged.1 }

/-- A scene with an empty record. -/
def recording (s : Scene σ τ) : Scene σ (τ × Record) := { s with judged := (s.judged, []) }

section
variable (p : Participants σ τ)

theorem applyCandidate_bare (s : Scene σ (τ × Record)) (context : FixContext) (c : Candidate) (now : Timestamp) :
    applyCandidate p s.bare context c now =
      ((applyCandidate p.recorded s context c now).1, (applyCandidate p.recorded s context c now).2.bare) := by
  unfold applyCandidate
  split
  · rfl
  · next r _ =>
    have same := Edit.apply_bare s.repair.root (State.backupsPath s.repair.root) now p.verifier r s.judged s.disk
    simp only [bare, Participants.recorded] at same ⊢
    rw [same]
    rfl

theorem record_bare (s : Scene σ (τ × Record)) (d : Defect) (c : Candidate) (agreement : Nat) (outcome : Edit.Outcome)
    (id : Uuid) (now : Timestamp) : s.bare.record d c agreement outcome id now =
      ((s.record d c agreement outcome id now).1, (s.record d c agreement outcome id now).2.bare) := by
  cases outcome <;> rfl

theorem attempt_bare (s : Scene σ (τ × Record)) (number : Nat) (d : Defect) :
    s.bare.attempt p number d = ((s.attempt p.recorded number d).1, (s.attempt p.recorded number d).2.bare) := by
  have proposed : s.bare.proposal p d = s.proposal p.recorded d := rfl
  have asked : s.bare.afterAsking p d = (s.afterAsking p.recorded d).bare := rfl
  rw [attempt_eq, attempt_eq, proposed, asked]
  split
  · rfl
  · next c agreement _ =>
    have times : p.recorded.clock number = p.clock number ∧ p.recorded.ids number = p.ids number := ⟨rfl, rfl⟩
    rw [applyCandidate_bare, times.1, times.2]
    rcases applyCandidate p.recorded (s.afterAsking p.recorded d) (s.proposal p.recorded d).context c (p.clock number)
      with ⟨result, between⟩
    cases result with
    | error e => rfl
    | ok outcome =>
      have recorded := record_bare between d c agreement outcome (p.ids number) (p.clock number)
      simp only [recorded]

theorem attemptAndSave_bare (s : Scene σ (τ × Record)) (number : Nat) (d : Defect) :
    s.bare.attemptAndSave p number d =
      ((s.attemptAndSave p.recorded number d).1, (s.attemptAndSave p.recorded number d).2.bare) := by
  unfold attemptAndSave
  rw [attempt_bare]
  rcases s.attempt p.recorded number d with ⟨result, between⟩
  cases result with
  | error e => rfl
  | ok outcome =>
    have saved : between.bare.repair.save between.bare.disk (p.clock number) =
        between.repair.save between.disk (p.recorded.clock number) := rfl
    simp only [saved]
    rcases between.repair.save between.disk (p.recorded.clock number) with ⟨result, disk⟩
    cases result <;> rfl

theorem fixMore_bare (left : Nat) (done : List DefectOutcome) (s : Scene σ (τ × Record)) :
    fixMore p done left s.bare = ((fixMore p.recorded done left s).1, (fixMore p.recorded done left s).2.bare) := by
  induction left generalizing done s with
  | zero => rfl
  | succ left ih =>
    have going : p.cancelled s.bare.judged done.length = p.recorded.cancelled s.judged done.length := rfl
    have next : s.bare.next? (done.map (·.defect)) = s.next? (done.map (·.defect)) := rfl
    unfold fixMore
    rw [going, next]
    split
    · rfl
    · split
      · rfl
      · next d _ =>
        rw [attemptAndSave_bare]
        rcases s.attemptAndSave p.recorded done.length d with ⟨result, after⟩
        cases result with
        | error e => rfl
        | ok outcome => exact ih (done ++ [outcome]) after

/-- A batch with a record of the judgements is the batch. -/
theorem fixBatch_recorded (s : Scene σ τ) :
    fixBatch p s = ((fixBatch p.recorded s.recording).1, (fixBatch p.recorded s.recording).2.bare) :=
  fixMore_bare p _ [] s.uncounted.recording

end

end Scene

end GatedRepair
