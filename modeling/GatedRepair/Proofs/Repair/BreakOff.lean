import GatedRepair.Proofs.Edit.PutBack
import GatedRepair.Proofs.Repair.Gate

/-!
# What breaks a batch off

A batch breaks off with an error about a file in the turn in which an edit was taken back and this was spoilt, and only then
(`batch_breaks_off_iff`). An edit that could not be written, but was taken back, is one failed attempt.
-/

namespace GatedRepair

open Files Edit

namespace Scene

variable {σ τ : Type}

/-- The edit that is asked for in the attempt on a defect. -/
def Asks (p : Participants σ τ) (s : Scene σ τ) (d : Defect) (c : Candidate) (r : Replacement) : Prop :=
  ∃ agreement, (s.proposal p d).consensus = .selected c agreement ∧ replacement? (s.proposal p d).context c = some r

/-- What comes of an edit in the attempt with a number. -/
def applied (p : Participants σ τ) (s : Scene σ τ) (number : Nat) (r : Replacement) : Applied τ :=
  Edit.apply s.repair.root (State.backupsPath s.repair.root) (p.clock number) p.verifier r s.judged s.disk

/-- An edit as it is when the attempt with a number comes to write it. -/
abbrev DraftOf (p : Participants σ τ) (s : Scene σ τ) (number : Nat) (r : Replacement) :=
  Draft s.repair.root (State.backupsPath s.repair.root) (p.clock number) r s.disk

/-- A batch breaks off after some turns: the attempt on the next defect ends in an error about its file. -/
structure BreaksOff (p : Participants σ τ) (s : Scene σ τ) (id : String) (x : RestoreError) (last : Scene σ τ)
    (turns : List (Turn σ τ)) (boundary : Scene σ τ) (d : Defect) : Prop where
  run : Turns p [] s.uncounted turns boundary
  room : turns.length < Priority.batchSize s.repair.config.batchSize
  going : p.cancelled boundary.judged turns.length = false
  next : boundary.next? (turns.map (·.outcome.defect)) = some d
  about : id = d.id
  failed : ∃ c r, boundary.Asks p d c r ∧ (boundary.applied p turns.length r).1 = .error x
  ended : last = (boundary.attempt p turns.length d).2
  unchanged : last.repair = boundary.repair

/-- The attempt on a defect fails for a reason: the defect is charged with it, and it is recorded. -/
def Charged (p : Participants σ τ) (s : Scene σ τ) (number : Nat) (d : Defect) (c : Candidate) (reason : String) : Prop :=
  ∃ blocked after, s.attempt p number d = (.ok ⟨d.id, d.location, .failedToApply, reason, blocked⟩, after) ∧
    after.repair = { s.repair with
      ledger := s.repair.ledger.recordFailure d.id reason s.repair.config.maxAttempts (p.clock number)
      history := s.repair.history ++
        [Attempt.on (p.ids number) s.repair.run d c.strategy.name (some reason) (p.clock number)] } ∧
    after.counts = s.counts.withFailure blocked

section
variable {p : Participants σ τ} {s last : Scene σ τ} {d : Defect} {number : Nat}

/-- An attempt that asks for an edit, in steps. -/
theorem attempt_of_asks (number : Nat) {c : Candidate} {r : Replacement} (asks : s.Asks p d c r) : ∃ agreement,
    s.attempt p number d = match s.applied p number r with
      | (.error e, judged, disk) => (.error (.notRestored d.id e), { s.afterAsking p d with judged, disk })
      | (.ok outcome, judged, disk) =>
        (.ok (({ s.afterAsking p d with judged, disk } : Scene σ τ).record d c agreement outcome (p.ids number)
            (p.clock number)).1,
          (({ s.afterAsking p d with judged, disk } : Scene σ τ).record d c agreement outcome (p.ids number)
            (p.clock number)).2) := by
  obtain ⟨agreement, selected, asked⟩ := asks
  refine ⟨agreement, ?_⟩
  rw [attempt_eq, selected]
  simp only [applyCandidate, asked]
  have same : Edit.apply (s.afterAsking p d).repair.root (State.backupsPath (s.afterAsking p d).repair.root) (p.clock number)
      p.verifier r (s.afterAsking p d).judged (s.afterAsking p d).disk = s.applied p number r := rfl
  rw [same]
  rcases s.applied p number r with ⟨e | outcome, judged, disk⟩ <;> rfl

/-- An attempt ends in an error if its edit does, and only then. -/
theorem attempt_error_iff {e : RepairError} : (s.attempt p number d).1 = .error e ↔
    ∃ c r x, s.Asks p d c r ∧ (s.applied p number r).1 = .error x ∧ e = .notRestored d.id x := by
  constructor
  · intro failed
    by_cases asks : ∃ c r, s.Asks p d c r
    · obtain ⟨c, r, asks⟩ := asks
      obtain ⟨agreement, same⟩ := attempt_of_asks number asks
      rw [same] at failed
      rcases ended : s.applied p number r with ⟨x | outcome, judged, disk⟩
      · rw [ended] at failed
        exact ⟨c, r, x, asks, by rw [ended], (Except.error.inj failed).symm⟩
      · rw [ended] at failed
        cases failed
    · -- nothing is edited, and so nothing can fail
      rw [attempt_eq] at failed
      split at failed
      · cases failed
      · next c agreement selected =>
        have unasked : replacement? (s.proposal p d).context c = none := by
          by_contra asked
          obtain ⟨r, asked⟩ := Option.ne_none_iff_exists'.mp asked
          exact asks ⟨c, r, agreement, selected, asked⟩
        simp [applyCandidate, unasked] at failed
  · rintro ⟨c, r, x, asks, failed, rfl⟩
    obtain ⟨agreement, same⟩ := attempt_of_asks number asks
    rw [same]
    generalize s.applied p number r = ended at failed
    obtain ⟨result, judged, disk⟩ := ended
    obtain rfl : result = .error x := failed
    rfl

theorem save_error_ne {r : Repair} {disk after : Disk} {now : Timestamp} {id : String} {x : RestoreError} :
    r.save disk now ≠ (.error (.notRestored id x), after) := by
  unfold Repair.save
  split
  · simp
  · split
    · simp
    · split <;> simp

theorem attemptAndSave_notRestored {id : String} {x : RestoreError} :
    s.attemptAndSave p number d = (.error (.notRestored id x), last) ↔
      s.attempt p number d = (.error (.notRestored id x), last) := by
  unfold attemptAndSave
  rcases s.attempt p number d with ⟨e | outcome, between⟩
  · rfl
  · simp only
    rcases saved : between.repair.save between.disk (p.clock number) with ⟨e | _, disk⟩
    · simp only [Prod.mk.injEq, Except.error.injEq, reduceCtorEq, false_and, iff_false]
      rintro ⟨rfl, -⟩
      exact save_error_ne saved
    · simp

theorem fixBatch_notRestored {id : String} {x : RestoreError} :
    fixBatch p s = (.error (.notRestored id x), last) ↔ ∃ turns boundary d, BreaksOff p s id x last turns boundary d := by
  rw [fixBatch, fixMore_error_iff]
  constructor
  · rintro ⟨turns, boundary, d, run, room, going, next, failed⟩
    have failed : boundary.attempt p turns.length d = (.error (.notRestored id x), last) := by
      simpa using attemptAndSave_notRestored.mp failed
    obtain ⟨c, r, x', asks, applied, same⟩ := attempt_error_iff.mp (congrArg Prod.fst failed)
    obtain ⟨rfl, rfl⟩ := by simpa using same
    exact ⟨turns, boundary, d,
      { run
        room
        going := by simpa using going
        next := by simpa [Function.comp_def] using next
        about := rfl
        failed := ⟨c, r, asks, applied⟩
        ended := by rw [failed]
        unchanged := attempt_error_repair failed }⟩
  · rintro ⟨turns, boundary, d, off⟩
    obtain ⟨run, room, going, next, rfl, ⟨c, r, asks, applied⟩, rfl, -⟩ := off
    refine ⟨turns, boundary, d, run, room, by simpa using going, by simpa [Function.comp_def] using next,
      attemptAndSave_notRestored.mpr ?_⟩
    have failed := attempt_error_iff.mpr ⟨c, r, x, asks, applied, rfl⟩
    rw [List.length_nil, Nat.zero_add]
    exact Prod.ext failed rfl

/-- An edit that could not be written, but was taken back, is a failed attempt. -/
theorem charged_of_hindered {c : Candidate} {r : Replacement} (asks : s.Asks p d c r) (e : DraftOf p s number r)
    {fault : Fault} (hindered : e.hindrance = some fault) (unspoilt : spoiling? e.written e.mode = none) :
    s.Charged p number d c (Obstacle.unwritable e.file.relative fault.failure).message := by
  have back : e.withdrawal? p.verifier s.judged =
      some ⟨.notMade (.unwritable e.file.relative fault.failure), s.judged, e.written⟩ := by
    rw [Draft.withdrawal?, hindered]
  obtain ⟨result, -⟩ := e.ends back rfl
  rw [unspoilt] at result
  obtain ⟨agreement, same⟩ := attempt_of_asks number asks
  rw [Charged, same, applied]
  generalize Edit.apply s.repair.root (State.backupsPath s.repair.root) (p.clock number) p.verifier r s.judged s.disk = ended
    at result
  obtain ⟨given, judged, disk⟩ := ended
  obtain rfl : given = .ok (.notMade (.unwritable e.file.relative fault.failure)) := result
  exact ⟨_, _, rfl, rfl, rfl⟩

end

/-- When a verifier leaves the tree alone, an edit ends in an error just when it is taken back and this is spoilt, and what
its file holds then is told by the faults. So it does whenever the file refuses to be written, although that is as it was and
the verifier was not asked. A batch breaks off just when an edit ends so. An edit that was not written, but taken back, is a
failed attempt. -/
theorem batch_breaks_off_iff {p : Participants σ τ} (spares : Spares p.verifier) :
    (∀ root backups now r j disk x, (Edit.apply root backups now p.verifier r j disk).1 = .error x ↔
      ∃ (e : Draft root backups now r disk) (w : Withdrawal τ) (fault : Fault), e.withdrawal? p.verifier j = some w ∧
        spoiling? w.disk e.mode = some fault ∧ x = .failed e.file.absolute e.backup fault.failure) ∧
    (∀ root backups now r j disk (e : Draft root backups now r disk),
      (∀ w, e.withdrawal? p.verifier j = some w → spoiling? w.disk e.mode ≠ none →
        (Edit.apply root backups now p.verifier r j disk).2.2.tree.get? e.place =
          some (.file (Fault.left (w.disk.hindrance e.mode) e.current e.kept) e.mode)) ∧
      (e.mode.refusal? ≠ none →
        (∃ fault, (Edit.apply root backups now p.verifier r j disk).1 = .error (.failed e.file.absolute e.backup fault)) ∧
        (Edit.apply root backups now p.verifier r j disk).2.1 = j ∧
        (Edit.apply root backups now p.verifier r j disk).2.2.tree.get? e.place = disk.tree.get? e.place)) ∧
    ∀ s : Scene σ τ,
      (∀ id x last, fixBatch p s = (.error (.notRestored id x), last) ↔
        ∃ turns boundary d, BreaksOff p s id x last turns boundary d) ∧
      ∀ number d c r (e : DraftOf p s number r) fault, s.Asks p d c r → e.hindrance = some fault →
        spoiling? e.written e.mode = none →
        s.Charged p number d c (Obstacle.unwritable e.file.relative fault.failure).message := by
  refine ⟨?ends, ?holds, ?batch⟩
  case ends =>
    intro root backups now r j disk x
    exact apply_error_iff spares
  case holds =>
    intro root backups now r j disk e
    refine ⟨fun w back spoilt => ?_, e.refusing_file p.verifier j⟩
    obtain ⟨-, -, left⟩ := e.ends back (e.withdrawal_tree spares back)
    exact left spoilt
  case batch =>
    intro s
    refine ⟨fun id x last => fixBatch_notRestored, ?_⟩
    intro number d c r e fault asks hindered unspoilt
    exact charged_of_hindered asks e hindered unspoilt

/-- A file that may only be read breaks off a batch at its first defect, although the file is as it was and neither the ledger
nor the history tells of an attempt. -/
theorem read_only_file_breaks_off :
    let p := approving ⟨"model", fun _ _ => (⟨.ok "APPROACH: guard\nCONFIDENCE: 0.9\n```\nx = 2\n```", 0⟩, ())⟩
    let mode : Mode := { Mode.shared with isReadOnly := true }
    let tree : Tree := ⟨[(["r"], .directory), (["r", "a.py"], .file "x = 1\n".toUTF8 mode)]⟩
    let s := small tree [{ Ledger.placeless "ts-a" .typeCheck with file := some "a.py", line := some 1 }]
    ∃ x last turns boundary d, fixBatch p s = (.error (.notRestored "ts-a" x), last) ∧ x.cause? = some .denied ∧
      BreaksOff p s "ts-a" x last turns boundary d ∧ last.disk.tree.get? ["r", "a.py"] = tree.get? ["r", "a.py"] := by
  intro p mode tree s
  have result : (fixBatch p s).1 = .error (.notRestored "ts-a"
      (.failed "/r/a.py" "/r/.remedy/backups/a_py-19700101T000000000.bak" .denied)) := by decide +kernel
  have same : (fixBatch p s).2.disk.tree.get? ["r", "a.py"] = tree.get? ["r", "a.py"] := by decide +kernel
  have ended : fixBatch p s = (_, (fixBatch p s).2) := Prod.ext result rfl
  obtain ⟨-, -, batches⟩ := @batch_breaks_off_iff _ _ p (approving_spares _)
  obtain ⟨turns, boundary, d, off⟩ := ((batches s).1 _ _ _).mp ended
  exact ⟨_, _, turns, boundary, d, ended, rfl, off, same⟩

end Scene

namespace Edit

/-- A machine whose first process shows under which users it runs, and a directory for backups. -/
def systemTree : Tree :=
  ⟨[(["proc"], .directory), (["proc", "1"], .directory),
    (["proc", "1", "uid_map"], .file "         0          0 4294967295\n".toUTF8 { Mode.shared with isFixed := true }),
    (["b"], .directory)]⟩

/-- A verifier that counts the judgements, all of which are good. -/
def counting : Verifier Nat := ⟨fun judged disk => (.pass "ok", judged + 1, disk)⟩

/-- The edit of what the first process shows ends in an error, unjudged, although the file holds what it held. -/
theorem unchanged_file_not_restored :
    let given := apply "/proc/1" "/b" .epoch counting ⟨"uid_map", .wholeFile, "x"⟩ 0 (.sound systemTree)
    given.1 = .error (.failed "/proc/1/uid_map" "/b/uid_map-19700101T000000000.bak" .notPermitted) ∧ given.2.1 = 0 ∧
      given.2.2.tree.get? ["proc", "1", "uid_map"] = systemTree.get? ["proc", "1", "uid_map"] := by
  decide +kernel

end Edit

end GatedRepair
