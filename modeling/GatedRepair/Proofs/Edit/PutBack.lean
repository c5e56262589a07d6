import GatedRepair.Proofs.Edit.Gate
import GatedRepair.Proofs.Files.Within

/-!
# When an edit cannot be taken back

An edit that could not be written, or that was not passed, is taken back, and for that its file is written again. Whatever
faults await the disk and whatever the modes of its files, this is where edits end in errors (`apply_error_iff`), also where
the file refuses to be written and so is as it was (`Draft.refusing_file`).
-/

namespace GatedRepair.Files

/-- What is answered when an operation meets a fault, or none. -/
def Fault.answer (fault? : Option Fault) : Except Failure Unit :=
  match fault? with
  | some fault => .error fault.failure
  | none => .ok ()

/-- What a file holds when it was to be given new content. -/
def Fault.left (fault? : Option Fault) (old new : ByteArray) : ByteArray :=
  match fault? with
  | some (.refused _) => old
  | some (.torn written _) => new.extract 0 written
  | none => new

theorem Tree.put_self {tree : Tree} {location : Location} {entry : Entry} (other : location ≠ [])
    (there : tree.get? location = some entry) : tree.put location entry = tree := by
  obtain ⟨entries⟩ := tree
  rw [Tree.get?, if_neg other] at there
  refine congrArg Tree.mk ?_
  induction entries with
  | nil => cases there
  | cons first more ih =>
    rw [Tree.lookup_cons_if] at there
    unfold Tree.putEntry
    split_ifs at there ⊢ with here
    · obtain rfl := Option.some.inj there
      rw [here]
    · rw [ih there]

namespace Disk

section
variable {disk after : Disk} {path source target : String} {location spare : Location} {content saved : ByteArray}
  {mode mode' : Mode}

theorem meet_eq (disk : Disk) : disk.meet = (disk.plan.head?.join, ⟨disk.tree, disk.plan.tail⟩) := by
  obtain ⟨tree, _ | ⟨fault, plan⟩⟩ := disk <;> rfl

/-- What hinders the next operation from writing a file: a refusal that is planned, the refusal of the file itself, or that
the writing breaks off. -/
def hindrance (disk : Disk) (mode : Mode) : Option Fault :=
  match disk.plan.head?.join with
  | some (.refused e) => some (.refused e)
  | fault? => match mode.refusal? with
    | some e => some (.refused e)
    | none => fault?

theorem hindrance_of_refusal {e : Failure} (refuses : mode.refusal? = some e) (disk : Disk) :
    ∃ e', disk.hindrance mode = some (.refused e') := by
  unfold hindrance
  split
  · exact ⟨_, rfl⟩
  · exact ⟨e, by rw [refuses]⟩

/-- What becomes of a file that is found when it is written, if the mode that it is given is its own. -/
theorem writing_found (found : disk.tree.find? path = .ok (location, .file content mode)) (make : ByteArray → ByteArray)
    {mode? : Option Mode} (kept : mode.refusal? = none → mode?.getD mode = mode) :
    disk.writing path make mode? = (Fault.answer (disk.hindrance mode),
      ⟨disk.tree.put location (.file (Fault.left (disk.hindrance mode) content (make content)) mode), disk.plan.tail⟩) := by
  have there := (find?_settled found).2
  have stays := Tree.put_self (ne_nil_of_get? there (by simp)) there
  simp only [writing, meet_eq, hindrance]
  cases disk.plan.head?.join with
  | none =>
    cases refuses : mode.refusal? with
    | some e => simp [writable_found found, refuses, Fault.answer, Fault.left, Fault.failure, stays]
    | none => simp [writable_found found, refuses, Fault.answer, Fault.left, kept refuses]
  | some fault =>
    cases fault with
    | refused e => simp [Fault.answer, Fault.left, Fault.failure, stays]
    | torn written e =>
      cases refuses : mode.refusal? with
      | some e => simp [writable_found found, refuses, Fault.answer, Fault.left, Fault.failure, stays]
      | none => simp [writable_found found, refuses, Fault.answer, Fault.left, Fault.failure, kept refuses]

theorem copy_found (copy : disk.tree.find? source = .ok (spare, .file saved mode'))
    (found : disk.tree.find? target = .ok (location, .file content mode))
    (kept : mode.refusal? = none → mode'.copied = mode) :
    disk.copy source target = (Fault.answer (disk.hindrance mode),
      ⟨disk.tree.put location (.file (Fault.left (disk.hindrance mode) content saved) mode), disk.plan.tail⟩) := by
  rw [Disk.copy, copied_found copy]
  exact writing_found found (fun _ => saved) kept

theorem writing_ok {make : ByteArray → ByteArray} {mode? : Option Mode} (made : disk.writing path make mode? = (.ok (), after)) :
    ∃ location old, writable disk.tree path = .ok (location, old) ∧
      after.tree = disk.tree.put location (.file (make ((old.map Prod.fst).getD ByteArray.empty))
        (mode?.getD ((old.map Prod.snd).getD .shared))) := by
  simp only [writing, meet_eq] at made
  split at made
  · cases made
  · split at made
    · cases made
    · next location old able =>
      split at made
      · cases made
      · obtain ⟨-, rfl⟩ := Prod.mk.inj made
        exact ⟨location, old, able, rfl⟩

/-- What was copied is found along both paths. -/
theorem found_of_copy (made : disk.copy source target = (.ok (), after)) :
    ∃ location spare content mode, disk.tree.find? source = .ok (location, .file content mode) ∧
      after.tree.find? source = .ok (location, .file content mode) ∧
      after.tree.find? target = .ok (spare, .file content mode.copied) := by
  unfold copy at made
  split at made
  · cases made
  · next content mode' copied =>
    obtain ⟨location, mode, found, rfl⟩ := copied_ok copied
    obtain ⟨spare, old, able, put⟩ := writing_ok made
    have put : after.tree = disk.tree.put spare (.file content mode.copied) := put
    obtain ⟨-, other, stood⟩ := writable_ok able
    have still := (find?_settled found).2
    rw [put]
    refine ⟨location, spare, content, mode, found, ?_, find?_put able content mode.copied⟩
    have located := find?_iff.mp found
    rw [← spotAt_of_get? still] at located
    refine find?_onto (firm_put able content mode.copied) (by simp [still]) ?_ located
    rw [Tree.get?_put other]
    split
    · next same =>
      -- a file that is copied onto itself was written, so it may be
      rw [← same, still] at stood
      obtain ⟨⟨content', mode''⟩, rfl, it⟩ := Option.map_eq_some_iff.mp stood.symm
      obtain ⟨rfl, rfl⟩ := by simpa using it
      rw [Mode.copied_of_free (free_of_writable able)]
    · exact still

theorem read_eq (found : disk.tree.find? path = .ok (location, .file content mode)) :
    disk.read path = ((Fault.answer disk.plan.head?.join).map fun _ => content, ⟨disk.tree, disk.plan.tail⟩) := by
  simp only [Disk.read, reading, meet_eq, read_found found]
  cases disk.plan.head?.join <;> rfl

end

end Disk

end GatedRepair.Files

namespace GatedRepair.Edit

open Files Disk

/-- What spoils that a file is put back: the copying is hindered, or one of the files cannot be read afterwards. -/
def spoiling? (disk : Disk) (mode : Mode) : Option Fault :=
  (disk.hindrance mode).or (disk.plan[1]?.join.or disk.plan[2]?.join)

section
variable {disk : Disk} {target backup : String} {place spare : Location} {content saved : ByteArray} {mode : Mode}

/-- A backup is put back unless that is spoilt. -/
theorem reinstate_found (found : disk.tree.find? target = .ok (place, .file content mode))
    (copy : disk.tree.find? backup = .ok (spare, .file saved mode.copied)) :
    (reinstate target backup disk).1 = (match spoiling? disk mode with
      | some fault => .error (.failed target backup fault.failure)
      | none => .ok ()) ∧
    (reinstate target backup disk).2.tree =
      disk.tree.put place (.file (Fault.left (disk.hindrance mode) content saved) mode) := by
  have kept : mode.refusal? = none → mode.copied.copied = mode := by
    intro free
    rw [Mode.copied_of_free free, Mode.copied_of_free free]
  have copied := copy_found copy found kept
  refine ⟨?_, by rw [(reinstate_steps target backup disk).1, copied]⟩
  unfold reinstate spoiling?
  rw [copied]
  cases hindered : disk.hindrance mode with
  | some fault => simp [Fault.answer]
  | none =>
    have still := (find?_settled found).2
    have target_found := find?_put_file saved mode still found
    rw [if_pos rfl] at target_found
    obtain ⟨new, backup_found⟩ : ∃ new, (disk.tree.put place (.file saved mode)).find? backup = .ok (spare, .file saved new) := by
      have again := find?_put_file saved mode still copy
      by_cases same : spare = place
      · exact ⟨mode, by rw [again, if_pos same]⟩
      · exact ⟨mode.copied, by rw [again, if_neg same]⟩
    have second : disk.plan.tail.head? = disk.plan[1]? := by rw [List.head?_tail]
    have third : disk.plan.tail.tail.head? = disk.plan[2]? := by
      rw [List.head?_eq_getElem?, List.getElem?_tail, List.getElem?_tail]
    simp only [Fault.answer, Fault.left, Option.none_or]
    rw [read_eq target_found]
    simp only [second]
    cases disk.plan[1]?.join with
    | some fault => rfl
    | none =>
      simp only [Fault.answer, Except.map, Option.none_or]
      rw [read_eq backup_found]
      simp only [third]
      cases disk.plan[2]?.join <;> simp [Fault.answer, Except.map]

/-- What is backed up is found along the file's path and along that of its backup. -/
theorem found_of_backUp {root backups : String} {now : Timestamp} {r : Replacement} {file : RepositoryFile} {saved : Disk}
    (resolved : disk.tree.resolve root r.file = .ok file) (backed : backUp backups now file disk = (.ok backup, saved)) :
    ∃ place spare content mode, r.place? disk.tree root = some place ∧ disk.tree.get? place = some (.file content mode) ∧
      saved.tree.find? file.absolute = .ok (place, .file content mode) ∧
      saved.tree.find? backup = .ok (spare, .file content mode.copied) := by
  obtain ⟨place, content, mode, absolute, plain, stood, landing⟩ := Replacement.lands resolved
  have change := @makeDirectories_changed disk backups
  unfold backUp at backed
  generalize disk.makeDirectories backups = ended at change backed
  obtain ⟨e | _, made⟩ := ended
  · cases backed
  · have plain₁ : Plain made.tree place := change.plain plain
    have still : made.tree.get? place = some (.file content mode) := change.stays id stood
    simp only at backed
    split at backed
    · cases backed
    · next after copied =>
      obtain ⟨same, rfl⟩ := Prod.mk.inj backed
      obtain rfl := Except.ok.inj same
      obtain ⟨location, spare, content', mode', before, file_found, backup_found⟩ := found_of_copy copied
      -- what was copied is what stands at the place
      obtain ⟨rfl, stands⟩ := plain₁.reaches.find? (absolute ▸ before)
      obtain ⟨rfl, rfl⟩ : content = content' ∧ mode = mode' := by
        rw [still] at stands
        simpa using stands
      exact ⟨location, spare, content, mode, landing, stood, file_found, backup_found⟩

end

/-- An edit that comes as far as to be written: its file with what that holds, the backup, the new text and the disk then. -/
structure Draft (root backups : String) (now : Timestamp) (r : Replacement) (disk : Disk) where
  file : RepositoryFile
  backup : String
  text : String
  saved : Disk
  ready : Disk
  place : Location
  spare : Location
  content : ByteArray
  mode : Mode
  resolved : disk.tree.resolve root r.file = .ok file
  backed : backUp backups now file disk = (.ok backup, saved)
  prepared : prepare file r saved = (.ok text, ready)
  landing : r.place? disk.tree root = some place
  stood : disk.tree.get? place = some (.file content mode)
  found : ready.tree.find? file.absolute = .ok (place, .file content mode)
  copied : ready.tree.find? backup = .ok (spare, .file content mode.copied)

/-- An edit that is taken back: what is told of it then, the state of the verifier and the disk. -/
structure Withdrawal (σ : Type) where
  outcome : Outcome
  state : σ
  disk : Disk

namespace Draft

variable {σ : Type} {root backups : String} {now : Timestamp} {r : Replacement} {disk : Disk}
  (e : Draft root backups now r disk)

/-- What hinders the edit from being written. -/
def hindrance : Option Fault := e.ready.hindrance e.mode

/-- What the file holds when it was to be written. -/
def current : ByteArray := Fault.left e.hindrance e.content e.text.toUTF8

/-- The disk when the file was to be written. -/
def written : Disk := ⟨e.ready.tree.put e.place (.file e.current e.mode), e.ready.plan.tail⟩

/-- What the backup holds then. -/
def kept : ByteArray := if e.spare = e.place then e.current else e.content

/-- How the edit comes to be taken back, if it does: it was not written, or it was not passed. -/
def withdrawal? (verifier : Verifier σ) (s : σ) : Option (Withdrawal σ) :=
  match e.hindrance with
  | some fault => some ⟨.notMade (.unwritable e.file.relative fault.failure), s, e.written⟩
  | none =>
    let (verdict, s, disk) := verifier.verify s e.written
    if verdict.passed then none else some ⟨.reverted verdict, s, disk⟩

theorem nonempty_of {file : RepositoryFile} {backup text : String} {saved ready : Disk}
    (resolved : disk.tree.resolve root r.file = .ok file) (backed : backUp backups now file disk = (.ok backup, saved))
    (prepared : prepare file r saved = (.ok text, ready)) :
    Nonempty (Draft root backups now r disk) := by
  obtain ⟨place, spare, content, mode, landing, stood, found, copied⟩ := found_of_backUp resolved backed
  have same := prepare_tree prepared
  exact ⟨⟨file, backup, text, saved, ready, place, spare, content, mode, resolved, backed, prepared, landing, stood,
    same ▸ found, same ▸ copied⟩⟩

theorem write_eq : e.ready.write e.file.absolute e.text.toUTF8 = (Fault.answer e.hindrance, e.written) :=
  writing_found e.found (fun _ => e.text.toUTF8) fun _ => rfl

/-- Both files are found when the edit was to be written. -/
theorem found_written : e.written.tree.find? e.file.absolute = .ok (e.place, .file e.current e.mode) ∧
    e.written.tree.find? e.backup = .ok (e.spare, .file e.kept e.mode.copied) := by
  have still := (find?_settled e.found).2
  have file_found := find?_put_file e.current e.mode still e.found
  have backup_found := find?_put_file e.current e.mode still e.copied
  rw [if_pos rfl] at file_found
  refine ⟨file_found, ?_⟩
  rw [kept]
  by_cases same : e.spare = e.place
  · have there := (find?_settled e.copied).2
    obtain ⟨-, own⟩ : e.content = e.content ∧ e.mode = e.mode.copied := by
      rw [same, still] at there
      simpa using there
    rw [if_pos same] at backup_found ⊢
    exact own ▸ backup_found
  · rw [if_neg same] at backup_found ⊢
    exact backup_found

/-- A draft is passed, or it is taken back. -/
theorem trial_eq (verifier : Verifier σ) (s : σ) : trial root backups now verifier r s disk =
    match e.withdrawal? verifier s with
    | some w => withdrawn e.file.absolute e.backup w.outcome w.state w.disk
    | none => ⟨.ok (.success (verifier.verify s e.written).1), (verifier.verify s e.written).2.1,
        (verifier.verify s e.written).2.2, some e.backup⟩ := by
  rw [trial, e.resolved]
  simp only [e.backed, e.prepared, e.write_eq, withdrawal?]
  cases e.hindrance with
  | some fault => rfl
  | none =>
    simp only [Fault.answer, judged_eq]
    by_cases passed : (verifier.verify s e.written).1.passed = true
    · simp [passed]
    · simp [passed]

/-- How an edit that is taken back ends. -/
theorem ends {verifier : Verifier σ} {s : σ} {w : Withdrawal σ} (back : e.withdrawal? verifier s = some w)
    (spared : w.disk.tree = e.written.tree) :
    (apply root backups now verifier r s disk).1 = (match spoiling? w.disk e.mode with
      | some fault => .error (.failed e.file.absolute e.backup fault.failure)
      | none => .ok w.outcome) ∧
    (apply root backups now verifier r s disk).2.1 = w.state ∧
    (spoiling? w.disk e.mode ≠ none → (apply root backups now verifier r s disk).2.2.tree.get? e.place =
      some (.file (Fault.left (w.disk.hindrance e.mode) e.current e.kept) e.mode)) := by
  obtain ⟨file_found, backup_found⟩ := e.found_written
  rw [← spared] at file_found backup_found
  obtain ⟨result, tree⟩ := reinstate_found file_found backup_found
  have there := (find?_settled file_found).2
  have put := Tree.get?_put (ne_nil_of_get? there (by simp)) w.disk.tree
    (.file (Fault.left (w.disk.hindrance e.mode) e.current e.kept) e.mode) e.place
  rw [if_pos rfl, ← tree] at put
  rw [apply_eq_trial, e.trial_eq, back]
  simp only [withdrawn]
  generalize reinstate e.file.absolute e.backup w.disk = ended at result put
  obtain ⟨given, after⟩ := ended
  cases spoilt : spoiling? w.disk e.mode with
  | some fault =>
    obtain rfl : given = .error (.failed e.file.absolute e.backup fault.failure) := by simpa [spoilt] using result
    exact ⟨rfl, rfl, fun _ => put⟩
  | none =>
    obtain rfl : given = .ok () := by simpa [spoilt] using result
    exact ⟨rfl, rfl, fun some => absurd rfl some⟩

/-- A verifier that leaves the tree alone is not what changes it. -/
theorem withdrawal_tree {verifier : Verifier σ} (spares : Spares verifier) {s : σ} {w : Withdrawal σ}
    (back : e.withdrawal? verifier s = some w) : w.disk.tree = e.written.tree := by
  have spared := spares s e.written
  unfold withdrawal? at back
  split at back
  · obtain rfl := Option.some.inj back
    rfl
  · simp only at back
    split at back
    · cases back
    · obtain rfl := Option.some.inj back
      exact spared

/-- An edit of a file that refuses to be written ends in an error. The verifier is not asked, and the file is as it was. -/
theorem refusing_file (verifier : Verifier σ) (s : σ) (refuses : e.mode.refusal? ≠ none) :
    (∃ fault, (apply root backups now verifier r s disk).1 = .error (.failed e.file.absolute e.backup fault)) ∧
      (apply root backups now verifier r s disk).2.1 = s ∧
      (apply root backups now verifier r s disk).2.2.tree.get? e.place = disk.tree.get? e.place := by
  obtain ⟨refusal, refuses⟩ := Option.ne_none_iff_exists'.mp refuses
  obtain ⟨failure, hindered⟩ := hindrance_of_refusal refuses e.ready
  have back : e.withdrawal? verifier s =
      some ⟨.notMade (.unwritable e.file.relative failure), s, e.written⟩ := by
    rw [withdrawal?, hindrance, hindered]
    rfl
  have same : e.current = e.content := by
    rw [current, hindrance, hindered]
    rfl
  obtain ⟨again, hindered'⟩ := hindrance_of_refusal refuses e.written
  have spoilt : spoiling? e.written e.mode = some (.refused again) := by rw [spoiling?, hindered', Option.some_or]
  obtain ⟨result, state, left⟩ := e.ends back rfl
  rw [spoilt] at result
  refine ⟨⟨again, result⟩, state, ?_⟩
  rw [left (by simp [spoilt]), hindered', e.stood, Fault.left, same]

end Draft

section
variable {σ : Type} {verifier : Verifier σ} {root backups : String} {now : Timestamp} {r : Replacement} {s : σ} {disk : Disk}

/-- Under a verifier that leaves the tree alone an edit ends in an error if it is taken back and this is spoilt, and only
then. -/
theorem apply_error_iff (spares : Spares verifier) {x : RestoreError} :
    (apply root backups now verifier r s disk).1 = .error x ↔
      ∃ (e : Draft root backups now r disk) (w : Withdrawal σ) (fault : Fault), e.withdrawal? verifier s = some w ∧
        spoiling? w.disk e.mode = some fault ∧ x = .failed e.file.absolute e.backup fault.failure := by
  constructor
  · intro failed
    obtain ⟨e⟩ : Nonempty (Draft root backups now r disk) := by
      rw [apply_eq_trial, trial] at failed
      split at failed
      · cases failed
      · next file resolved =>
        split at failed
        · cases failed
        · next backup saved backed =>
          split at failed
          · cases failed
          · next text ready prepared =>
            exact Draft.nonempty_of resolved backed prepared
    cases back : e.withdrawal? verifier s with
    | none =>
      rw [apply_eq_trial, e.trial_eq, back] at failed
      cases failed
    | some w =>
      obtain ⟨result, -, -⟩ := e.ends back (e.withdrawal_tree spares back)
      rw [failed] at result
      cases spoilt : spoiling? w.disk e.mode with
      | none => simp [spoilt] at result
      | some fault => exact ⟨e, w, fault, back, spoilt, by simpa [spoilt] using result⟩
  · rintro ⟨e, w, fault, back, spoilt, rfl⟩
    obtain ⟨result, -, -⟩ := e.ends back (e.withdrawal_tree spares back)
    rw [result, spoilt]

end

end GatedRepair.Edit
