import GatedRepair.Collection
import GatedRepair.Proofs.Ledger.Merge
import GatedRepair.Proofs.State.Records

/-!
# Sound ledgers

The status of a defect, its attempts, its resolution, its fix and its last failure belong together (`Defect.Sound`).
Each change that repair makes to a defect keeps them together, given the states in which repair makes it. A ledger is
sound if its identifiers are distinct and its defects are sound.
-/

namespace GatedRepair

/-- What is coupled in a defect that is given up after so many attempts. -/
structure Defect.Sound (limit : Nat) (d : Defect) : Prop where
  blocked : d.status = .blocked ↔ limit ≤ d.attempts
  bounded : d.attempts ≤ limit
  resolved : d.resolution.isSome = true ↔ d.status = .fixed
  verified : d.resolution = some .verified → d.fix.isSome = true ∧ d.lastFailure = none
  excused : d.status = .blocked → d.lastFailure.isSome = true

/-- Nothing was done about the defect yet. -/
structure Defect.Untried (d : Defect) : Prop where
  attempts : d.attempts = 0
  fix : d.fix = none
  resolution : d.resolution = none
  regressions : d.regressions = 0
  lastFailure : d.lastFailure = none

namespace Defect

theorem Sound.open_attempts {limit : Nat} {d : Defect} (sound : d.Sound limit) (isOpen : d.status = .unfixed) :
    d.attempts < limit := by
  have free : ¬ limit ≤ d.attempts := by
    rw [← sound.blocked, isOpen]
    decide
  omega

theorem Sound.open_resolution {limit : Nat} {d : Defect} (sound : d.Sound limit) (unfixed : d.status ≠ .fixed) :
    d.resolution = none := by
  rw [← Option.not_isSome_iff_eq_none, sound.resolved]
  exact unfixed

/-! ## Each change -/

section
variable {limit : Nat} {d : Defect} (now : Timestamp)

theorem Sound.withFix (sound : d.Sound limit) (isOpen : d.status = .unfixed) (details : FixDetails) :
    (Ledger.withFix details now d).Sound limit := by
  have left := sound.open_attempts isOpen
  refine ⟨⟨?_, ?_⟩, sound.bounded, ⟨fun _ => rfl, fun _ => rfl⟩, fun _ => ⟨rfl, rfl⟩, ?_⟩
  · rintro ⟨⟩
  · intro reached
    exact absurd reached (Nat.not_le.mpr left)
  · rintro ⟨⟩

theorem Sound.attempts_withFailure (sound : d.Sound limit) (isOpen : d.status = .unfixed)
    (small : limit < Number.bound32) (reason : String) (maxAttempts : Nat) :
    (Ledger.withFailure reason maxAttempts now d).attempts = d.attempts + 1 := by
  have left := sound.open_attempts isOpen
  simp only [Ledger.withFailure, Number.saturatingAdd]
  omega

theorem Sound.withFailure {maxAttempts : Nat} (sound : d.Sound (max maxAttempts 1)) (isOpen : d.status = .unfixed)
    (small : max maxAttempts 1 < Number.bound32) (reason : String) :
    (Ledger.withFailure reason maxAttempts now d).Sound (max maxAttempts 1) := by
  have left := sound.open_attempts isOpen
  have counted := sound.attempts_withFailure now isOpen small reason maxAttempts
  have none := sound.open_resolution (by rw [isOpen]; decide)
  have status : (Ledger.withFailure reason maxAttempts now d).status =
      if max maxAttempts 1 ≤ (Ledger.withFailure reason maxAttempts now d).attempts then .blocked else .unfixed := by
    rw [← isOpen]
    rfl
  refine ⟨?_, by omega, ?_, ?_, fun _ => rfl⟩
  · rw [status]
    split <;> simp_all
  · rw [status]
    refine ⟨fun resolved => ?_, fun fixed => ?_⟩
    · exact absurd resolved (by simp [Ledger.withFailure, none])
    · split at fixed <;> cases fixed
  · intro verified
    exact absurd verified (by simp [Ledger.withFailure, none])

theorem Sound.released (sound : d.Sound limit) (positive : 0 < limit) : (Ledger.released now d).Sound limit := by
  unfold Ledger.released
  split
  · next blocked =>
    have none := sound.open_resolution (by rw [blocked]; decide)
    refine ⟨⟨?_, ?_⟩, Nat.zero_le _, ?_, ?_, ?_⟩
    · rintro ⟨⟩
    · intro reached
      exact absurd reached (Nat.not_le.mpr positive)
    · simp [none]
    · simp [none]
    · rintro ⟨⟩
  · exact sound

theorem Sound.refresh (sound : d.Sound limit) (fresh : Defect) : (Ledger.refresh now d fresh).Sound limit := by
  rw [Ledger.refresh_keeps]
  exact ⟨sound.blocked, sound.bounded, sound.resolved, sound.verified, sound.excused⟩

theorem Sound.receive (sound : d.Sound limit) (fresh : Defect) : (Ledger.receive now d fresh).1.Sound limit := by
  unfold Ledger.receive
  split
  · next fixed =>
    have left : ¬ limit ≤ d.attempts := by
      rw [← sound.blocked, fixed]
      decide
    rw [Ledger.refresh_keeps]
    refine ⟨⟨?_, ?_⟩, sound.bounded, ?_, ?_, ?_⟩
    · rintro ⟨⟩
    · intro reached
      exact absurd reached left
    · simp
    · rintro ⟨⟩
    · rintro ⟨⟩
  · exact sound.refresh now fresh

theorem Sound.miss (sound : d.Sound limit) (scope : List DefectKind) : (Ledger.miss scope now d).1.Sound limit := by
  unfold Ledger.miss
  split
  · next silent =>
    have isOpen : d.status = .unfixed := (isOpen_iff d).mp (Bool.and_eq_true_iff.mp silent).1
    have left := sound.open_attempts isOpen
    refine ⟨⟨?_, ?_⟩, sound.bounded, ⟨fun _ => rfl, fun _ => rfl⟩, ?_, ?_⟩
    · rintro ⟨⟩
    · intro reached
      exact absurd reached (Nat.not_le.mpr left)
    · rintro ⟨⟩
    · rintro ⟨⟩
  · exact sound

theorem Sound.settled (sound : d.Sound limit) (incoming : List Defect) (scope : List DefectKind) :
    (Ledger.settled incoming scope now d).1.Sound limit := by
  unfold Ledger.settled
  split
  · exact sound.miss now scope
  · exact sound.receive now _

theorem Untried.sound_opened (untried : d.Untried) (positive : 0 < limit) : (Ledger.opened now d).Sound limit := by
  refine ⟨⟨?_, ?_⟩, ?_, ?_, ?_, ?_⟩
  · rintro ⟨⟩
  · intro reached
    have none : d.attempts = 0 := untried.attempts
    exact absurd reached (by simp only [Ledger.opened]; omega)
  · simp [Ledger.opened, untried.attempts]
  · simp [Ledger.opened, untried.resolution]
  · simp [Ledger.opened, untried.resolution]
  · rintro ⟨⟩

end

/-! ## What tools report -/

theorem untried_toDefect (kind : DefectKind) (now : Timestamp) (d : Diagnostic) :
    (Diagnostic.toDefect kind now d).Untried := ⟨rfl, rfl, rfl, rfl, rfl⟩

theorem Untried.relativeTo {d : Defect} (untried : d.Untried) (root : String) (canonical : String → Option String) :
    (d.relativeTo root canonical).Untried := by
  rw [relativeTo_keeps]
  exact ⟨untried.attempts, untried.fix, untried.resolution, untried.regressions, untried.lastFailure⟩

end Defect

/-- Nothing was done yet about the defects that are collected. -/
theorem Collection.untried_defects {tables : Tables} {root : String} {canonical : String → Option String}
    {now : Timestamp} {outputs : List ProducerOutput} {d : Defect}
    (member : d ∈ (Collection.ofOutputs tables root canonical now outputs).defects) : d.Untried := by
  simp only [ofOutputs, List.flatMap_map, List.mem_flatMap] at member
  obtain ⟨output, -, told⟩ := member
  unfold examine at told
  split at told
  · simp at told
  · simp only [Diagnostic.normalize, List.map_map, List.mem_map, Function.comp_apply] at told
    obtain ⟨diagnostic, -, rfl⟩ := told
    exact (Defect.untried_toDefect _ _ _).relativeTo _ _

namespace Ledger

/-! ## Ledgers -/

/-- The identifiers are distinct, and every defect is sound. -/
structure Sound (limit : Nat) (ledger : Ledger) : Prop where
  distinct : (ids ledger).Nodup
  each : ∀ d ∈ ledger, d.Sound limit

/-- No defect is lost, and none changes its identity or the time at which it was first seen. -/
def Keeps (before after : Ledger) : Prop :=
  ∀ d ∈ before, ∃ e ∈ after, e.id = d.id ∧ e.kind = d.kind ∧ e.createdAt = d.createdAt

theorem Keeps.refl (ledger : Ledger) : Keeps ledger ledger := fun d member => ⟨d, member, rfl, rfl, rfl⟩

theorem Keeps.trans {first second third : Ledger} (before : Keeps first second) (after : Keeps second third) :
    Keeps first third := by
  intro d member
  obtain ⟨e, member, id, kind, created⟩ := before d member
  obtain ⟨f, member, id', kind', created'⟩ := after e member
  exact ⟨f, member, id'.trans id, kind'.trans kind, created'.trans created⟩

theorem sound_nil (limit : Nat) : Sound limit [] := ⟨List.nodup_nil, by simp⟩

section
variable {limit : Nat} {ledger : Ledger}

theorem ids_map {change : Defect → Defect} (same : ∀ d, (change d).id = d.id) (ledger : Ledger) :
    ids (ledger.map change) = ids ledger := by
  simp [ids, Function.comp_def, same]

theorem Sound.map {change : Defect → Defect} (sound : Sound limit ledger) (same : ∀ d, (change d).id = d.id)
    (each : ∀ d ∈ ledger, (change d).Sound limit) : Sound limit (ledger.map change) := by
  refine ⟨by rw [ids_map same]; exact sound.distinct, ?_⟩
  intro e changed
  obtain ⟨d, member, rfl⟩ := List.mem_map.mp changed
  exact each d member

theorem keeps_map {change : Defect → Defect}
    (identity : ∀ d, (change d).id = d.id ∧ (change d).kind = d.kind ∧ (change d).createdAt = d.createdAt)
    (ledger : Ledger) : Keeps ledger (ledger.map change) :=
  fun d member => ⟨change d, List.mem_map_of_mem member, identity d⟩

/-- A change to the defect with an identifier, as a change to every defect. -/
def only (id : String) (change : Defect → Defect) (d : Defect) : Defect := if d.id = id then change d else d

theorem only_keeps {change : Defect → Defect} {id : String}
    (identity : ∀ d, (change d).id = d.id ∧ (change d).kind = d.kind ∧ (change d).createdAt = d.createdAt) (d : Defect) :
    (only id change d).id = d.id ∧ (only id change d).kind = d.kind ∧ (only id change d).createdAt = d.createdAt := by
  unfold only
  split
  · exact identity d
  · exact ⟨rfl, rfl, rfl⟩

theorem update_eq_map (distinct : (ids ledger).Nodup) (id : String) (change : Defect → Defect) :
    ledger.update id change = ledger.map (only id change) := by
  induction ledger with
  | nil => rfl
  | cons d more ih =>
    obtain ⟨fresh, distinct⟩ := List.nodup_cons.mp distinct
    by_cases same : d.id = id
    · have others : more.map (only id change) = more := by
        refine (List.map_congr_left fun e member => ?_).trans (List.map_id more)
        have other : e.id ≠ id := by
          intro also
          exact fresh (List.mem_map.mpr ⟨e, member, also.trans same.symm⟩)
        simp [only, other]
      simp [update, only, same, others]
    · simp [update, only, same, ih distinct]

theorem withFix_identity (details : FixDetails) (now : Timestamp) (d : Defect) :
    (withFix details now d).id = d.id ∧ (withFix details now d).kind = d.kind ∧
      (withFix details now d).createdAt = d.createdAt := ⟨rfl, rfl, rfl⟩

theorem withFailure_identity (reason : String) (maxAttempts : Nat) (now : Timestamp) (d : Defect) :
    (withFailure reason maxAttempts now d).id = d.id ∧ (withFailure reason maxAttempts now d).kind = d.kind ∧
      (withFailure reason maxAttempts now d).createdAt = d.createdAt := ⟨rfl, rfl, rfl⟩

theorem released_identity (now : Timestamp) (d : Defect) :
    (released now d).id = d.id ∧ (released now d).kind = d.kind ∧ (released now d).createdAt = d.createdAt := by
  unfold released; split <;> exact ⟨rfl, rfl, rfl⟩

theorem eq_of_id_eq (distinct : (ids ledger).Nodup) {d e : Defect} (left : d ∈ ledger) (right : e ∈ ledger)
    (same : d.id = e.id) : d = e := by
  have found := get?_of_mem distinct left
  rw [same, get?_of_mem distinct right] at found
  exact (Option.some.inj found).symm

theorem Sound.only {d : Defect} (sound : Sound limit ledger) (member : d ∈ ledger) {change : Defect → Defect}
    (changed : (change d).Sound limit) : ∀ e ∈ ledger, (Ledger.only d.id change e).Sound limit := by
  intro e inside
  unfold Ledger.only
  split
  · next same =>
    rw [eq_of_id_eq sound.distinct inside member same]
    exact changed
  · exact sound.each e inside

theorem Sound.markFixed {d : Defect} (sound : Sound limit ledger) (member : d ∈ ledger) (isOpen : d.status = .unfixed)
    (details : FixDetails) (now : Timestamp) :
    Sound limit (ledger.markFixed d.id details now) ∧ Keeps ledger (ledger.markFixed d.id details now) := by
  rw [Ledger.markFixed, update_eq_map sound.distinct]
  have identity := @only_keeps _ d.id (withFix_identity details now)
  refine ⟨sound.map (fun e => (identity e).1) ?_, keeps_map identity ledger⟩
  exact sound.only member ((sound.each d member).withFix now isOpen details)

theorem Sound.recordFailure {maxAttempts : Nat} {d : Defect} (sound : Sound (max maxAttempts 1) ledger) (member : d ∈ ledger)
    (isOpen : d.status = .unfixed) (small : max maxAttempts 1 < Number.bound32) (reason : String) (now : Timestamp) :
    Sound (max maxAttempts 1) (ledger.recordFailure d.id reason maxAttempts now) ∧
      Keeps ledger (ledger.recordFailure d.id reason maxAttempts now) := by
  rw [Ledger.recordFailure, update_eq_map sound.distinct]
  have identity := @only_keeps _ d.id (withFailure_identity reason maxAttempts now)
  refine ⟨sound.map (fun e => (identity e).1) ?_, keeps_map identity ledger⟩
  exact sound.only member ((sound.each d member).withFailure now isOpen small reason)

theorem Sound.unblock (sound : Sound limit ledger) (positive : 0 < limit) (id : String) (now : Timestamp) :
    Sound limit (ledger.unblock id now) ∧ Keeps ledger (ledger.unblock id now) := by
  rw [Ledger.unblock, update_eq_map sound.distinct]
  have identity := @only_keeps _ id (released_identity now)
  refine ⟨sound.map (fun e => (identity e).1) ?_, keeps_map identity ledger⟩
  intro d member
  unfold Ledger.only
  split
  · exact (sound.each d member).released now positive
  · exact sound.each d member

theorem Sound.unblockAll (sound : Sound limit ledger) (positive : 0 < limit) (now : Timestamp) :
    Sound limit (ledger.unblockAll now) ∧ Keeps ledger (ledger.unblockAll now) := by
  refine ⟨sound.map (fun d => (released_identity now d).1) ?_, keeps_map (released_identity now) ledger⟩
  intro d member
  exact (sound.each d member).released now positive

theorem Sound.merge (sound : Sound limit ledger) (positive : 0 < limit) {incoming : List Defect}
    (untried : ∀ d ∈ incoming, d.Untried) (scope : List DefectKind) (now : Timestamp) :
    Sound limit (ledger.merge incoming scope now).1 ∧ Keeps ledger (ledger.merge incoming scope now).1 := by
  have parts := merge_eq incoming scope now sound.distinct
  refine ⟨⟨nodup_merge incoming scope now sound.distinct, ?_⟩, ?_⟩
  · rw [parts]
    intro e found
    rcases List.mem_append.mp found with known | new
    · obtain ⟨d, member, rfl⟩ := List.mem_map.mp known
      exact (sound.each d member).settled now incoming scope
    · obtain ⟨f, unknown, rfl⟩ := List.mem_map.mp new
      exact (untried f (mem_of_mem_firsts (mem_unknown.mp unknown).1)).sound_opened now positive
  · rw [parts]
    intro d member
    exact ⟨_, List.mem_append_left _ (List.mem_map_of_mem member), settled_identity incoming scope now d⟩

end

end Ledger

/-!
## Changes keep ledgers storable

What repair does to a defect leaves it one that a document can hold: counters stop at their largest value, and the fix that
is recorded can be stored.
-/

open Number

namespace Defect.Storable

variable {d : Defect} (now : Timestamp)

theorem withFix (storable : d.Storable) {details : FixDetails} (good : details.Storable) :
    (Ledger.withFix details now d).Storable := by
  refine ⟨storable.line, storable.column, storable.attempts, storable.regressions, ?_⟩
  rintro f ⟨rfl⟩
  exact good

theorem withFailure (storable : d.Storable) (reason : String) (maxAttempts : Nat) :
    (Ledger.withFailure reason maxAttempts now d).Storable :=
  ⟨storable.line, storable.column, saturatingAdd_lt (by decide) _ _, storable.regressions, storable.fix⟩

theorem released (storable : d.Storable) : (Ledger.released now d).Storable := by
  unfold Ledger.released
  split
  · refine ⟨storable.line, storable.column, ?_, storable.regressions, storable.fix⟩
    show 0 < bound32
    decide
  · exact storable

theorem refresh (storable : d.Storable) {fresh : Defect} (reported : fresh.Storable) :
    (Ledger.refresh now d fresh).Storable := by
  unfold Ledger.refresh
  split
  · exact ⟨storable.line, reported.column, storable.attempts, storable.regressions, storable.fix⟩
  · exact storable

theorem receive (storable : d.Storable) {fresh : Defect} (reported : fresh.Storable) :
    (Ledger.receive now d fresh).1.Storable := by
  have known := storable.refresh now reported
  unfold Ledger.receive
  split
  · exact ⟨known.line, known.column, known.attempts, saturatingAdd_lt (by decide) _ _, known.fix⟩
  · exact known

theorem miss (storable : d.Storable) (scope : List DefectKind) : (Ledger.miss scope now d).1.Storable := by
  unfold Ledger.miss
  split
  · exact ⟨storable.line, storable.column, storable.attempts, storable.regressions, storable.fix⟩
  · exact storable

theorem opened (storable : d.Storable) : (Ledger.opened now d).Storable :=
  ⟨storable.line, storable.column, storable.attempts, storable.regressions, storable.fix⟩

end Defect.Storable

namespace Ledger

section
variable {ledger : Ledger} (each : ∀ d ∈ ledger, d.Storable)
include each

theorem storable_map {change : Defect → Defect} (keeps : ∀ d, d.Storable → (change d).Storable) :
    ∀ d ∈ ledger.map change, d.Storable := by
  intro e changed
  obtain ⟨d, member, rfl⟩ := List.mem_map.mp changed
  exact keeps d (each d member)

theorem storable_update {change : Defect → Defect} (keeps : ∀ d, d.Storable → (change d).Storable) (id : String) :
    ∀ d ∈ ledger.update id change, d.Storable := by
  induction ledger with
  | nil => exact each
  | cons d more ih =>
    obtain ⟨first, others⟩ := List.forall_mem_cons.mp each
    unfold update
    split
    · exact List.forall_mem_cons.mpr ⟨keeps d first, others⟩
    · exact List.forall_mem_cons.mpr ⟨first, ih others⟩

/-- What becomes of the known defects can be stored, even if an identifier stands twice. -/
theorem storable_reconcile {fresh : List Defect} (reported : ∀ f ∈ fresh, f.Storable) (scope : List DefectKind)
    (now : Timestamp) : ∀ row ∈ reconcile fresh scope now ledger, row.1.Storable := by
  induction ledger with
  | nil => simp [reconcile]
  | cons d more ih =>
    obtain ⟨first, others⟩ := List.forall_mem_cons.mp each
    refine List.forall_mem_cons.mpr ⟨?_, ih others⟩
    split
    · exact first.miss now scope
    · next f found =>
      split
      · exact first
      · exact first.receive now (reported f (List.mem_of_find?_eq_some found))

theorem storable_merge {incoming : List Defect} (reported : ∀ f ∈ incoming, f.Storable) (scope : List DefectKind)
    (now : Timestamp) : ∀ d ∈ (ledger.merge incoming scope now).1, d.Storable := by
  have fresh : ∀ f ∈ firsts incoming, f.Storable := fun f member => reported f (mem_of_mem_firsts member)
  intro e found
  rcases List.mem_append.mp found with known | new
  · obtain ⟨row, listed, rfl⟩ := List.mem_map.mp known
    exact storable_reconcile each fresh scope now row listed
  · obtain ⟨f, unknown, rfl⟩ := List.mem_map.mp new
    exact (fresh f (mem_unknown.mp unknown).1).opened now

end

end Ledger

end GatedRepair
