import GatedRepair.Proofs.Edit.Gate

/-!
# Edits as transactions

Whatever a verifier does to the files, an edit that it does not pass leaves the edited file as it was, or else the backup
stays. However an edit comes to its end, the directory of backups holds the same files as before (`apply_is_transaction`).
-/

namespace GatedRepair.Edit

open Files

/-- What stands at a place is what stood there, or a directory that was made where nothing was. -/
def SameAt (before after : Tree) (x : Location) : Prop :=
  after.get? x = before.get? x ∨ (before.get? x = none ∧ after.get? x = some .directory)

/-- No file and no link changes, is lost or comes to be. -/
def SameFiles (before after : Tree) : Prop := ∀ x, SameAt before after x

theorem sameFiles_of_changed {before after : Tree} (change : Changed Nowhere (fun _ => True) before after) :
    SameFiles before after := by
  intro x
  rcases change x with same | ⟨impossible, -⟩ | ⟨-, made⟩
  · exact .inl same
  · exact impossible.elim
  · exact .inr made

/-- A place that held a file holds what the edit makes of it. -/
def Replacement.Made (r : Replacement) (before after : Tree) (place : Location) : Prop :=
  ∃ content mode new, before.get? place = some (.file content mode) ∧ r.content? content = some new ∧
    after.get? place = some (.file new mode)

/-- An edit is made as far as to be judged: the path of its backup, and the disk with the edit in its place. -/
inductive Presented (root backups : String) (now : Timestamp) (r : Replacement) (disk : Disk) : String → Disk → Prop
  | intro {file : RepositoryFile} {backup text : String} {saved ready seen : Disk}
      (resolved : disk.tree.resolve root r.file = .ok file) (backed : backUp backups now file disk = (.ok backup, saved))
      (prepared : prepare file r saved = (.ok text, ready))
      (written : ready.write file.absolute text.toUTF8 = (.ok (), seen)) : Presented root backups now r disk backup seen

/-- A directory, what it holds and the way to it are left alone. -/
def LeftAlone (directory : String) (before after : Tree) : Prop :=
  ∀ house, before.find? directory = .ok (house, .directory) →
    after.find? directory = .ok (house, .directory) ∧ ∀ x, house <+: x → after.get? x = before.get? x

/-- What an edit relies on: its backup has a name of its own and is made as a whole or not at all, the verifier leaves the
directory of backups alone and puts no link on the way to the file, and the backup can be removed. -/
structure Orderly {σ : Type} (verifier : Verifier σ) (root backups : String) (now : Timestamp) (r : Replacement) (s : σ)
    (disk : Disk) : Prop where
  fresh : ∀ file made, disk.tree.resolve root r.file = .ok file → disk.makeDirectories backups = (.ok (), made) →
    ∀ x entry, made.tree.locate false (Path.within backups (backupName file.relative now)) ≠ .ok (.found x entry)
  whole : ∀ file made after e, disk.tree.resolve root r.file = .ok file → disk.makeDirectories backups = (.ok (), made) →
    made.copy file.absolute (Path.within backups (backupName file.relative now)) = (.error e, after) → after.tree = made.tree
  alone : ∀ backup seen, Presented root backups now r disk backup seen →
    LeftAlone backups seen.tree (verifier.verify s seen).2.2.tree
  direct : ∀ backup seen place, Presented root backups now r disk backup seen → r.place? disk.tree root = some place →
    Straight (verifier.verify s seen).2.2.tree place
  clears : (trial root backups now verifier r s disk).Clears

/-- A file that is edited, and the place of its backup. -/
structure Saving (root backups : String) (r : Replacement) (before : Tree) where
  place : Location
  content : ByteArray
  mode : Mode
  house : Location
  name : String
  landing : r.place? before root = some place
  plain : Plain before place
  stood : before.get? place = some (.file content mode)
  fits : Files.Fits backups name
  free : before.get? (house ++ [name]) = none

namespace Saving

variable {root backups : String} {r : Replacement} {before tree tree' : Tree} (saving : Saving root backups r before)

/-- Where the backup is. -/
abbrev spare : Location := saving.house ++ [saving.name]

/-- The path of the backup. -/
def backup : String := Path.within backups saving.name

/-- The backup is a copy of what the file was. -/
structure Held (tree : Tree) : Prop where
  found : tree.find? backups = .ok (saving.house, .directory)
  copied : tree.get? saving.spare = some (.file saving.content saving.mode.copied)

/-- The edit is in its place, the backup is a copy of what the file was, and no other file has changed. -/
structure Written (tree : Tree) : Prop where
  held : saving.Held tree
  able : saving.mode.refusal? = none
  near : Changed (fun x => x = saving.spare ∨ x = saving.place) (fun _ => True) before tree
  made : r.Made before tree saving.place

variable {saving}

theorem apart : saving.place ≠ saving.spare := by
  intro same
  have free := saving.free
  rw [show saving.house ++ [saving.name] = saving.place from same.symm, saving.stood] at free
  cases free

theorem Held.reaches (held : saving.Held tree) : Reaches tree saving.backup saving.spare :=
  reaches_within saving.fits held.found (by simp [held.copied])

theorem Held.find? (held : saving.Held tree) :
    tree.find? saving.backup = .ok (saving.spare, .file saving.content saving.mode.copied) := by
  have located : tree.locate true saving.backup = .ok (spotAt tree saving.spare) :=
    locate_within saving.fits held.found (by simp [held.copied])
  rw [spotAt_of_get? held.copied] at located
  exact find?_iff.mpr located

theorem Held.read (held : saving.Held tree) : tree.read saving.backup = .ok saving.content := by
  rw [Tree.read, held.find?]

theorem Held.left (held : saving.Held tree) (alone : LeftAlone backups tree tree') : saving.Held tree' := by
  obtain ⟨found, inside⟩ := alone _ held.found
  exact ⟨found, by rw [inside _ (List.prefix_append _ _), held.copied]⟩

theorem Held.keep (held : saving.Held tree) (plain : Plain tree saving.place) (steady : Steady tree tree')
    (change : Changed (At saving.place) Nowhere tree tree') : saving.Held tree' := by
  refine ⟨find?_firm ?_ held.found, by rw [change.rest apart.symm id, held.copied]⟩
  exact change.firm (steady.directories _) (plain.straight _ List.prefix_rfl)

/-- The file is put back from the backup, if that can be written, and nothing else changes. -/
theorem Held.reinstated {disk : Disk} (held : saving.Held disk.tree) (plain : Plain disk.tree saving.place) :
    saving.Held (reinstate (Tree.pathOf saving.place) saving.backup disk).2.tree ∧
      Changed (At saving.place) Nowhere disk.tree (reinstate (Tree.pathOf saving.place) saving.backup disk).2.tree ∧
      match (reinstate (Tree.pathOf saving.place) saving.backup disk).1 with
      | .ok () => (reinstate (Tree.pathOf saving.place) saving.backup disk).2.tree.get? saving.place =
          some (.file saving.content saving.mode.copied) ∧
          ∀ old mode, disk.tree.get? saving.place = some (.file old mode) → mode.refusal? = none
      | .error e => e.backup = saving.backup := by
  obtain ⟨same, steps⟩ := reinstate_steps (Tree.pathOf saving.place) saving.backup disk
  obtain ⟨change, copied⟩ := Disk.copy_reached held.reaches plain.reaches
  rw [same]
  refine ⟨held.keep plain Disk.copy_steady change, change, ?_⟩
  split
  · next well =>
    rw [well] at steps
    obtain ⟨⟨content, mode, stood, stands⟩, able⟩ := copied steps
    obtain ⟨rfl, rfl⟩ : saving.content = content ∧ saving.mode.copied = mode := by
      rw [held.copied] at stood
      simpa using stood
    exact ⟨stands, able⟩
  · next e failed =>
    rw [failed] at steps
    exact steps

/-- When the file is back, only the backup is new. -/
theorem near_of_back {after : Tree} (near : Changed (fun x => x = saving.spare ∨ x = saving.place) (fun _ => True) before tree)
    (change : Changed (At saving.place) Nowhere tree after)
    (back : after.get? saving.place = some (.file saving.content saving.mode)) :
    Changed (At saving.spare) (fun _ => True) before after := by
  have whole := near.trans (change.mono (fun _ it => .inr it) fun _ it => it.elim)
  intro x
  by_cases it : x = saving.place
  · rw [it, back, saving.stood]
    exact .inl rfl
  · rcases whole x with same | ⟨spare | place, free⟩ | made
    · exact .inl same
    · exact .inr (.inl ⟨spare, free⟩)
    · exact absurd place it
    · exact .inr (.inr made)

theorem Held.cleared {disk : Disk} (held : saving.Held disk.tree) (removed : (disk.removeFile saving.backup).1 = .ok ()) :
    (∀ x, x ≠ saving.spare → (discard saving.backup disk).tree.get? x = disk.tree.get? x) ∧
      (discard saving.backup disk).tree.get? saving.spare = none ∧
      (discard saving.backup disk).tree.find? backups = .ok (saving.house, .directory) := by
  obtain ⟨change, gone⟩ := Disk.removeFile_reached held.reaches
  refine ⟨fun x other => change.rest other id, gone removed, find?_firm ?_ held.found⟩
  exact change.firm (by simp [held.copied]) (by simp [held.copied])

/-- When the backup has been removed, a place is as before if it was so until then. -/
theorem Held.sameAt {disk : Disk} (held : saving.Held disk.tree) (removed : (disk.removeFile saving.backup).1 = .ok ())
    {x : Location} (same : x ≠ saving.spare → SameAt before disk.tree x) :
    SameAt before (discard saving.backup disk).tree x := by
  obtain ⟨rest, gone, -⟩ := held.cleared removed
  by_cases it : x = saving.spare
  · rw [it]
    exact .inl (gone.trans saving.free.symm)
  · unfold SameAt
    rw [rest x it]
    exact same it

end Saving

section
variable {σ : Type} {verifier : Verifier σ} {root backups : String} {now : Timestamp} {r : Replacement} {s : σ} {disk : Disk}

/-- A file that could not be saved. -/
theorem Orderly.unsaved (orderly : Orderly verifier root backups now r s disk) {file : RepositoryFile} {after : Disk}
    {obstacle : Obstacle} (resolved : disk.tree.resolve root r.file = .ok file)
    (backed : backUp backups now file disk = (.error obstacle, after)) : SameFiles disk.tree after.tree := by
  have made := @Disk.makeDirectories_changed disk backups
  unfold backUp at backed
  split at backed
  · next e disk₁ same =>
    obtain ⟨-, rfl⟩ := Prod.mk.inj backed
    rw [same] at made
    exact sameFiles_of_changed made
  · next disk₁ same =>
    rw [same] at made
    simp only at backed
    split at backed
    · next e disk₂ copied =>
      obtain ⟨-, rfl⟩ := Prod.mk.inj backed
      rw [orderly.whole _ _ _ _ resolved same copied]
      exact sameFiles_of_changed made
    · cases backed

/-- A file that was saved. -/
theorem Orderly.saved (orderly : Orderly verifier root backups now r s disk) {file : RepositoryFile} {after : Disk}
    {backup : String} (resolved : disk.tree.resolve root r.file = .ok file)
    (backed : backUp backups now file disk = (.ok backup, after)) :
    ∃ saving : Saving root backups r disk.tree, file.absolute = Tree.pathOf saving.place ∧ backup = saving.backup ∧
      saving.Held after.tree ∧ Changed (At saving.spare) (fun _ => True) disk.tree after.tree := by
  obtain ⟨place, content, mode, absolute, plain, stood, landing⟩ := Replacement.lands resolved
  have made := @Disk.makeDirectories_changed disk backups
  unfold backUp at backed
  split at backed
  · cases backed
  · next disk₁ same =>
    rw [same] at made
    simp only at backed
    split at backed
    · cases backed
    · next disk₂ copied =>
      obtain ⟨named, rfl⟩ := Prod.mk.inj backed
      obtain rfl := Except.ok.inj named
      have some : backups ≠ "" := by
        rintro rfl
        exact absurd (congrArg Prod.fst same) (Disk.makeDirectories_empty disk)
      obtain ⟨spot, located⟩ := Disk.located_of_copy (congrArg Prod.fst copied)
      obtain ⟨fits, house, found⟩ := found_of_locate_within some (State.isName_backupName file.relative now) located
      have nothing := free_of_locate_within fits found (orderly.fresh _ _ resolved same)
      have still := made.stays id stood
      have reaches := reaches_within fits found (by simp [nothing])
      obtain ⟨change, copy⟩ := Disk.copy_reached (made.plain plain).reaches reaches
      rw [← absolute, copied] at change copy
      obtain ⟨⟨content', mode', copied', stands⟩, -⟩ := copy rfl
      obtain ⟨rfl, rfl⟩ : content = content' ∧ mode = mode' := by
        rw [still] at copied'
        simpa using copied'
      refine ⟨⟨place, content, mode, house, _, landing, plain, stood, fits, made.free id nothing⟩, absolute, rfl,
        ⟨?_, stands⟩, ?_⟩
      · exact find?_firm (change.firm (by simp [nothing]) (by simp [nothing])) found
      · exact (made.mono (fun _ it => it.elim) fun _ it _ => .inr it).trans (change.mono (fun _ it => it) fun _ it => it.elim)

theorem Presented.unique {backup backup' : String} {seen seen' : Disk} (one : Presented root backups now r disk backup seen)
    (other : Presented root backups now r disk backup' seen') : backup' = backup ∧ seen' = seen := by
  obtain ⟨resolved, backed, prepared, written⟩ := one
  obtain ⟨resolved', backed', prepared', written'⟩ := other
  obtain rfl := Except.ok.inj (resolved.symm.trans resolved')
  obtain ⟨saved, rfl⟩ := Prod.mk.inj (backed.symm.trans backed')
  obtain rfl := Except.ok.inj saved
  obtain ⟨ready, rfl⟩ := Prod.mk.inj (prepared.symm.trans prepared')
  obtain rfl := Except.ok.inj ready
  exact ⟨rfl, (Prod.mk.inj (written'.symm.trans written)).2⟩

/-- For an edit that is presented, all that matters is what the verifier does to that tree, the name of the backup and its
removal. -/
theorem Presented.orderly {backup : String} {seen : Disk} (presented : Presented root backups now r disk backup seen)
    (fresh : ∀ x entry, (disk.makeDirectories backups).2.tree.locate false backup ≠ .ok (.found x entry))
    (alone : LeftAlone backups seen.tree (verifier.verify s seen).2.2.tree)
    (direct : ∀ place, r.place? disk.tree root = some place → Straight (verifier.verify s seen).2.2.tree place)
    (clears : (trial root backups now verifier r s disk).Clears) : Orderly verifier root backups now r s disk := by
  have only : ∀ backup' seen', Presented root backups now r disk backup' seen' → backup' = backup ∧ seen' = seen :=
    fun _ _ other => presented.unique other
  obtain ⟨resolved, backed⟩ := presented
  unfold backUp at backed
  refine ⟨fun file made resolved' same x entry found => ?_, fun file made after e resolved' same failed => ?_, ?_, ?_, clears⟩
  · obtain rfl := Except.ok.inj (resolved.symm.trans resolved')
    simp only [same] at backed fresh
    split at backed
    · cases backed
    · obtain rfl := Except.ok.inj (Prod.mk.inj backed).1
      exact fresh _ _ found
  · obtain rfl := Except.ok.inj (resolved.symm.trans resolved')
    simp only [same, failed] at backed
    cases backed
  · intro _ _ other
    obtain ⟨rfl, rfl⟩ := only _ _ other
    exact alone
  · intro _ _ place other landing
    obtain ⟨rfl, rfl⟩ := only _ _ other
    exact direct place landing

/-- A saved file is written. -/
theorem Saving.Held.written {file : RepositoryFile} {text : String} {saved ready seen : Disk} {result : Except Failure Unit}
    {saving : Saving root backups r disk.tree} (absolute : file.absolute = Tree.pathOf saving.place)
    (held : saving.Held saved.tree) (near : Changed (At saving.spare) (fun _ => True) disk.tree saved.tree)
    (prepared : prepare file r saved = (.ok text, ready)) (ended : ready.write file.absolute text.toUTF8 = (result, seen)) :
    r.content? saving.content = some text.toUTF8 ∧ saving.Held seen.tree ∧
      Changed (fun x => x = saving.spare ∨ x = saving.place) (fun _ => True) disk.tree seen.tree ∧
      (∃ now, seen.tree.get? saving.place = some (.file now saving.mode)) ∧
      (result = .ok () → saving.mode.refusal? = none ∧
        seen.tree.get? saving.place = some (.file text.toUTF8 saving.mode)) := by
  have plain := near.plain saving.plain
  have still := near.stays Saving.apart saving.stood
  have kept := prepare_tree prepared
  have plain' : Plain ready.tree saving.place := kept ▸ plain
  obtain ⟨change, stands⟩ := Disk.write_spec plain' text.toUTF8
  have moded := Disk.write_mode plain' text.toUTF8 (kept ▸ still : ready.tree.get? saving.place = some (.file _ saving.mode))
  have steady := @Disk.writing_steady ready (Tree.pathOf saving.place) (fun _ => text.toUTF8) none
  change Steady ready.tree (ready.write (Tree.pathOf saving.place) text.toUTF8).2.tree at steady
  rw [← absolute, ended] at change stands steady moded
  rw [kept] at change stands steady
  refine ⟨prepare_ok prepared absolute plain still, held.keep plain steady change, ?_, moded, fun well => ?_⟩
  · exact (near.mono (fun _ it => .inl it) fun _ it _ => .inr it).trans (change.mono (fun _ it => .inr it) fun _ it => it.elim)
  · obtain ⟨mode, there, same⟩ := stands well
    obtain ⟨rfl, able⟩ := same _ _ still
    exact ⟨able, there⟩

/-- What can come of an edit before its backup is removed. -/
inductive Tried (verifier : Verifier σ) (root backups : String) (now : Timestamp) (r : Replacement) (s : σ) (disk : Disk) :
    Trial σ → Prop
  | unsaved {obstacle : Obstacle} {after : Disk}
      (unasked : ∀ backup seen, ¬ Presented root backups now r disk backup seen) (same : SameFiles disk.tree after.tree) :
      Tried verifier root backups now r s disk ⟨.ok (.notMade obstacle), s, after, none⟩
  | notMade (saving : Saving root backups r disk.tree) {obstacle : Obstacle} {after : Disk}
      (unasked : ∀ backup seen, ¬ Presented root backups now r disk backup seen) (held : saving.Held after.tree)
      (near : Changed (At saving.spare) (fun _ => True) disk.tree after.tree) :
      Tried verifier root backups now r s disk ⟨.ok (.notMade obstacle), s, after, some saving.backup⟩
  | stranded (saving : Saving root backups r disk.tree) {e : RestoreError} {after : Disk}
      (unasked : ∀ backup seen, ¬ Presented root backups now r disk backup seen)
      (fits : (r.content? saving.content).isSome = true) (held : saving.Held after.tree) (named : e.backup = saving.backup) :
      Tried verifier root backups now r s disk ⟨.error e, s, after, none⟩
  | passed (saving : Saving root backups r disk.tree) {seen : Disk}
      (presented : Presented root backups now r disk saving.backup seen) (written : saving.Written seen.tree)
      (held : saving.Held (verifier.verify s seen).2.2.tree) (passed : (verifier.verify s seen).1.passed = true) :
      Tried verifier root backups now r s disk ⟨.ok (.success (verifier.verify s seen).1), (verifier.verify s seen).2.1,
        (verifier.verify s seen).2.2, some saving.backup⟩
  | reverted (saving : Saving root backups r disk.tree) {seen after : Disk}
      (presented : Presented root backups now r disk saving.backup seen) (written : saving.Written seen.tree)
      (failed : (verifier.verify s seen).1.passed = false) (held : saving.Held after.tree)
      (change : Changed (At saving.place) Nowhere (verifier.verify s seen).2.2.tree after.tree)
      (back : after.tree.get? saving.place = some (.file saving.content saving.mode)) :
      Tried verifier root backups now r s disk ⟨.ok (.reverted (verifier.verify s seen).1), (verifier.verify s seen).2.1,
        after, some saving.backup⟩
  | lost (saving : Saving root backups r disk.tree) {seen after : Disk} {e : RestoreError}
      (presented : Presented root backups now r disk saving.backup seen) (written : saving.Written seen.tree)
      (failed : (verifier.verify s seen).1.passed = false) (held : saving.Held after.tree)
      (named : e.backup = saving.backup) :
      Tried verifier root backups now r s disk ⟨.error e, (verifier.verify s seen).2.1, after, none⟩

/-- A written edit is tried. -/
theorem Orderly.judged (orderly : Orderly verifier root backups now r s disk) {saving : Saving root backups r disk.tree}
    {seen : Disk} (presented : Presented root backups now r disk saving.backup seen) (written : saving.Written seen.tree) :
    Tried verifier root backups now r s disk (judged verifier (Tree.pathOf saving.place) saving.backup s seen) := by
  have held := written.held.left (orderly.alone _ _ presented)
  have plain : Plain (verifier.verify s seen).2.2.tree saving.place :=
    ⟨saving.plain.named, orderly.direct _ _ _ presented saving.landing⟩
  rw [judged_eq]
  split
  · next passed => exact .passed saving presented written held passed
  · next failed =>
    obtain ⟨held', change, put⟩ := held.reinstated plain
    have failed' : (verifier.verify s seen).1.passed = false := by simpa using failed
    unfold withdrawn
    split
    · next after same =>
      rw [same] at held' change put
      exact .reverted saving presented written failed' held' change (Mode.copied_of_free written.able ▸ put.1)
    · next e after same =>
      rw [same] at held' put
      exact .lost saving presented written failed' held' put

/-- Every edit is tried. -/
theorem Orderly.tried (orderly : Orderly verifier root backups now r s disk) :
    Tried verifier root backups now r s disk (trial root backups now verifier r s disk) := by
  unfold trial
  split
  · next refusal refused =>
    refine .unsaved (fun _ _ presented => ?_) fun _ => .inl rfl
    obtain ⟨resolved⟩ := presented
    rw [refused] at resolved
    cases resolved
  · next file resolved =>
    split
    · next obstacle disk₁ failed =>
      refine .unsaved (fun _ _ presented => ?_) (orderly.unsaved resolved failed)
      obtain ⟨resolved', backed⟩ := presented
      obtain rfl := Except.ok.inj (resolved.symm.trans resolved')
      rw [failed] at backed
      cases backed
    · next backup disk₁ backed =>
      obtain ⟨saving, absolute, rfl, held, near⟩ := orderly.saved resolved backed
      split
      · next obstacle disk₂ failed =>
        have kept := prepare_tree failed
        refine .notMade saving (fun _ _ presented => ?_) (kept ▸ held) (kept ▸ near)
        obtain ⟨resolved', backed', prepared⟩ := presented
        obtain rfl := Except.ok.inj (resolved.symm.trans resolved')
        obtain ⟨-, rfl⟩ := Prod.mk.inj (backed.symm.trans backed')
        rw [failed] at prepared
        cases prepared
      · next text disk₂ prepared =>
        split
        · next e disk₃ failed =>
          obtain ⟨made, held₃, near₃, ⟨current, there⟩, -⟩ := held.written absolute near prepared failed
          have unasked : ∀ backup seen, ¬ Presented root backups now r disk backup seen := by
            intro _ _ presented
            obtain ⟨resolved', backed', prepared', written⟩ := presented
            obtain rfl := Except.ok.inj (resolved.symm.trans resolved')
            obtain ⟨-, rfl⟩ := Prod.mk.inj (backed.symm.trans backed')
            obtain ⟨ready, rfl⟩ := Prod.mk.inj (prepared.symm.trans prepared')
            obtain rfl := Except.ok.inj ready
            rw [failed] at written
            cases written
          obtain ⟨held', change, put⟩ := held₃.reinstated (near₃.plain saving.plain)
          rw [absolute]
          unfold withdrawn
          split
          · next after same =>
            rw [same] at held' change put
            obtain ⟨back, able⟩ := put
            rw [Mode.copied_of_free (able current _ there)] at back
            exact .notMade saving unasked held' (Saving.near_of_back near₃ change back)
          · next e' after same =>
            rw [same] at held' put
            exact .stranded saving unasked (by simp [made]) held' put
        · next disk₃ written =>
          obtain ⟨made, held₃, near₃, -, stands⟩ := held.written absolute near prepared written
          obtain ⟨able, there⟩ := stands rfl
          rw [absolute]
          exact orderly.judged (.intro resolved backed prepared written)
            ⟨held₃, able, near₃, _, _, _, saving.stood, made, there⟩

/-- What an edit does, together with the record of what the verifier was asked. -/
structure Transaction (verifier : Verifier σ) (root backups : String) (now : Timestamp) (r : Replacement) (s : σ) (disk : Disk)
    (given : Applied (σ × Record)) : Prop where
  /-- The record is kept on the side. -/
  bare : apply root backups now verifier r s disk = given.bare
  /-- An edit that fits no file is not made, the verifier is not asked, and all files are as before. -/
  unfit : (∀ place, ¬ r.Fits disk.tree root place) →
    (∃ obstacle, given.1 = .ok (.notMade obstacle)) ∧ given.2.1.2 = [] ∧ SameFiles disk.tree given.2.2.tree
  /-- Where the verifier is not asked, an edit that comes to its end is not made, and all files are as before. -/
  unasked : (∀ backup seen, ¬ Presented root backups now r disk backup seen) → given.2.1.2 = [] ∧
    ∀ outcome, given.1 = .ok outcome → (∃ obstacle, outcome = .notMade obstacle) ∧ SameFiles disk.tree given.2.2.tree
  /-- The verifier is asked once, about a tree with the edit in its place. -/
  asked : ∀ backup seen, Presented root backups now r disk backup seen →
    given.2.1.2 = [(seen.tree, (verifier.verify s seen).1)] ∧
      ∃ place, r.place? disk.tree root = some place ∧ r.Made disk.tree seen.tree place
  /-- If the verifier passes it, the edit succeeds, and from then on nothing is touched but the backup. -/
  passed : ∀ backup seen, Presented root backups now r disk backup seen → (verifier.verify s seen).1.passed = true →
    given.1 = .ok (.success (verifier.verify s seen).1) ∧ ∃ spare entry, seen.tree.find? backup = .ok (spare, entry) ∧
      ∀ x, x ≠ spare → given.2.2.tree.get? x = (verifier.verify s seen).2.2.tree.get? x
  /-- If the verifier does not pass it, the edit is taken back, or that fails. -/
  failed : ∀ backup seen, Presented root backups now r disk backup seen → (verifier.verify s seen).1.passed = false →
    given.1 = .ok (.reverted (verifier.verify s seen).1) ∨ ∃ e, given.1 = .error e
  /-- A file whose edit was taken back is the file that it was. -/
  reverted : ∀ verdict, given.1 = .ok (.reverted verdict) → ∃ place content mode, r.place? disk.tree root = some place ∧
    disk.tree.get? place = some (.file content mode) ∧ given.2.2.tree.get? place = some (.file content mode)
  /-- If a file could not be put back, its backup holds what it held. -/
  lost : ∀ e, given.1 = .error e → ∃ place content mode, r.place? disk.tree root = some place ∧
    disk.tree.get? place = some (.file content mode) ∧ given.2.2.tree.read e.backup = .ok content
  /-- However the edit comes to its end, the directory of backups holds the files that it held. But the file that was edited
  may be one of them. -/
  tidy : ∀ outcome, given.1 = .ok outcome → ∀ house, given.2.2.tree.find? backups = .ok (house, .directory) →
    ∀ x, house <+: x → SameAt disk.tree given.2.2.tree x ∨
      ((∃ verdict, outcome = .success verdict) ∧ r.place? disk.tree root = some x ∧ r.Made disk.tree given.2.2.tree x)

/-- With a record, what an edit relies on is the same. -/
theorem Orderly.recorded (orderly : Orderly verifier root backups now r s disk) :
    Orderly verifier.recorded root backups now r (s, []) disk where
  fresh := orderly.fresh
  whole := orderly.whole
  alone := orderly.alone
  direct := orderly.direct
  clears := by
    have same := trial_bare root backups now verifier r (s, []) disk
    have clears := orderly.clears
    rw [same] at clears
    exact clears

theorem Saving.Written.fits {saving : Saving root backups r disk.tree} {tree : Tree} (written : saving.Written tree) :
    r.Fits disk.tree root saving.place := by
  obtain ⟨content, mode, new, stood, made, -⟩ := written.made
  exact ⟨saving.landing, content, mode, stood, by simp [made]⟩

/-- A place in the directory of backups after a verifier that left the directory alone. -/
theorem Saving.Written.sameAt {saving : Saving root backups r disk.tree} {seen left : Tree} (written : saving.Written seen)
    (alone : LeftAlone backups seen left) {x : Location} (inside : saving.house <+: x) (other : x ≠ saving.place)
    (unspared : x ≠ saving.spare) : SameAt disk.tree left x := by
  unfold SameAt
  rw [(alone _ written.held.found).2 x inside]
  rcases written.near x with same | ⟨spare | place, -⟩ | ⟨-, made⟩
  · exact .inl same
  · exact absurd spare unspared
  · exact absurd place other
  · exact .inr made

section
variable {after : Disk} {obstacle : Obstacle} {e : RestoreError}

theorem transaction_of_notMade (bare : apply root backups now verifier r s disk = (.ok (.notMade obstacle), s, after))
    (unasked : ∀ backup seen, ¬ Presented root backups now r disk backup seen) (same : SameFiles disk.tree after.tree) :
    Transaction verifier root backups now r s disk (.ok (.notMade obstacle), (s, []), after) where
  bare := bare
  unfit _ := ⟨⟨_, rfl⟩, rfl, same⟩
  unasked _ := ⟨rfl, fun _ ended => ⟨⟨_, (Except.ok.inj ended).symm⟩, same⟩⟩
  asked _ _ presented := absurd presented (unasked _ _)
  passed _ _ presented := absurd presented (unasked _ _)
  failed _ _ presented := absurd presented (unasked _ _)
  reverted _ ended := by cases ended
  lost _ ended := by cases ended
  tidy _ _ _ _ x _ := .inl (same x)

theorem transaction_of_stranded (bare : apply root backups now verifier r s disk = (.error e, s, after))
    (saving : Saving root backups r disk.tree) (unasked : ∀ backup seen, ¬ Presented root backups now r disk backup seen)
    (fits : (r.content? saving.content).isSome = true) (held : saving.Held after.tree) (named : e.backup = saving.backup) :
    Transaction verifier root backups now r s disk (.error e, (s, []), after) where
  bare := bare
  unfit nowhere := absurd ⟨saving.landing, _, _, saving.stood, fits⟩ (nowhere saving.place)
  unasked _ := ⟨rfl, fun _ ended => by cases ended⟩
  asked _ _ presented := absurd presented (unasked _ _)
  passed _ _ presented := absurd presented (unasked _ _)
  failed _ _ presented := absurd presented (unasked _ _)
  reverted _ ended := by cases ended
  lost _ ended := by
    obtain rfl := Except.error.inj ended
    exact ⟨_, _, _, saving.landing, saving.stood, named ▸ held.read⟩
  tidy _ ended := by cases ended

variable {saving : Saving root backups r disk.tree} {seen : Disk}
  (orderly : Orderly verifier root backups now r s disk) (presented : Presented root backups now r disk saving.backup seen)
  (written : saving.Written seen.tree)
include presented written

theorem asked_once (backup : String) (shown : Disk) (other : Presented root backups now r disk backup shown) :
    [(seen.tree, (verifier.verify s seen).1)] = [(shown.tree, (verifier.verify s shown).1)] ∧
      ∃ place, r.place? disk.tree root = some place ∧ r.Made disk.tree shown.tree place := by
  obtain ⟨rfl, rfl⟩ := presented.unique other
  exact ⟨rfl, _, saving.landing, written.made⟩

theorem transaction_of_lost (held : saving.Held after.tree) (named : e.backup = saving.backup)
    (failed : (verifier.verify s seen).1.passed = false)
    (bare : apply root backups now verifier r s disk = (.error e, (verifier.verify s seen).2.1, after)) :
    Transaction verifier root backups now r s disk
      (.error e, ((verifier.verify s seen).2.1, [(seen.tree, (verifier.verify s seen).1)]), after) where
  bare := bare
  unfit nowhere := absurd written.fits (nowhere _)
  unasked none := absurd presented (none _ _)
  asked := asked_once presented written
  passed _ _ other passed := by
    obtain ⟨rfl, rfl⟩ := presented.unique other
    rw [failed] at passed
    cases passed
  failed _ _ _ _ := .inr ⟨_, rfl⟩
  reverted _ ended := by cases ended
  lost _ ended := by
    obtain rfl := Except.error.inj ended
    exact ⟨_, _, _, saving.landing, saving.stood, named ▸ held.read⟩
  tidy _ ended := by cases ended

include orderly

theorem transaction_of_passed (held : saving.Held (verifier.verify s seen).2.2.tree)
    (passed : (verifier.verify s seen).1.passed = true)
    (removed : ((verifier.verify s seen).2.2.removeFile saving.backup).1 = .ok ())
    (bare : apply root backups now verifier r s disk = (.ok (.success (verifier.verify s seen).1),
      (verifier.verify s seen).2.1, discard saving.backup (verifier.verify s seen).2.2)) :
    Transaction verifier root backups now r s disk (.ok (.success (verifier.verify s seen).1),
      ((verifier.verify s seen).2.1, [(seen.tree, (verifier.verify s seen).1)]),
      discard saving.backup (verifier.verify s seen).2.2) where
  bare := bare
  unfit nowhere := absurd written.fits (nowhere _)
  unasked none := absurd presented (none _ _)
  asked := asked_once presented written
  passed _ _ other _ := by
    obtain ⟨rfl, rfl⟩ := presented.unique other
    exact ⟨rfl, _, _, written.held.find?, (held.cleared removed).1⟩
  failed _ _ other failed := by
    obtain ⟨rfl, rfl⟩ := presented.unique other
    rw [passed] at failed
    cases failed
  reverted _ ended := by cases ended
  lost _ ended := by cases ended
  tidy _ ended house there x inside := by
    have alone := orderly.alone _ _ presented
    obtain ⟨rest, -, found⟩ := held.cleared removed
    obtain rfl : saving.house = house := (Prod.mk.inj (Except.ok.inj (found.symm.trans there))).1
    by_cases edited : x = saving.place
    · subst edited
      obtain ⟨content, mode, new, stood, made, stands⟩ := written.made
      refine .inr ⟨⟨_, (Except.ok.inj ended).symm⟩, saving.landing, content, mode, new, stood, made, ?_⟩
      rw [rest _ Saving.apart, (alone _ written.held.found).2 _ inside, stands]
    · exact .inl (held.sameAt removed (written.sameAt alone inside edited))

theorem transaction_of_reverted (held : saving.Held after.tree) (failed : (verifier.verify s seen).1.passed = false)
    (change : Changed (At saving.place) Nowhere (verifier.verify s seen).2.2.tree after.tree)
    (back : after.tree.get? saving.place = some (.file saving.content saving.mode))
    (removed : (after.removeFile saving.backup).1 = .ok ())
    (bare : apply root backups now verifier r s disk = (.ok (.reverted (verifier.verify s seen).1),
      (verifier.verify s seen).2.1, discard saving.backup after)) :
    Transaction verifier root backups now r s disk (.ok (.reverted (verifier.verify s seen).1),
      ((verifier.verify s seen).2.1, [(seen.tree, (verifier.verify s seen).1)]), discard saving.backup after) where
  bare := bare
  unfit nowhere := absurd written.fits (nowhere _)
  unasked none := absurd presented (none _ _)
  asked := asked_once presented written
  passed _ _ other passed := by
    obtain ⟨rfl, rfl⟩ := presented.unique other
    rw [failed] at passed
    cases passed
  failed _ _ other _ := by
    obtain ⟨rfl, rfl⟩ := presented.unique other
    exact .inl rfl
  reverted _ _ := ⟨_, _, _, saving.landing, saving.stood, ((held.cleared removed).1 _ Saving.apart).trans back⟩
  lost _ ended := by cases ended
  tidy _ _ house there x inside := by
    obtain ⟨-, -, found⟩ := held.cleared removed
    obtain rfl : saving.house = house := (Prod.mk.inj (Except.ok.inj (found.symm.trans there))).1
    refine .inl (held.sameAt removed fun unspared => ?_)
    by_cases edited : x = saving.place
    · rw [edited]
      exact .inl (back.trans saving.stood.symm)
    · have same := written.sameAt (orderly.alone _ _ presented) inside edited unspared
      unfold SameAt at same ⊢
      rw [change.rest edited id]
      exact same

end

/-- An edit is a transaction, as long as its backup has a name of its own, is made as a whole or not at all and can be
removed, and the verifier leaves the directory of backups alone and puts no link on the way to the file. -/
theorem apply_is_transaction (orderly : Orderly verifier root backups now r s disk) :
    Transaction verifier root backups now r s disk (apply root backups now verifier.recorded r (s, []) disk) := by
  have bare := apply_bare root backups now verifier r (s, []) disk
  have tried := orderly.recorded.tried
  have clears := orderly.recorded.clears
  rw [apply_eq_trial root backups now verifier.recorded] at bare ⊢
  generalize trial root backups now verifier.recorded r (s, []) disk = t at bare tried clears ⊢
  cases tried with
  | unsaved unasked same => exact transaction_of_notMade bare unasked same
  | notMade saving unasked held near =>
    refine transaction_of_notMade bare unasked fun x => held.sameAt (clears _ rfl) fun other => ?_
    rcases near x with same | ⟨it, -⟩ | ⟨-, made⟩
    · exact .inl same
    · exact absurd it other
    · exact .inr made
  | stranded saving unasked fits held named => exact transaction_of_stranded bare saving unasked fits held named
  | passed saving presented written held passed =>
    exact transaction_of_passed orderly presented written held passed (clears _ rfl) bare
  | reverted saving presented written failed held change back =>
    exact transaction_of_reverted orderly presented written held failed change back (clears _ rfl) bare
  | lost saving presented written failed held named =>
    exact transaction_of_lost presented written held named failed bare

end

/-- A verifier takes the file away and fails it. The file is back afterwards, and the directory that was made for the backup
holds no file, as before. -/
theorem deleted_file_is_back :
    let verifier : Verifier Unit := ⟨fun judged disk => (.fail "no", judged, (disk.removeFile "/r/a.py").2)⟩
    let disk : Disk := .sound ⟨[(["r"], .directory), (["r", "a.py"], .file "x = 1\n".toUTF8 .shared)]⟩
    let r : Replacement := ⟨"a.py", .region ⟨1, 1⟩, "x = 2"⟩
    let given := apply "/r" "/r/backups" .epoch verifier.recorded r ((), []) disk
    Orderly verifier "/r" "/r/backups" .epoch r () disk ∧ given.1 = .ok (.reverted (.fail "no")) ∧
      (∃ place content mode, r.place? disk.tree "/r" = some place ∧ disk.tree.get? place = some (.file content mode) ∧
        given.2.2.tree.get? place = some (.file content mode)) ∧
      Transaction verifier "/r" "/r/backups" .epoch r () disk given := by
  intro verifier disk r given
  let file : RepositoryFile := ⟨"/r/a.py", "a.py"⟩
  let saved := (backUp "/r/backups" .epoch file disk).2
  let ready := (prepare file r saved).2
  let seen := (ready.write file.absolute "x = 2\n".toUTF8).2
  let left := (seen.removeFile "/r/a.py").2
  have presented : Presented "/r" "/r/backups" .epoch r disk "/r/backups/a_py-19700101T000000000.bak" seen := by
    have backed : (backUp "/r/backups" .epoch file disk).1 = .ok "/r/backups/a_py-19700101T000000000.bak" := by
      decide +kernel
    have prepared : (prepare file r saved).1 = .ok "x = 2\n" := by decide +kernel
    have written : (ready.write file.absolute "x = 2\n".toUTF8).1 = .ok () := by decide +kernel
    exact .intro (by decide +kernel) (Prod.ext backed rfl) (Prod.ext prepared rfl) (Prod.ext written rfl)
  have before : seen.tree.entries = [(["r"], .directory), (["r", "a.py"], .file "x = 2\n".toUTF8 .shared),
      (["r", "backups"], .directory),
      (["r", "backups", "a_py-19700101T000000000.bak"], .file "x = 1\n".toUTF8 .shared)] := by
    decide +kernel
  have after : left.tree.entries = [(["r"], .directory), (["r", "backups"], .directory),
      (["r", "backups", "a_py-19700101T000000000.bak"], .file "x = 1\n".toUTF8 .shared)] := by
    decide +kernel
  have orderly : Orderly verifier "/r" "/r/backups" .epoch r () disk := by
    refine presented.orderly ?fresh ?alone ?direct ?clears
    case fresh =>
      have missing : (disk.makeDirectories "/r/backups").2.tree.locate false "/r/backups/a_py-19700101T000000000.bak" =
          .ok (.missing ["r", "backups"] "a_py-19700101T000000000.bak" false) := by
        decide +kernel
      simp [missing]
    case alone =>
      intro house found
      have home : seen.tree.find? "/r/backups" = .ok (["r", "backups"], .directory) := by decide +kernel
      have home' : left.tree.find? "/r/backups" = .ok (["r", "backups"], .directory) := by decide +kernel
      obtain rfl : ["r", "backups"] = house := (Prod.mk.inj (Except.ok.inj (home.symm.trans found))).1
      refine ⟨home', fun x inside => ?_⟩
      have other : x ≠ ["r", "a.py"] := by
        rintro rfl
        exact absurd inside (by decide)
      change left.tree.get? x = seen.tree.get? x
      simp only [Tree.get?, before, after, Tree.lookup_cons_if, other, if_false]
    case direct =>
      intro _ _ upper _ target link
      change left.tree.get? upper = some (.link target) at link
      rw [Tree.get?, after, Tree.lookup_cons_if, Tree.lookup_cons_if, Tree.lookup_cons_if] at link
      split_ifs at link <;> simp at link
    case clears =>
      have last : (trial "/r" "/r/backups" .epoch verifier r () disk).backup? =
          some "/r/backups/a_py-19700101T000000000.bak" := by
        decide +kernel
      intro backup spare
      obtain rfl := Option.some.inj (last.symm.trans spare)
      decide +kernel
  have reverted : given.1 = .ok (.reverted (.fail "no")) := by decide +kernel
  have transaction := apply_is_transaction orderly
  exact ⟨orderly, reverted, transaction.reverted _ reverted, transaction⟩

end GatedRepair.Edit
