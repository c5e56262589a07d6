import GatedRepair.Edit
import GatedRepair.Proofs.Files.Change

/-!
# What edits and other operations never do

No operation makes a link, and none removes a directory (`Steady`). That holds for putting a backup back too.
-/

/-!
## Putting a backup back

A backup is put back and then removed (`restore_eq`). All that putting it back changes is what the copying changes
(`reinstate_steps`).
-/

namespace GatedRepair.Edit

open Files

/-- Puts a backup back and makes sure that the file holds what the backup holds. -/
def reinstate (target backup : String) (disk : Disk) : Except RestoreError Unit × Disk :=
  match disk.copy backup target with
  | (.error e, disk) => (.error (.failed target backup e), disk)
  | (.ok (), disk) =>
    match disk.read target with
    | (.error e, disk) => (.error (.failed target backup e), disk)
    | (.ok restored, disk) =>
      match disk.read backup with
      | (.error e, disk) => (.error (.failed target backup e), disk)
      | (.ok saved, disk) => (if restored = saved then .ok () else .error (.mismatch target backup), disk)

/-- Restoring is putting back and removing. -/
theorem restore_eq (target backup : String) (disk : Disk) : restore target backup disk = match reinstate target backup disk with
    | (.ok (), disk) => (.ok (), discard backup disk)
    | (.error e, disk) => (.error e, disk) := by
  unfold restore reinstate
  rcases disk.copy backup target with ⟨e | _, disk₁⟩
  · rfl
  · simp only
    rcases disk₁.read target with ⟨e | restored, disk₂⟩
    · rfl
    · simp only
      rcases disk₂.read backup with ⟨e | saved, disk₃⟩
      · rfl
      · simp only
        split <;> rfl

/-- The backup that an error speaks of. -/
def RestoreError.backup : RestoreError → String
  | .failed _ backup _ => backup
  | .mismatch _ backup => backup

/-- Of what is done to put a backup back only the copying changes anything. -/
theorem reinstate_steps (target backup : String) (disk : Disk) :
    (reinstate target backup disk).2.tree = (disk.copy backup target).2.tree ∧
      match (reinstate target backup disk).1 with
      | .ok () => (disk.copy backup target).1 = .ok ()
      | .error e => e.backup = backup := by
  unfold reinstate
  rcases disk.copy backup target with ⟨e | _, disk₁⟩
  · exact ⟨rfl, rfl⟩
  · have read : (disk₁.read target).2.tree = disk₁.tree := Disk.reading_tree disk₁ (·.read target)
    simp only
    generalize disk₁.read target = found at read ⊢
    rcases found with ⟨e | restored, disk₂⟩
    · exact ⟨read, rfl⟩
    · have read' : (disk₂.read backup).2.tree = disk₂.tree := Disk.reading_tree disk₂ (·.read backup)
      simp only
      generalize disk₂.read backup = found at read' ⊢
      rcases found with ⟨e | saved, disk₃⟩
      · exact ⟨read'.trans read, rfl⟩
      · refine ⟨read'.trans read, ?_⟩
        by_cases same : restored = saved
        · simp [same]
        · simp [same, RestoreError.backup]

end GatedRepair.Edit

/-!
## What no operation does

Whatever the path, the operations that make, write, copy and remove files make no link, and leave all directories where
they are (`Steady`). So do keeping the state directory out of version control and the steps of an edit, which follow links
out of the repository if there are any.
-/

namespace GatedRepair.Files

/-- No link comes to be, and no directory is lost. -/
structure Steady (before after : Tree) : Prop where
  directories : ∀ x, before.get? x = some .directory → after.get? x = some .directory
  links : ∀ x target, after.get? x = some (.link target) → before.get? x = some (.link target)

theorem Steady.refl (tree : Tree) : Steady tree tree := ⟨fun _ there => there, fun _ _ there => there⟩

theorem Steady.of_eq {before after : Tree} (same : after = before) : Steady before after := same ▸ .refl before

theorem Steady.trans {before between after : Tree} (first : Steady before between) (second : Steady between after) :
    Steady before after :=
  ⟨fun x there => second.directories x (first.directories x there),
    fun x target there => first.links x target (second.links x target there)⟩

section
variable {tree : Tree} {location : Location}

theorem ne_nil_of_no_directory (free : tree.get? location ≠ some .directory) : location ≠ [] := by
  rintro rfl
  exact free rfl

theorem steady_put (free : tree.get? location ≠ some .directory) {entry : Entry}
    (direct : ∀ target, entry ≠ .link target) : Steady tree (tree.put location entry) := by
  have put := Tree.get?_put (ne_nil_of_no_directory free) tree entry
  refine ⟨fun x there => ?_, fun x target there => ?_⟩
  · have other : x ≠ location := by
      rintro rfl
      exact free there
    rw [put, if_neg other]
    exact there
  · rw [put] at there
    split at there
    · exact absurd (Option.some.inj there) (direct target)
    · exact there

theorem steady_remove (free : tree.get? location ≠ some .directory) : Steady tree (tree.remove location) := by
  have remove := Tree.get?_remove (ne_nil_of_no_directory free) tree
  refine ⟨fun x there => ?_, fun x target there => ?_⟩
  · have other : x ≠ location := by
      rintro rfl
      exact free there
    rw [remove, if_neg other]
    exact there
  · rw [remove] at there
    split at there
    · cases there
    · exact there

end

namespace Disk

section
variable {disk : Disk} {path : String}

theorem writable_free {tree : Tree} {location : Location} {old : Option (ByteArray × Mode)}
    (able : writable tree path = .ok (location, old)) : tree.get? location ≠ some .directory := by
  obtain ⟨-, -, stood⟩ := writable_ok able
  intro there
  rw [there] at stood
  cases old <;> cases stood

theorem Wrote.steady {before after : Tree} (wrote : Wrote path before after) : Steady before after := by
  rcases wrote with same | ⟨location, old, content, mode, able, rfl⟩
  · exact .of_eq same
  · exact steady_put (writable_free able) (by simp)

theorem writing_steady (make : ByteArray → ByteArray) (mode? : Option Mode) :
    Steady disk.tree (disk.writing path make mode?).2.tree := (writing_wrote make mode?).steady

theorem copy_steady {source : String} : Steady disk.tree (disk.copy source path).2.tree := copy_wrote.steady

theorem removeFile_steady : Steady disk.tree (disk.removeFile path).2.tree := by
  rcases removeFile_cases disk path with ⟨same, -⟩ | ⟨location, entry, located, other, removed⟩
  · exact .of_eq same
  · rw [removed]
    refine steady_remove ?_
    rw [(locate_sound located).2]
    exact fun directory => other (Option.some.inj directory)

theorem makeDirectory_steady : Steady disk.tree (disk.makeDirectory path).2.tree := by
  rcases makeDirectory_cases disk path with same | ⟨directory, name, slash, located, made⟩
  · exact .of_eq same
  · rw [made]
    exact steady_put (by simp [(locate_sound located).2]) (by simp)

/-- What each directory that is made keeps, a row of them keeps. -/
theorem makeChain_keeps {keeps : Tree → Tree → Prop} (refl : ∀ tree, keeps tree tree)
    (trans : ∀ {before between after : Tree}, keeps before between → keeps between after → keeps before after)
    (each : ∀ (disk : Disk) (path : String), keeps disk.tree (disk.makeDirectory path).2.tree) {paths : List String} :
    keeps disk.tree (disk.makeChain paths).2.tree := by
  induction paths generalizing disk with
  | nil => exact refl _
  | cons path outer ih =>
    have first := each disk path
    unfold makeChain
    split
    · next disk' same =>
      rw [same] at first
      exact first
    · next disk' same =>
      rw [same] at first
      have rest := @ih disk'
      split
      · next e disk'' same =>
        rw [same] at rest
        exact trans first rest
      · next disk'' same =>
        rw [same] at rest
        have again := trans (trans first rest) (each disk'' path)
        split
        · next disk₃ same =>
          rw [same] at again
          exact again
        · next e disk₃ same =>
          rw [same] at again
          exact again
    · next e disk' _ same =>
      rw [same] at first
      exact first

theorem makeChain_steady {paths : List String} : Steady disk.tree (disk.makeChain paths).2.tree :=
  makeChain_keeps Steady.refl Steady.trans fun _ _ => makeDirectory_steady

theorem makeDirectories_changed : Changed Nowhere (fun _ => True) disk.tree (disk.makeDirectories path).2.tree := by
  refine makeChain_keeps Changed.refl Changed.trans fun disk path => ?_
  rcases makeDirectory_cases disk path with same | ⟨directory, name, slash, located, made⟩
  · exact .of_eq same
  · rw [made]
    exact (changed_put_directory (locate_sound located).2).mono (fun _ it => it) fun _ _ _ => .inr trivial

/-- No directory is made at an empty path. -/
theorem makeDirectories_empty (disk : Disk) : (disk.makeDirectories "").1 ≠ .ok () := by
  have lost : ∀ disk : Disk, (disk.makeDirectory "").1 ≠ .ok () := by
    intro disk
    unfold makeDirectory
    rcases changing_cases disk fun tree => makeDirectoryIn tree "" with ⟨-, failed⟩ | ⟨tree, made, -, -⟩
    · exact failed
    · cases made
  have nowhere : ∀ tree : Tree, tree.isDirectory "" = false := fun _ => rfl
  have first := lost disk
  have chain : chainOf "".toList (pathParts "".toList).length = [""] := by decide
  unfold makeDirectories
  rw [chain]
  unfold makeChain
  split
  · next disk' same =>
    rw [same] at first
    exact absurd rfl first
  · simp [makeChain]
  · simp [nowhere]

theorem makeDirectories_steady : Steady disk.tree (disk.makeDirectories path).2.tree := makeChain_steady

theorem reading_steady {α : Type} (look : Tree → Except Failure α) : Steady disk.tree (disk.reading look).2.tree :=
  .of_eq (reading_tree disk look)

end

end Disk

end GatedRepair.Files

namespace GatedRepair.State

open Files

variable {disk : Disk}

theorem addToIgnoreFile_steady {path : String} : Steady disk.tree (addToIgnoreFile disk path).tree := by
  have read := @Disk.reading_steady disk _ (·.readText path)
  unfold addToIgnoreFile
  simp only
  split
  · exact read
  · exact read.trans (Disk.writing_steady _ _)

theorem ensureIgnored_steady {root : String} : Steady disk.tree (ensureIgnored disk root).tree := by
  unfold ensureIgnored
  simp only
  split
  · exact addToIgnoreFile_steady
  · split
    · have made := @Disk.makeDirectories_steady disk (Path.within (Path.within root ".git") "info")
      split
      · next disk' same =>
        rw [same] at made
        exact made.trans addToIgnoreFile_steady
      · next e disk' same =>
        rw [same] at made
        exact made
    · exact .refl _

theorem ensure_steady {root : String} : Steady disk.tree (ensure disk root).2.tree := by
  unfold ensure
  split
  · exact @ensureIgnored_steady disk root
  · have made := @Disk.makeDirectories_steady disk (directory root)
    split
    · next disk' same =>
      rw [same] at made
      exact made.trans (@ensureIgnored_steady disk' root)
    · next e disk' same =>
      rw [same] at made
      exact made

end GatedRepair.State

namespace GatedRepair.Edit

open Files

variable {disk : Disk}

theorem backUp_steady {backups : String} {now : Timestamp} {file : RepositoryFile} :
    Steady disk.tree (backUp backups now file disk).2.tree := by
  have made := @Disk.makeDirectories_steady disk backups
  unfold backUp
  split
  · next e disk' same =>
    rw [same] at made
    exact made
  · next disk' same =>
    rw [same] at made
    have copied := made.trans (@Disk.copy_steady disk' (Path.within backups (backupName file.relative now)) file.absolute)
    simp only
    split
    · next e disk'' same =>
      rw [same] at copied
      exact copied
    · next disk'' same =>
      rw [same] at copied
      exact copied

theorem discard_steady {backup : String} : Steady disk.tree (discard backup disk).tree := Disk.removeFile_steady

theorem restore_steady {target backup : String} : Steady disk.tree (restore target backup disk).2.tree := by
  have put := @Disk.copy_steady disk target backup
  rw [← (reinstate_steps target backup disk).1] at put
  rw [restore_eq]
  split
  · next disk' same =>
    rw [same] at put
    exact put.trans discard_steady
  · next e disk' same =>
    rw [same] at put
    exact put

theorem prepare_steady {file : RepositoryFile} {r : Replacement} : Steady disk.tree (prepare file r disk).2.tree := by
  have read := @Disk.reading_steady disk _ (·.read file.absolute)
  unfold prepare
  split
  · next e disk' same =>
    rw [show disk.reading (·.read file.absolute) = _ from same] at read
    exact read
  · next content disk' same =>
    rw [show disk.reading (·.read file.absolute) = _ from same] at read
    exact read

end GatedRepair.Edit
