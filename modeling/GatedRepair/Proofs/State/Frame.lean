import GatedRepair.Edit
import GatedRepair.Proofs.Files.Change
import GatedRepair.Proofs.Files.Walk
import GatedRepair.Repair
import GatedRepair.State

/-!
# What the program changes by itself

The program has places of its own in a repository, the state directory and the ignore files. If there are no links on the
way to them, saving the work leaves all other files as they are (`save_calm`).
-/

/-!
## Where state is kept

The paths that are worked out of a repository's path are the paths of locations below it: those of the state files, of
what is written beside them or set aside, of the backups and of the ignore files.
-/

namespace GatedRepair.Files

theorem pathOf_front (location : Location) :
    ∃ front : List Char, ∀ name : String, (Tree.pathOf (location ++ [name])).toList = front ++ name.toList := by
  by_cases top : location = []
  · subst top
    exact ⟨['/'], fun name => by simp [toList_pathOf]⟩
  · exact ⟨(Tree.pathOf location).toList ++ ['/'], fun name => by simp [pathOf_append top]⟩

/-- The file beside a file with an extension has the same stem. -/
theorem temporary_pathOf {location : Location} (good : IsNamed location) {stem old : List Char}
    (dotted : IsName (String.ofList (stem ++ '.' :: old))) (bare : IsName (String.ofList (stem ++ ['.'])))
    (cut : Path.stemAndExtension (stem ++ '.' :: old) = (stem, some old))
    (cutBare : Path.stemAndExtension (stem ++ ['.']) = (stem, some [])) :
    Disk.temporary (Tree.pathOf (location ++ [String.ofList (stem ++ '.' :: old)])) =
      Tree.pathOf (location ++ [String.ofList (stem ++ ".tmp".toList)]) := by
  obtain ⟨front, spelt⟩ := pathOf_front location
  have oldLength : (front ++ (stem ++ '.' :: old)).length - old.length = (front ++ (stem ++ ['.'])).length := by
    simp only [List.length_append, List.length_cons, List.length_nil]
    omega
  have cutOff : (front ++ (stem ++ '.' :: old)).take (front ++ (stem ++ ['.'])).length = front ++ (stem ++ ['.']) := by
    have whole : front ++ (stem ++ '.' :: old) = front ++ (stem ++ ['.']) ++ old := by simp
    rw [whole, List.take_left]
  have stub : front ++ (stem ++ ['.']) = (Tree.pathOf (location ++ [String.ofList (stem ++ ['.'])])).toList := by
    rw [spelt, String.toList_ofList]
  rw [← String.toList_inj, Disk.temporary, String.toList_ofList, Path.withExtension, fileName?_pathOf good dotted,
    Option.bind_some, String.toList_ofList, cut, Option.getD_some, spelt, String.toList_ofList, oldLength, cutOff, stub,
    Path.extended, fileName?_pathOf good bare]
  simp only
  rw [String.toList_ofList, cutBare, spoken_pathOf (good.append bare) (by simp), toList_pathOf, Path.ofParts]
  simp only [List.map_append, List.map_singleton, ← List.cons_append, List.dropLast_concat]
  cases location <;> simp [List.intercalate_cons_cons]

end GatedRepair.Files

namespace GatedRepair.State

open Files

/-- The location of the state directory of a repository. -/
def place (root : Location) : Location := root ++ [".remedy"]

theorem directory_pathOf {root : Location} (good : IsNamed root) :
    directory (Tree.pathOf root) = Tree.pathOf (place root) := within_pathOf good (by decide)

theorem named_place {root : Location} (good : IsNamed root) : IsNamed (place root) := good.append (by decide)

theorem defectsPath_pathOf {root : Location} (good : IsNamed root) :
    defectsPath (Tree.pathOf root) = Tree.pathOf (place root ++ ["defects.json"]) := by
  rw [defectsPath, directory_pathOf good]
  exact within_pathOf (named_place good) (by decide)

theorem historyPath_pathOf {root : Location} (good : IsNamed root) :
    historyPath (Tree.pathOf root) = Tree.pathOf (place root ++ ["fix_history.json"]) := by
  rw [historyPath, directory_pathOf good]
  exact within_pathOf (named_place good) (by decide)

theorem backupsPath_pathOf {root : Location} (good : IsNamed root) :
    backupsPath (Tree.pathOf root) = Tree.pathOf (place root ++ ["backups"]) := by
  rw [backupsPath, directory_pathOf good]
  exact within_pathOf (named_place good) (by decide)

theorem temporary_defects {root : Location} (good : IsNamed root) :
    Disk.temporary (defectsPath (Tree.pathOf root)) = Tree.pathOf (place root ++ ["defects.tmp"]) := by
  rw [defectsPath_pathOf good]
  exact @temporary_pathOf _ (named_place good) "defects".toList "json".toList (by decide) (by decide) (by decide) (by decide)

theorem temporary_history {root : Location} (good : IsNamed root) :
    Disk.temporary (historyPath (Tree.pathOf root)) = Tree.pathOf (place root ++ ["fix_history.tmp"]) := by
  rw [historyPath_pathOf good]
  exact @temporary_pathOf _ (named_place good) "fix_history".toList "json".toList (by decide) (by decide) (by decide)
    (by decide)

/-! ### Names of backups -/

theorem slash_not_mem_padded (width n : Nat) : '/' ∉ Number.padded 10 width n := by
  intro member
  rcases List.mem_append.mp member with zero | digit
  · exact absurd (List.eq_of_mem_replicate zero) (by decide)
  · exact absurd (Nat.isDigit_of_mem_toDigits (by decide) (by decide) digit) (by decide)

theorem slash_not_mem_stamp (now : Timestamp) : '/' ∉ now.stamp.toList := by
  have year : '/' ∉ Timestamp.yearChars now.year := by
    unfold Timestamp.yearChars
    split
    · exact slash_not_mem_padded _ _
    · split <;> simp [slash_not_mem_padded]
  simp [Timestamp.stamp, slash_not_mem_padded, year]

theorem slash_not_mem_fineStamp (now : Timestamp) : '/' ∉ now.fineStamp.toList := by
  simp [Timestamp.fineStamp, slash_not_mem_stamp, slash_not_mem_padded]

/-- The name of a backup can stand in a location. -/
theorem isName_backupName (file : String) (now : Timestamp) : IsName (Edit.backupName file now) := by
  have chars : (Edit.backupName file now).toList =
      Text.slug file.toList Edit.backupNameLimit ++ '-' :: (now.fineStamp.toList ++ ['.', 'b', 'a', 'k']) := by
    simp [Edit.backupName]
  have long : 5 ≤ (Edit.backupName file now).toList.length := by
    rw [chars]
    simp only [List.length_append, List.length_cons, List.length_nil]
    omega
  refine ⟨?_, ?_, ?_⟩
  · have some : (Edit.backupName file now).toList ≠ [] := by
      rintro empty
      rw [empty] at long
      simp at long
    have noDot : (Edit.backupName file now).toList ≠ ['.'] := by
      rintro dot
      rw [dot] at long
      simp at long
    simp [Path.isSilent, some, noDot]
  · intro dots
    rw [dots] at long
    simp at long
  · rw [chars]
    have slug : '/' ∉ Text.slug file.toList Edit.backupNameLimit := by
      intro member
      rcases Text.isSlugChar_of_mem_slug member with letter | low
      · exact absurd letter (by decide)
      · exact absurd low (by decide)
    simp [slug, slash_not_mem_fineStamp]

/-! ### Names of files that are set aside -/

/-- The name under which a file is set aside. -/
def aside (name : String) (now : Timestamp) : String := name ++ ".corrupt-" ++ now.stamp

theorem toList_aside (name : String) (now : Timestamp) :
    (aside name now).toList = name.toList ++ (".corrupt-".toList ++ now.stamp.toList) := by
  simp [aside]

/-- The name of a file that is set aside can stand in a location. -/
theorem isName_aside {name : String} (good : IsName name) (now : Timestamp) : IsName (aside name now) := by
  have long : 9 ≤ (aside name now).toList.length := by
    have mark : ".corrupt-".toList.length = 9 := by decide
    rw [toList_aside, List.length_append, List.length_append, mark]
    omega
  refine ⟨?_, ?_, ?_⟩
  · have some : (aside name now).toList ≠ [] := by
      intro empty
      rw [empty] at long
      simp at long
    have noDot : (aside name now).toList ≠ ['.'] := by
      intro dot
      rw [dot] at long
      simp at long
    simp [Path.isSilent, some, noDot]
  · intro dots
    rw [dots] at long
    simp at long
  · rw [toList_aside]
    simp [good.2.2, slash_not_mem_stamp]

theorem asidePath?_pathOf {location : Location} (good : IsNamed location) {name : String} (also : IsName name)
    (now : Timestamp) : asidePath? (Tree.pathOf (location ++ [name])) now = some (Tree.pathOf (location ++ [aside name now])) := by
  have directory := directory?_pathOf (good.append also)
  rw [if_neg (by simp), List.dropLast_concat] at directory
  have within := within_pathOf good (isName_aside also now)
  rw [Path.within, toList_aside] at within
  rw [asidePath?, fileName?_pathOf good also, Option.map_some, Path.withName, fileName?_pathOf good also, directory,
    List.append_assoc, within]

end GatedRepair.State

/-!
## What saving changes

The program has places of its own in a repository: the state directory and the ignore files. If there are no links on the
way to them, saving the work leaves all other files as they are (`save_calm`).
-/

namespace GatedRepair.State

open Files

/-- A place that the program has for itself: in the state directory, or an ignore file. -/
def Own (root x : Location) : Prop :=
  place root <+: x ∨ x = root ++ [".gitignore"] ∨ x = root ++ [".git"] ++ ["info"] ++ ["exclude"]

/-- The directory that is made for the ignore file of a repository without one. -/
def info (root : Location) : Location := root ++ [".git"] ++ ["info"]

/-- Nothing changes but at the program's own places, where no link comes to be. -/
abbrev Calm (root : Location) (before after : Tree) : Prop := Changed (Own root) (At (info root)) before after

/-- The places at which a link leads the state astray: the state directory, the state files in it, and the files beside them
that hold new content. -/
def Guarded (root x : Location) : Prop :=
  x = place root ∨ ∃ name ∈ ["defects.json", "defects.tmp", "fix_history.json", "fix_history.tmp"], x = place root ++ [name]

/-- A repository at a location, with no links at the places of its state. -/
structure Seat (root : Location) (tree : Tree) : Prop where
  named : IsNamed root
  above : ∀ upper, upper <+: root → tree.get? upper = some .directory
  inner : ∀ x, Guarded root x → ∀ target, tree.get? x ≠ some (.link target)

/-- A repository at a location, with no links on the way to the program's own places. -/
structure Home (root : Location) (tree : Tree) : Prop where
  named : IsNamed root
  above : ∀ upper, upper <+: root → tree.get? upper = some .directory
  direct : ∀ x, Own root x ∨ x = root ++ [".git"] ∨ x = info root → ∀ target, tree.get? x ≠ some (.link target)

theorem not_prefix_append (root : Location) (name : String) (more : Location) : ¬ root ++ name :: more <+: root := by
  intro short
  have length := short.length_le
  simp only [List.length_append, List.length_cons] at length
  omega

theorem Guarded.inside {root x : Location} (guarded : Guarded root x) : place root <+: x := by
  rcases guarded with rfl | ⟨name, -, rfl⟩
  · exact List.prefix_rfl
  · exact List.prefix_append _ _

theorem Own.not_prefix {root x : Location} (own : Own root x) : ¬ x <+: root := by
  intro short
  rcases own with inside | rfl | rfl
  · exact not_prefix_append root ".remedy" [] (inside.trans short)
  · exact not_prefix_append root _ [] short
  · rw [List.append_assoc, List.append_assoc] at short
    exact not_prefix_append root _ _ short

section
variable {root : Location} {tree after : Tree}

theorem Home.seat (home : Home root tree) : Seat root tree :=
  ⟨home.named, home.above, fun x guarded => home.direct x (.inl (.inl guarded.inside))⟩

theorem Seat.changed {written made : Location → Prop} (seat : Seat root tree) (change : Changed written made tree after)
    (off : ∀ x, written x → ¬ x <+: root) : Seat root after := by
  exact ⟨seat.named, fun upper short => change.stays (fun may => off upper may short) (seat.above upper short),
    fun x guarded target link => seat.inner x guarded target (change.link link)⟩

theorem Home.changed {written made : Location → Prop} (home : Home root tree) (change : Changed written made tree after)
    (off : ∀ x, written x → ¬ x <+: root) : Home root after :=
  ⟨home.named, (home.seat.changed change off).above, fun x it target link => home.direct x it target (change.link link)⟩

theorem Home.calm (home : Home root tree) (calm : Calm root tree after) : Home root after :=
  home.changed calm fun _ own => own.not_prefix

theorem above_of_find? {path : String} (there : tree.find? path = .ok (root, .directory)) :
    IsNamed root ∧ ∀ upper, upper <+: root → tree.get? upper = some .directory := by
  obtain ⟨settled, stands⟩ := find?_settled there
  refine ⟨settled.named, fun upper short => ?_⟩
  by_cases whole : upper = root
  · rw [whole]
    exact stands
  · exact settled.above upper short whole

theorem seat_of_find? {path : String} (there : tree.find? path = .ok (root, .directory))
    (inner : ∀ x, Guarded root x → ∀ target, tree.get? x ≠ some (.link target)) : Seat root tree :=
  ⟨(above_of_find? there).1, (above_of_find? there).2, inner⟩

theorem home_of_find? {path : String} (there : tree.find? path = .ok (root, .directory))
    (direct : ∀ x, Own root x ∨ x = root ++ [".git"] ∨ x = info root → ∀ target, tree.get? x ≠ some (.link target)) :
    Home root tree :=
  ⟨(above_of_find? there).1, (above_of_find? there).2, direct⟩

theorem Home.plain (home : Home root tree) {x : Location} (named : IsNamed x)
    (each : ∀ upper, upper <+: x → upper <+: root ∨ Own root upper ∨ upper = root ++ [".git"] ∨ upper = info root) :
    Plain tree x := by
  refine ⟨named, ?_⟩
  intro upper short target
  rcases each upper short with above | own | git | last
  · rw [home.above upper above]
    simp
  · exact home.direct upper (.inl own) target
  · exact home.direct upper (.inr (.inl git)) target
  · exact home.direct upper (.inr (.inr last)) target

theorem Home.plain_inside (home : Home root tree) {x : Location} (named : IsNamed x) (inside : place root <+: x) :
    Plain tree x := by
  refine home.plain named fun upper short => ?_
  rcases List.prefix_or_prefix_of_prefix short inside with above | below
  · rcases List.prefix_concat_iff.mp above with whole | higher
    · exact .inr (.inl (.inl (whole ▸ List.prefix_rfl)))
    · exact .inl higher
  · exact .inr (.inl (.inl below))

theorem Seat.straight_place (seat : Seat root tree) : Straight tree (place root) := by
  intro upper short
  rcases List.prefix_concat_iff.mp short with whole | higher
  · exact seat.inner upper (.inl whole)
  · simp [seat.above upper higher]

theorem Seat.aimed (seat : Seat root tree) {name : String} (good : IsName name) : Aimed tree (place root ++ [name]) := by
  refine ⟨(named_place seat.named).append good, fun upper short below => ?_⟩
  rcases List.prefix_concat_iff.mp short with whole | higher
  · exact absurd whole below
  · exact seat.straight_place upper higher

theorem Seat.plain (seat : Seat root tree) {name : String} (good : IsName name) (guarded : Guarded root (place root ++ [name])) :
    Plain tree (place root ++ [name]) := by
  refine ⟨(named_place seat.named).append good, fun upper short => ?_⟩
  by_cases whole : upper = place root ++ [name]
  · exact seat.inner upper (whole ▸ guarded)
  · exact (seat.aimed good).above upper short whole

theorem Home.plain_ignoreFile (home : Home root tree) : Plain tree (root ++ [".gitignore"]) := by
  refine home.plain (home.named.append (by decide)) fun upper short => ?_
  rcases List.prefix_concat_iff.mp short with whole | higher
  · exact .inr (.inl (.inr (.inl whole)))
  · exact .inl higher

theorem Home.plain_git (home : Home root tree) : Plain tree (root ++ [".git"]) := by
  refine home.plain (home.named.append (by decide)) fun upper short => ?_
  rcases List.prefix_concat_iff.mp short with whole | higher
  · exact .inr (.inr (.inl whole))
  · exact .inl higher

theorem prefix_info {upper : Location} (short : upper <+: info root) :
    upper <+: root ∨ upper = root ++ [".git"] ∨ upper = info root := by
  rcases List.prefix_concat_iff.mp short with whole | higher
  · exact .inr (.inr whole)
  · rcases List.prefix_concat_iff.mp higher with whole | higher
    · exact .inr (.inl whole)
    · exact .inl higher

theorem named_info (named : IsNamed root) : IsNamed (info root) := (named.append (by decide)).append (by decide)

theorem Home.plain_info (home : Home root tree) : Plain tree (info root) := by
  refine home.plain (named_info home.named) fun upper short => ?_
  rcases prefix_info short with above | git | last
  · exact .inl above
  · exact .inr (.inr (.inl git))
  · exact .inr (.inr (.inr last))

theorem Home.plain_exclude (home : Home root tree) : Plain tree (info root ++ ["exclude"]) := by
  refine home.plain ((named_info home.named).append (by decide)) fun upper short => ?_
  rcases List.prefix_concat_iff.mp short with whole | higher
  · exact .inr (.inl (.inr (.inr whole)))
  · rcases prefix_info higher with above | git | last
    · exact .inl above
    · exact .inr (.inr (.inl git))
    · exact .inr (.inr (.inr last))

/-! ### Single operations -/

theorem calm_of_inside {written : Location → Prop} (change : Changed written Nowhere tree after)
    (own : ∀ x, written x → Own root x) : Calm root tree after :=
  change.mono own fun _ it => it.elim

theorem Seat.calm_made (seat : Seat root tree) {x : Location} (inside : place root <+: x)
    (change : Changed Nowhere (· <+: x) tree after) : Calm root tree after := by
  refine change.mono (fun x it => it.elim) fun upper short nothing => .inl (.inl ?_)
  rcases List.prefix_or_prefix_of_prefix short inside with above | below
  · rcases List.prefix_concat_iff.mp above with whole | higher
    · exact whole ▸ List.prefix_rfl
    · rw [seat.above upper higher] at nothing
      cases nothing
  · exact below

end

section
variable {root : Location} {disk : Disk}

theorem addToIgnoreFile_changed {location : Location} (plain : Plain disk.tree location) :
    Changed (At location) Nowhere disk.tree (addToIgnoreFile disk (Tree.pathOf location)).tree := by
  have kept : (disk.readText (Tree.pathOf location)).2.tree = disk.tree := Disk.reading_tree _ _
  have plain' : Plain (disk.readText (Tree.pathOf location)).2.tree location := kept ▸ plain
  unfold addToIgnoreFile
  simp only
  split
  · exact .of_eq kept
  · rw [← kept]
    exact Disk.append_spec plain' _

theorem ensureIgnored_calm (home : Home root disk.tree) :
    Calm root disk.tree (ensureIgnored disk (Tree.pathOf root)).tree := by
  have ignoreFile : Path.within (Tree.pathOf root) ".gitignore" = Tree.pathOf (root ++ [".gitignore"]) :=
    within_pathOf home.named (by decide)
  have git : Path.within (Tree.pathOf root) ".git" = Tree.pathOf (root ++ [".git"]) := within_pathOf home.named (by decide)
  have inner : Path.within (Tree.pathOf (root ++ [".git"])) "info" = Tree.pathOf (info root) :=
    within_pathOf (home.named.append (by decide)) (by decide)
  have exclude : Path.within (Tree.pathOf (info root)) "exclude" = Tree.pathOf (info root ++ ["exclude"]) :=
    within_pathOf (named_info home.named) (by decide)
  unfold ensureIgnored
  simp only [ignoreFile, git, inner, exclude]
  split
  · exact calm_of_inside (addToIgnoreFile_changed home.plain_ignoreFile) fun x it => .inr (.inl it)
  · split
    · next there =>
      have directory : disk.tree.get? (root ++ [".git"]) = some .directory := by
        unfold Tree.isDirectory at there
        split at there
        · next found => exact (home.plain_git.reaches.find? found).2
        · cases there
      have made : Calm root disk.tree (disk.makeDirectories (Tree.pathOf (info root))).2.tree := by
        refine (Disk.makeDirectories_spec home.plain_info).mono (fun x it => it.elim) fun upper short nothing => .inr ?_
        rcases prefix_info short with above | rfl | last
        · rw [home.above upper above] at nothing
          cases nothing
        · rw [directory] at nothing
          cases nothing
        · exact last
      split
      · next disk' same =>
        rw [same] at made
        exact made.trans (calm_of_inside (addToIgnoreFile_changed (home.calm made).plain_exclude) fun x it => .inr (.inr it))
      · next e disk' same =>
        rw [same] at made
        exact made
    · exact .refl _

theorem ensure_calm (home : Home root disk.tree) : Calm root disk.tree (ensure disk (Tree.pathOf root)).2.tree := by
  unfold ensure
  rw [directory_pathOf home.named]
  split
  · exact ensureIgnored_calm home
  · have made := home.seat.calm_made List.prefix_rfl
      (Disk.makeDirectories_spec (home.plain_inside (named_place home.named) List.prefix_rfl))
    split
    · next disk' same =>
      rw [same] at made
      exact made.trans (ensureIgnored_calm (home.calm made))
    · next e disk' same =>
      rw [same] at made
      exact made

/-- Saving a document changes its file and the one beside it. When it ends well the file holds the document. -/
theorem save_spec (seat : Seat root disk.tree) {name beside : String} (good : IsName name) (good' : IsName beside)
    (guarded : Guarded root (place root ++ [name])) (guarded' : Guarded root (place root ++ [beside]))
    (temporary : Disk.temporary (Tree.pathOf (place root ++ [name])) = Tree.pathOf (place root ++ [beside]))
    (document : Json) :
    Changed (fun x => x = place root ++ [beside] ∨ x = place root ++ [name]) (· <+: place root) disk.tree
        (save document disk (Tree.pathOf (place root ++ [name]))).2.tree ∧
      ((save document disk (Tree.pathOf (place root ++ [name]))).1 = .ok () →
        ∃ mode,
          (save document disk (Tree.pathOf (place root ++ [name]))).2.tree.find? (Tree.pathOf (place root ++ [name])) =
            .ok (place root ++ [name], .file document.pretty.toUTF8 mode)) := by
  have spec := Disk.writeAtomic_spec (seat.plain good guarded) (seat.plain good' guarded') temporary document.pretty
  rw [List.dropLast_concat] at spec
  unfold save
  split
  · next disk' same =>
    rw [same] at spec
    exact ⟨spec.1, fun _ => spec.2 rfl⟩
  · next e disk' same =>
    rw [same] at spec
    exact ⟨spec.1, by simp⟩

theorem Seat.calm_saved {tree after : Tree} (seat : Seat root tree) {name beside : String}
    (change : Changed (fun x => x = place root ++ [beside] ∨ x = place root ++ [name]) (· <+: place root) tree after) :
    Calm root tree after := by
  refine change.mono ?_ fun upper short nothing => .inl (.inl ?_)
  · rintro x (rfl | rfl) <;> exact .inl (List.prefix_append _ _)
  · rcases List.prefix_concat_iff.mp short with whole | higher
    · exact whole ▸ List.prefix_rfl
    · rw [seat.above upper higher] at nothing
      cases nothing

theorem saveLedger_spec (seat : Seat root disk.tree) (ledger : Ledger) (now : Timestamp) :
    Changed (fun x => x = place root ++ ["defects.tmp"] ∨ x = place root ++ ["defects.json"]) (· <+: place root) disk.tree
        (ledger.save disk (defectsPath (Tree.pathOf root)) now).2.tree ∧
      ((ledger.save disk (defectsPath (Tree.pathOf root)) now).1 = .ok () →
        ∃ mode,
          (ledger.save disk (defectsPath (Tree.pathOf root)) now).2.tree.find? (defectsPath (Tree.pathOf root)) =
            .ok (place root ++ ["defects.json"], .file (ledger.document now).pretty.toUTF8 mode)) := by
  have temporary := temporary_defects seat.named
  rw [defectsPath_pathOf seat.named] at temporary ⊢
  have good : IsName "defects.json" := by decide
  have good' : IsName "defects.tmp" := by decide
  unfold Ledger.save
  exact save_spec seat good good' (.inr ⟨_, by simp, rfl⟩) (.inr ⟨_, by simp, rfl⟩) temporary (ledger.document now)

theorem saveHistory_spec (seat : Seat root disk.tree) (history : History) (now : Timestamp) :
    Changed (fun x => x = place root ++ ["fix_history.tmp"] ∨ x = place root ++ ["fix_history.json"]) (· <+: place root)
        disk.tree (history.save disk (historyPath (Tree.pathOf root)) now).2.tree ∧
      ((history.save disk (historyPath (Tree.pathOf root)) now).1 = .ok () →
        ∃ mode,
          (history.save disk (historyPath (Tree.pathOf root)) now).2.tree.find? (historyPath (Tree.pathOf root)) =
            .ok (place root ++ ["fix_history.json"], .file (history.document now).pretty.toUTF8 mode)) := by
  have temporary := temporary_history seat.named
  rw [historyPath_pathOf seat.named] at temporary ⊢
  have good : IsName "fix_history.json" := by decide
  have good' : IsName "fix_history.tmp" := by decide
  unfold History.save
  exact save_spec seat good good' (.inr ⟨_, by simp, rfl⟩) (.inr ⟨_, by simp, rfl⟩) temporary (history.document now)

/-- Saving the work changes nothing but the program's own places. -/
theorem save_calm {r : Repair} (here : r.root = Tree.pathOf root) (home : Home root disk.tree) (now : Timestamp) :
    Calm root disk.tree (r.save disk now).2.tree := by
  have ready := ensure_calm home
  unfold Repair.save
  rw [here]
  split
  · next e disk₁ same =>
    rw [same] at ready
    exact ready
  · next disk₁ same =>
    rw [same] at ready
    have home₁ : Home root disk₁.tree := home.calm ready
    have ledger := saveLedger_spec home₁.seat r.ledger now
    split
    · next e disk₂ same =>
      rw [same] at ledger
      exact ready.trans (home₁.seat.calm_saved ledger.1)
    · next disk₂ same =>
      rw [same] at ledger
      have so_far : Calm root disk₁.tree disk₂.tree := home₁.seat.calm_saved ledger.1
      have home₂ := home₁.calm so_far
      have history := saveHistory_spec home₂.seat r.history now
      split
      · next e disk₃ same =>
        rw [same] at history
        exact (ready.trans so_far).trans (home₂.seat.calm_saved history.1)
      · next disk₃ same =>
        rw [same] at history
        exact (ready.trans so_far).trans (home₂.seat.calm_saved history.1)

end

end GatedRepair.State
