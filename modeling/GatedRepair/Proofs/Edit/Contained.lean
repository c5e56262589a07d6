import GatedRepair.Proofs.Edit.Transaction
import GatedRepair.Proofs.Files.Contained
import GatedRepair.Proofs.Files.Within

/-!
# Edits stay in the repository

Whatever links there are, an edit writes its file, which lies in the repository, and its backup, and makes the directories
that the backup stands in (`apply_stays_inside`). The backup is a name in the directory of backups. But where a link has
that name already, what is written is the file that the link leads to (`link_leads_backup_out`).
-/

namespace GatedRepair.Files

/-! ## What may be written along a path -/

theorem spotAt_inj {tree : Tree} {x y : Location} (same : spotAt tree x = spotAt tree y) : x = y := by
  cases there : tree.get? x with
  | some entry =>
    rw [spotAt_of_get? there] at same
    exact (found_of_spotAt same).1
  | none =>
    have some : x ≠ [] := by
      rintro rfl
      cases there
    obtain ⟨here, name, rfl⟩ := (List.eq_nil_or_concat' x).resolve_left some
    rw [spotAt_append there] at same
    exact (place_of_spotAt same).2

theorem Firm.refl (tree : Tree) : Firm tree tree := ⟨fun _ there => there, fun _ _ there => there⟩

theorem Firm.trans {before between after : Tree} (first : Firm before between) (second : Firm between after) :
    Firm before after :=
  ⟨fun x there => second.directories x (first.directories x there),
    fun x target there => second.links x target (first.links x target there)⟩

theorem Disk.Wrote.firm {path : String} {before after : Tree} (wrote : Wrote path before after) : Firm before after := by
  rcases wrote with same | ⟨location, old, content, mode, able, rfl⟩
  · exact same ▸ .refl before
  · exact firm_put able content mode

end GatedRepair.Files

namespace GatedRepair.Edit

open Files Disk

/-- The places that the path of a backup stands for when the directory of backups has been made: a name in the directory,
and, if a link already had that name, where the link leads. -/
inductive Spare (before made : Tree) (backups name : String) : Location → Prop
  | own {house : Location} (found : made.find? backups = .ok (house, .directory)) :
    Spare before made backups name (house ++ [name])
  | linked {house x : Location} {target : String} (found : made.find? backups = .ok (house, .directory))
    (link : before.get? (house ++ [name]) = some (.link target))
    (leads : made.locate true (Path.within backups name) = .ok (spotAt made x)) : Spare before made backups name x

/-- A tree that an edit has come to: nothing but the file and the backup has been written since directories were made. -/
structure Midway (before made : Tree) (backups name : String) (place : Location) (tree : Tree) : Prop where
  changed : Changed (fun x => x = place ∨ Spare before made backups name x) (fun _ => True) before tree
  firm : Firm made tree

section
variable {before made tree after : Tree} {backups name path : String} {place house : Location}

/-- What is written along the path of a backup is the backup. -/
theorem spare_of_writable (some : backups ≠ "") (good : IsName name) (directories : Changed Nowhere (fun _ => True) before made)
    {x : Location} {old : Option (ByteArray × Mode)} (able : writable made (Path.within backups name) = .ok (x, old)) :
    Spare before made backups name x := by
  obtain ⟨located, -, -⟩ := writable_ok able
  obtain ⟨fits, house, found⟩ := found_of_locate_within some good located
  by_cases link : ∃ target, made.get? (house ++ [name]) = .some (.link target)
  · obtain ⟨target, link⟩ := link
    exact .linked found (directories.link link) located
  · have straight : made.locate true (Path.within backups name) = .ok (spotAt made (house ++ [name])) :=
      locate_within fits found fun _ target there => link ⟨target, there⟩
    rw [located] at straight
    rw [spotAt_inj (Except.ok.inj straight)]
    exact .own found

/-- What is removed along the path of a backup is its name in the directory. -/
theorem place_of_removed (some : backups ≠ "") (good : IsName name) (found : made.find? backups = .ok (house, .directory))
    (firm : Firm made tree) {x : Location} {entry : Entry}
    (located : tree.locate false (Path.within backups name) = .ok (.found x entry)) : x = house ++ [name] := by
  obtain ⟨fits, -⟩ := found_of_locate_within some good located
  have still := find?_firm firm found
  have named : tree.locate false (Path.within backups name) = .ok (spotAt tree (house ++ [name])) :=
    locate_within fits still (by simp)
  rw [located] at named
  exact (found_of_spotAt (Except.ok.inj named)).1

theorem Midway.wrote (midway : Midway before made backups name place tree) (wrote : Wrote path tree after)
    (aim : ∀ x old, writable tree path = .ok (x, old) → x = place ∨ Spare before made backups name x) :
    Midway before made backups name place after := by
  refine ⟨midway.changed.trans (wrote.changed.mono ?_ fun _ it => it.elim), midway.firm.trans wrote.firm⟩
  rintro x ⟨old, able⟩
  exact aim x old able

theorem Midway.wrote_file (midway : Midway before made backups name place tree) (plain : Plain before place)
    (wrote : Wrote (Tree.pathOf place) tree after) : Midway before made backups name place after :=
  midway.wrote wrote fun _ _ able => .inl (writable_reached (midway.changed.plain plain).reaches able).1

end

section
variable {σ : Type} {verifier : Verifier σ} {root backups backup : String} {now : Timestamp} {r : Replacement} {s : σ}
  {disk : Disk} {file : RepositoryFile} {before made : Tree} {name : String} {place : Location} {outcome : Outcome}

/-- The path of a backup, whose directory has been made. -/
structure Saved (made : Tree) (backups name backup : String) : Prop where
  path : backup = Path.within backups name
  some : backups ≠ ""
  found : ∃ house, made.find? backups = .ok (house, .directory)

/-- Backing up makes directories and the backup. -/
theorem backUp_midway (backups : String) (now : Timestamp) (file : RepositoryFile) (disk : Disk) (place : Location) :
    Midway disk.tree (disk.makeDirectories backups).2.tree backups (backupName file.relative now) place
        (backUp backups now file disk).2.tree ∧
      ∀ backup, (backUp backups now file disk).1 = .ok backup →
        Saved (disk.makeDirectories backups).2.tree backups (backupName file.relative now) backup := by
  have directories := @makeDirectories_changed disk backups
  have some : (disk.makeDirectories backups).1 = .ok () → backups ≠ "" := by
    rintro well rfl
    exact makeDirectories_empty disk well
  have good : IsName (backupName file.relative now) := State.isName_backupName file.relative now
  unfold backUp
  generalize disk.makeDirectories backups = ended at directories some ⊢
  obtain ⟨e | _, disk₁⟩ := ended
  · exact ⟨⟨directories.mono (fun _ it => it.elim) fun _ it _ => .inr it, .refl _⟩, by simp⟩
  · have start : Midway disk.tree disk₁.tree backups (backupName file.relative now) place disk₁.tree :=
      ⟨directories.mono (fun _ it => it.elim) fun _ it _ => .inr it, .refl _⟩
    have copied := start.wrote (@copy_wrote disk₁ (Path.within backups (backupName file.relative now)) file.absolute)
      fun _ _ able => .inr (spare_of_writable (some rfl) good directories able)
    simp only
    split
    · next e disk₂ same =>
      rw [same] at copied
      exact ⟨copied, by simp⟩
    · next disk₂ same =>
      rw [same] at copied
      obtain ⟨spot, located⟩ := located_of_copy (congrArg Prod.fst same)
      refine ⟨copied, ?_⟩
      rintro backup ⟨rfl⟩
      exact ⟨rfl, some rfl, (found_of_locate_within (some rfl) good located).2⟩

/-- A trial that has written nothing but the file and the backup, which it leaves to be removed. -/
structure Confined (before made : Tree) (backups name : String) (place : Location) (t : Trial σ) : Prop where
  midway : Midway before made backups name place t.disk.tree
  saved : ∀ backup, t.backup? = some backup → Saved made backups name backup

theorem withdrawn_confined (plain : Plain before place) (saved : Saved made backups name backup)
    (midway : Midway before made backups name place disk.tree) :
    Confined before made backups name place (withdrawn (Tree.pathOf place) backup outcome s disk) := by
  have put := midway.wrote_file plain (@copy_wrote disk (Tree.pathOf place) backup)
  rw [← (reinstate_steps (Tree.pathOf place) backup disk).1] at put
  unfold withdrawn
  split
  · next disk' same =>
    rw [same] at put
    exact ⟨put, fun other it => Option.some.inj it ▸ saved⟩
  · next e disk' same =>
    rw [same] at put
    exact ⟨put, by simp⟩

theorem judged_confined (spares : Spares verifier) (plain : Plain before place) (saved : Saved made backups name backup)
    (midway : Midway before made backups name place disk.tree) :
    Confined before made backups name place (judged verifier (Tree.pathOf place) backup s disk) := by
  rw [← spares s disk] at midway
  rw [judged_eq]
  split
  · exact ⟨midway, fun other it => Option.some.inj it ▸ saved⟩
  · exact withdrawn_confined plain saved midway

/-- Until its backup is removed, an edit has written nothing but the file and the backup. -/
theorem trial_confined (spares : Spares verifier) (resolved : disk.tree.resolve root r.file = .ok file)
    (absolute : file.absolute = Tree.pathOf place) (plain : Plain disk.tree place) :
    Confined disk.tree (disk.makeDirectories backups).2.tree backups (backupName file.relative now) place
      (trial root backups now verifier r s disk) := by
  obtain ⟨midway, saved⟩ := backUp_midway backups now file disk place
  rw [trial, resolved]
  simp only
  split
  · next obstacle disk₁ made =>
    rw [made] at midway
    exact ⟨midway, by simp⟩
  · next backup disk₁ made =>
    rw [made] at midway saved
    have saved := saved backup rfl
    split
    · next obstacle disk₂ prepared =>
      rw [← prepare_tree prepared] at midway
      exact ⟨midway, fun other it => Option.some.inj it ▸ saved⟩
    · next text disk₂ prepared =>
      rw [← prepare_tree prepared] at midway
      have written := midway.wrote_file plain (@writing_wrote disk₂ (Tree.pathOf place) (fun _ => text.toUTF8) none)
      rw [absolute]
      split
      · next e disk₃ same =>
        rw [show disk₂.writing _ (fun _ => text.toUTF8) none = _ from same] at written
        exact withdrawn_confined plain saved written
      · next disk₃ same =>
        rw [show disk₂.writing _ (fun _ => text.toUTF8) none = _ from same] at written
        exact judged_confined spares plain saved written

/-- The removal of the backup takes its name out of the directory. -/
theorem Confined.cleared {t : Trial σ} (confined : Confined before made backups name place t) (good : IsName name) :
    Changed (fun x => x = place ∨ Spare before made backups name x) (fun _ => True) before t.cleared.tree := by
  obtain ⟨⟨changed, firm⟩, saved⟩ := confined
  unfold Trial.cleared
  cases left : t.backup? with
  | none => exact changed
  | some backup =>
    obtain ⟨rfl, some, house, found⟩ := saved backup left
    refine changed.trans (removeFile_changed.mono ?_ fun _ it => it.elim)
    rintro x ⟨entry, located⟩
    rw [place_of_removed some good found firm located]
    exact .inr (.own found)

/-- A place that is not in the repository. -/
def Outside (tree : Tree) (root : String) (x : Location) : Prop :=
  ∀ top entry, tree.find? root = .ok (top, entry) → ¬ top <+: x

/-- Outside of the repository nothing changes but for new directories and the backup. -/
theorem apply_outside (spares : Spares verifier) {x : Location} (outside : Outside disk.tree root x) :
    SameAt disk.tree (apply root backups now verifier r s disk).2.2.tree x ∨
      ∃ file, disk.tree.resolve root r.file = .ok file ∧
        Spare disk.tree (disk.makeDirectories backups).2.tree backups (backupName file.relative now) x := by
  cases resolved : disk.tree.resolve root r.file with
  | error refusal =>
    rw [apply, resolved]
    exact .inl (.inl rfl)
  | ok file =>
    obtain ⟨top, entry, lower, content, mode, rooted, settled, stands, rfl⟩ := resolve_cases resolved
    have plain : Plain disk.tree (top ++ lower) := ⟨settled.named, settled.straight (by simp [stands])⟩
    have changed := (@trial_confined _ verifier root backups now r s disk _ _ spares resolved rfl plain).cleared
      (State.isName_backupName _ now)
    rw [apply_eq_trial]
    rcases changed x with same | ⟨rfl | spare, -⟩ | ⟨-, made⟩
    · exact .inl (.inl same)
    · exact absurd (List.prefix_append top lower) (outside top entry rooted)
    · exact .inr ⟨_, rfl, spare⟩
    · exact .inl (.inr made)

/-- The paths that a repository accepts lead to regular files in it, an empty path or a relative one that climbs is not
accepted, and whatever links there are and whatever goes wrong, an edit under a verifier that leaves the tree alone makes
nothing but directories outside of the repository, apart from its backup. The backup is a name in the directory of backups,
or the file that a link of that name leads to. -/
theorem apply_stays_inside (spares : Spares verifier) (root backups : String) (now : Timestamp) (r : Replacement) (s : σ)
    (disk : Disk) :
    (∀ path file, disk.tree.resolve root path = .ok file → ∃ top place, Contained disk.tree root file top place) ∧
    (∀ path, path = "" ∨ (Path.isAbsolute path.toList = false ∧ .parent ∈ Path.components path.toList) →
      ∀ file, disk.tree.resolve root path ≠ .ok file) ∧
    ∀ x, Outside disk.tree root x →
      SameAt disk.tree (apply root backups now verifier r s disk).2.2.tree x ∨
        ∃ file, disk.tree.resolve root r.file = .ok file ∧
          Spare disk.tree (disk.makeDirectories backups).2.tree backups (backupName file.relative now) x := by
  refine ⟨fun path file => contained_of_resolve, ?refused, fun x outside => apply_outside spares outside⟩
  case refused =>
    rintro path (rfl | ⟨relative, climbs⟩) file accepted
    · rw [resolve_empty] at accepted
      cases accepted
    · rw [resolve_climbing relative climbs] at accepted
      split at accepted <;> cases accepted

end

/-- A verifier that is content with all that it sees. -/
def approving : Verifier Unit := ⟨fun s disk => (.pass "ok", s, disk)⟩

/-- A repository that is reached through a link, and so is its directory of backups. -/
def linkedTree : Tree :=
  ⟨[(["home"], .link "r"), (["r"], .directory), (["r", "a.py"], .file "x = 1\n".toUTF8 .shared), (["b"], .link "store"),
    (["store"], .directory), (["r2"], .directory), (["r2", "a.py"], .file "y\n".toUTF8 .shared)]⟩

/-- A file is known by its path without links, a path that climbs is not accepted, and the file of another directory is as it
was when the edit has ended, although that directory's path begins with the same letters. -/
theorem linked_repository_is_kept :
    let r : Replacement := ⟨"/home/a.py", .wholeFile, "x = 2"⟩
    Spares approving ∧ linkedTree.resolve "/home" "/home/a.py" = .ok ⟨"/r/a.py", "a.py"⟩ ∧
      (∃ top place, Contained linkedTree "/home" ⟨"/r/a.py", "a.py"⟩ top place) ∧
      (∀ file, linkedTree.resolve "/home" "../r2/a.py" ≠ .ok file) ∧
      SameAt linkedTree (apply "/home" "/b" .epoch approving r () (.sound linkedTree)).2.2.tree ["r2", "a.py"] := by
  intro r
  have spares : Spares approving := fun _ _ => rfl
  have resolved : linkedTree.resolve "/home" "/home/a.py" = .ok ⟨"/r/a.py", "a.py"⟩ := by decide +kernel
  obtain ⟨accepts, refuses, stays⟩ := apply_stays_inside spares "/home" "/b" .epoch r () (.sound linkedTree)
  refine ⟨spares, resolved, accepts _ _ resolved, refuses _ (.inr (by decide)), ?_⟩
  have root : linkedTree.find? "/home" = .ok (["r"], .directory) := by decide +kernel
  have outside : Outside linkedTree "/home" ["r2", "a.py"] := by
    intro top entry found
    obtain ⟨rfl, rfl⟩ : ["r"] = top ∧ Entry.directory = entry := by simpa [root] using found
    decide
  refine (stays _ outside).resolve_right ?_
  rintro ⟨file, resolved', spare⟩
  obtain rfl := Except.ok.inj (resolved.symm.trans resolved')
  have made : ((Disk.sound linkedTree).makeDirectories "/b").2.tree.find? "/b" =
      .ok (["store"], .directory) := by
    decide +kernel
  have directory : ∀ house, ((Disk.sound linkedTree).makeDirectories "/b").2.tree.find? "/b" =
      .ok (house, .directory) → house = ["store"] := by
    intro house found
    simpa using (Prod.mk.inj (Except.ok.inj (found.symm.trans made))).1
  generalize place : ["r2", "a.py"] = x at spare
  cases spare with
  | own found =>
    rw [directory _ found] at place
    simp at place
  | linked found link =>
    have free : linkedTree.get? (["store"] ++ [backupName "a.py" .epoch]) = none := by decide +kernel
    rw [directory _ found] at link
    exact absurd (free.symm.trans link) (by simp)

/-- A link that has the name of the backup leads out of the repository and out of the directory of backups, and the file there
is lost. Nor is the path of a file the repository's path with the relative one after it, if that is a link. -/
theorem link_leads_backup_out :
    let tree : Tree := ⟨[(["home"], .link "r"), (["r"], .directory), (["r", "a.py"], .file "x = 1\n".toUTF8 .shared),
      (["b"], .directory), (["b", "a_py-19700101T000000000.bak"], .link "/out/secret"), (["out"], .directory),
      (["out", "secret"], .file "secret\n".toUTF8 .shared)]⟩
    let given := apply "/r" "/b" .epoch approving ⟨"a.py", .wholeFile, "x = 2"⟩ () (.sound tree)
    Spares approving ∧ tree.canonical "/r" = .ok "/r" ∧ tree.canonical "/b" = .ok "/b" ∧
      tree.get? ["out", "secret"] = some (.file "secret\n".toUTF8 .shared) ∧
      given.2.2.tree.get? ["out", "secret"] = some (.file "x = 1\n".toUTF8 .shared) ∧
      tree.resolve "/home" "a.py" = .ok ⟨"/r/a.py", "a.py"⟩ ∧ Path.within "/home" "a.py" ≠ "/r/a.py" :=
  ⟨fun _ _ => rfl, by decide +kernel⟩

end GatedRepair.Edit
