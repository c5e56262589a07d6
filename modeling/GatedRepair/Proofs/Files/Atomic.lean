import GatedRepair.Proofs.Files.LastName
import GatedRepair.Proofs.Files.Steady
import GatedRepair.Proofs.Text.Part

/-!
# Files are replaced as a whole or not at all

Whatever the path and the tree, and whatever faults are met, replacing a file ends in one of two ways (`Disk.Untorn`): the new
content stands at the path's place and the file beside it is gone, or at most the file beside it was touched. A machine that
stops on the way is a disk that refuses all that comes after.
-/

namespace GatedRepair.Files

open Text

/-! ## The file beside another -/

/-- A name has an extension behind its last dot, unless it has no dot but perhaps in front. -/
theorem stemAndExtension_cases (name : List Char) :
    Path.stemAndExtension name = (name, none) ∨ ∃ stem old, name = stem ++ '.' :: old ∧ stem ≠ [] ∧
      Path.stemAndExtension name = (stem, some old) := by
  by_cases dot : '.' ∈ name
  · obtain ⟨old, stem, split, free⟩ := List.eq_append_cons_of_mem (List.mem_reverse.mpr dot)
    have spelt : name = stem.reverse ++ '.' :: old.reverse := by
      rw [← List.reverse_reverse name, split]
      simp
    have cut := @splitLast?_append '.' old.reverse (by simpa using free) stem.reverse
    unfold Path.stemAndExtension
    rw [spelt, cut]
    by_cases none : stem = []
    · exact .inl (by simp [none])
    · exact .inr ⟨stem.reverse, old.reverse, rfl, by simpa using none, by simp [none]⟩
  · exact .inl (by rw [Path.stemAndExtension, splitLast?_of_free dot])

/-- The extension of the name that a path ends in. -/
def extension? (path : String) : Option (List Char) := (Path.fileName? path.toList).bind fun name => (Path.stemAndExtension name).2

section
variable {path last : String} {front : List Char}

theorem ofParts_split {part : List Char} (free : '/' ∉ part) (front : List Char) :
    Path.ofParts (split '/' front ++ [part]) = front ++ '/' :: part := by
  rw [Path.ofParts, ← split_append_of_free free, intercalate_split]

theorem CutAt.extended_eq (cut : CutAt path front last) (good : IsName last) {stem extension : List Char} {old : Option (List Char)}
    (dotted : Path.stemAndExtension last.toList = (stem, old)) (free : '/' ∉ stem ++ '.' :: extension) :
    Path.extended path.toList extension = front ++ '/' :: (stem ++ '.' :: extension) := by
  rw [Path.extended, cut.fileName?_eq good]
  simp only
  rw [cut.spoken good, List.dropLast_concat, dotted, ofParts_split free]

/-- The file beside a file whose extension is not that of such files has another name behind the same text. -/
theorem CutAt.temporary (cut : CutAt path front last) (good : IsName last) (other : extension? path ≠ some "tmp".toList) :
    ∃ beside, CutAt (Disk.temporary path) front beside ∧ beside ≠ last := by
  have extension : extension? path = (Path.stemAndExtension last.toList).2 := by
    rw [extension?, cut.fileName?_eq good, Option.bind_some]
  have slash : '/' ∉ last.toList := cut.free
  obtain ⟨tmp, tmp_eq, plain⟩ : ∃ tmp : List Char, "tmp".toList = tmp ∧ '/' ∉ tmp := ⟨_, rfl, by decide⟩
  have made : Disk.temporary path =
      String.ofList (Path.extended (path.toList.take (path.toList.length - ((extension? path).getD []).length)) tmp) := by
    rw [← tmp_eq]
    rfl
  rw [tmp_eq] at other
  rcases stemAndExtension_cases last.toList with bare | ⟨stem, old, spelt, some, dotted⟩
  · -- The name has no extension, and gets one.
    rw [extension, bare, Option.getD_none, List.length_nil, Nat.sub_zero, List.take_length,
      cut.extended_eq good bare (by simp [slash, plain])] at made
    refine ⟨String.ofList (last.toList ++ '.' :: tmp), ⟨by simp [made], by simp [slash, plain], cut.rooted⟩, fun same => ?_⟩
    have length := congrArg (·.toList.length) same
    simp at length
  · -- The extension is cut off, and what is left gets another.
    have free : '/' ∉ stem := fun inside => slash (spelt ▸ List.mem_append_left _ inside)
    have short : path.toList.take (path.toList.length - old.length) = front ++ '/' :: (stem ++ ['.']) := by
      have whole : path.toList = (front ++ '/' :: (stem ++ ['.'])) ++ old := by rw [cut.spelt, spelt]; simp
      rw [whole, List.length_append, Nat.add_sub_cancel, List.take_left]
    have stub : CutAt (String.ofList (front ++ '/' :: (stem ++ ['.']))) front (String.ofList (stem ++ ['.'])) :=
      ⟨by simp, by simp [free], cut.rooted⟩
    rw [extension, dotted, Option.getD_some, short] at made
    by_cases climbs : stem = ['.']
    · -- Two dots are left, which get no extension.
      subst climbs
      have nameless : Path.fileName? (front ++ '/' :: ['.', '.']) = none := by
        have parts : split '/' (front ++ '/' :: ['.', '.']) = split '/' front ++ [['.', '.']] := split_append_of_free (by decide) front
        rw [Path.fileName?, Path.spoken, parts]
        simp [Path.dropSilentEnd, Path.isSilent]
      refine ⟨"..", ⟨?_, by decide, cut.rooted⟩, fun same => good.2.1 same.symm⟩
      rw [made, String.toList_ofList, Path.extended]
      have dots : ['.'] ++ ['.'] = ['.', '.'] := rfl
      rw [dots, nameless]
      rfl
    · have left : IsName (String.ofList (stem ++ ['.'])) := by
        refine ⟨?_, fun dots => climbs ?_, by simp [free]⟩
        · cases stem with
          | nil => exact absurd rfl some
          | cons c more => simp [Path.isSilent]
        · have same := congrArg String.toList dots
          rw [String.toList_ofList] at same
          exact (List.append_inj' (same : stem ++ ['.'] = ['.'] ++ ['.']) rfl).1
      have halved : Path.stemAndExtension (String.ofList (stem ++ ['.'])).toList = (stem, Option.some []) := by
        rw [String.toList_ofList, Path.stemAndExtension, @splitLast?_append '.' [] List.not_mem_nil stem]
        simp [some]
      have renamed := @CutAt.extended_eq _ _ _ stub left stem tmp _ halved (by simp [free, plain])
      rw [String.toList_ofList] at renamed
      refine ⟨String.ofList (stem ++ '.' :: tmp), ⟨by simp [made, renamed], by simp [free, plain], cut.rooted⟩,
        fun same => other ?_⟩
      have letters : stem ++ '.' :: tmp = stem ++ '.' :: old := by
        rw [← spelt, ← same, String.toList_ofList]
      rw [extension, dotted, (List.cons.inj (List.append_cancel_left letters)).2]

end

/-! ## Two paths, two places -/

section
variable {tree after : Tree} {path : String} {x y : Location} {old : Option (ByteArray × Mode)}

/-- At most a directory is named both by a path and by that of the file beside it. -/
theorem Names.apart (absolute : Path.isAbsolute path.toList = true) (other : extension? path ≠ some "tmp".toList)
    (names : Names tree path x) (beside : Names tree (Disk.temporary path) x) : tree.get? x = some .directory := by
  by_contra free
  obtain ⟨front, last, cut⟩ := exists_cut absolute
  obtain ⟨good, -, house, -, place⟩ := cut.stands names free
  obtain ⟨name, cut', ne⟩ := cut.temporary good other
  obtain ⟨-, -, house', -, place'⟩ := cut'.stands beside free
  have same : house ++ [last] = house' ++ [name] := place.symm.trans place'
  have lasts : [last] = [name] := (List.append_inj' same rfl).2
  exact ne (List.cons.inj lasts).1.symm

/-- No link stands at the end of a path. -/
def Unlinked (tree : Tree) (path : String) : Prop := ∀ x target, Names tree path x → tree.get? x ≠ some (.link target)

theorem names_of_writable (direct : Unlinked tree path) (able : Disk.writable tree path = .ok (y, old)) : Names tree path y := by
  rcases locate_unfollowed (Disk.writable_ok able).1 with same | ⟨x, target, linked⟩
  · exact same
  · exact absurd (locate_sound linked).2 (direct x target (names_of_found linked))

theorem file_of_writable (able : Disk.writable tree path = .ok (y, old)) {entry : Entry} (there : tree.get? y = some entry) :
    ∃ content mode, entry = .file content mode := by
  have stood := (Disk.writable_ok able).2.2
  rw [there] at stood
  cases old with
  | none => cases stood
  | some pair => exact ⟨_, _, Option.some.inj stood⟩

/-- Directories and links stay if all stays but what is a file or missing. -/
theorem firm_of_rest (written : Location → Prop) (rest : ∀ x, ¬ written x → after.get? x = tree.get? x)
    (files : ∀ x entry, written x → tree.get? x = some entry → ∃ content mode, entry = .file content mode) :
    Firm tree after := by
  have stays : ∀ x entry, tree.get? x = some entry → (∀ content mode, entry ≠ .file content mode) →
      after.get? x = some entry := by
    intro x entry there other
    rw [rest x fun it => ?_, there]
    obtain ⟨content, mode, same⟩ := files x entry it there
    exact other content mode same
  exact ⟨fun x there => stays x _ there (by simp), fun x target there => stays x _ there (by simp)⟩

end

/-! ## The stages -/

namespace Disk

variable {disk : Disk} {path : String}

/-- The tree in which the directories around a path have been made. -/
def surrounded (disk : Disk) (path : String) : Tree := (disk.makeSurroundings path).2.tree

/-- The content complete beside the file that it is to replace. -/
def staged (disk : Disk) (path content : String) : Outcome Unit :=
  match disk.makeSurroundings path with
  | (.error e, disk) => (.error e, disk)
  | (.ok (), disk) =>
    match disk.write (temporary path) content.toUTF8 with
    | (.error e, disk) => (.error e, disk)
    | (.ok (), disk) => (.ok (), (disk.makePrivate (temporary path)).2)

theorem writeAtomic_eq (disk : Disk) (path content : String) :
    disk.writeAtomic path content = match disk.staged path content with
      | (.error e, disk) => (.error e, disk)
      | (.ok (), disk) => disk.settle path := by
  unfold writeAtomic staged
  rcases disk.makeSurroundings path with ⟨_ | _, between⟩
  · rfl
  · simp only
    rcases between.write (temporary path) content.toUTF8 with ⟨_ | _, _⟩ <;> rfl

theorem surrounded_changed (disk : Disk) (path : String) :
    Changed Nowhere (fun _ => True) disk.tree (disk.surrounded path) := by
  unfold surrounded makeSurroundings
  split
  · exact .refl _
  · exact makeDirectories_changed

theorem write_ok {content : ByteArray} (written : (disk.write path content).1 = .ok ()) :
    ∃ location old mode, writable disk.tree path = .ok (location, old) ∧
      (disk.write path content).2.tree = disk.tree.put location (.file content mode) := by
  have kept := meet_tree disk
  unfold write writing at written ⊢
  rcases meeting : disk.meet with ⟨fault, after⟩
  simp only [meeting] at kept written ⊢
  split at written
  · cases written
  · rw [kept] at written ⊢
    cases able : writable disk.tree path with
    | error e =>
      simp only [able] at written
      cases written
    | ok found =>
      obtain ⟨location, old⟩ := found
      simp only [able] at written ⊢
      split at written
      · cases written
      · exact ⟨location, old, (old.map Prod.snd).getD .shared, rfl, rfl⟩

theorem makePrivate_found {y : Location} {content : ByteArray} {mode : Mode}
    (found : disk.tree.find? path = .ok (y, .file content mode)) :
    ∃ mode, ∀ x, (disk.makePrivate path).2.tree.get? x = if x = y then some (.file content mode) else disk.tree.get? x := by
  have stood := (find?_settled found).2
  rcases makePrivate_cases disk path with same | ⟨there, held, mode', found', closed⟩
  · refine ⟨mode, fun x => ?_⟩
    rw [same]
    split
    · next it => rw [it, stood]
    · rfl
  · obtain ⟨rfl, rfl, rfl⟩ : y = there ∧ content = held ∧ mode = mode' := by simpa using found.symm.trans found'
    exact ⟨mode.closed, fun x => by rw [closed, Tree.get?_put (ne_nil_of_get? stood (by simp))]⟩

/-- The content does not come to stand beside the file, and nothing but the place beside it changes; or it does. -/
theorem staged_cases (disk : Disk) (path content : String) :
    ((disk.staged path content).1 ≠ .ok () ∧ ∀ x,
        (∀ old, writable (disk.surrounded path) (temporary path) ≠ .ok (x, old)) →
        (disk.staged path content).2.tree.get? x = (disk.surrounded path).get? x) ∨
      (disk.staged path content).1 = .ok () ∧ ∃ y old mode, writable (disk.surrounded path) (temporary path) = .ok (y, old) ∧
        ∀ x, (disk.staged path content).2.tree.get? x =
          if x = y then some (.file content.toUTF8 mode) else (disk.surrounded path).get? x := by
  unfold staged surrounded
  rcases disk.makeSurroundings path with ⟨_ | _, between⟩
  · exact .inl ⟨by simp, fun _ _ => rfl⟩
  · simp only
    have wrote := @writing_wrote between (temporary path) (fun _ => content.toUTF8) none
    have well := @write_ok between (temporary path) content.toUTF8
    unfold write at well ⊢
    generalize between.writing (temporary path) (fun _ => content.toUTF8) none = write at wrote well ⊢
    obtain ⟨_ | _, written⟩ := write
    · exact .inl ⟨by simp, fun x other => wrote.changed.rest (fun ⟨old, able⟩ => other old able) id⟩
    · obtain ⟨y, old, mode, able, put⟩ := well rfl
      simp only at put
      have some := (writable_ok able).2.1
      obtain ⟨mode, closed⟩ := @makePrivate_found written (temporary path) y _ mode (by rw [put, find?_put able])
      refine .inr ⟨rfl, y, old, mode, able, fun x => ?_⟩
      rw [closed, put, Tree.get?_put some]
      split <;> rfl

/-- The move into place fails and at most the file beside is taken away, or it is made. -/
theorem settle_cases (ready : Disk) (path : String) :
    ((ready.settle path).1 ≠ .ok () ∧ ((ready.settle path).2.tree = ready.tree ∨
        ∃ y entry, ready.tree.locate false (temporary path) = .ok (.found y entry) ∧ entry ≠ .directory ∧
          (ready.settle path).2.tree = ready.tree.remove y)) ∨
      (ready.settle path).1 = .ok () ∧ ∃ y entry spot, ready.tree.locate false (temporary path) = .ok (.found y entry) ∧
        entry ≠ .directory ∧ ready.tree.locate false path = .ok spot ∧ path.toList.getLast? ≠ some '/' ∧
        spot.place ≠ [] ∧ ready.tree.get? spot.place ≠ some .directory ∧
        (ready.settle path).2.tree = if spot.place = y then ready.tree else (ready.tree.remove y).put spot.place entry := by
  have move := rename_cases ready (temporary path) path
  unfold settle
  generalize ready.rename (temporary path) path = rename at move ⊢
  obtain ⟨_ | _, moved⟩ := rename
  · rcases move with ⟨same, -⟩ | ⟨_, _, _, _, _, _, _, _, _, _, well, _⟩
    · obtain same : moved.tree = ready.tree := same
      refine .inl ⟨by simp, ?_⟩
      rcases removeFile_cases moved (temporary path) with ⟨kept, -⟩ | removed
      · exact .inl (kept.trans same)
      · exact .inr (same ▸ removed)
    · cases well
  · rcases move with ⟨-, failed⟩ | ⟨y, entry, spot, located, movable, aim, -, noSlash, some, vacant, -, after⟩
    · exact absurd rfl failed
    · exact .inr ⟨rfl, y, entry, spot, located, movable, aim, noSlash, some, vacant, after⟩

section
variable {made ready : Tree} {y : Location} {old : Option (ByteArray × Mode)} {file : ByteArray} {mode : Mode}
  (able : writable made (temporary path) = .ok (y, old))
  (filled : ∀ x, ready.get? x = if x = y then some (.file file mode) else made.get? x)
include able filled

theorem firm_filled : Firm made ready ∧ Firm ready made := by
  refine ⟨firm_of_rest (· = y) (fun x other => by rw [filled, if_neg other]) ?_,
    firm_of_rest (· = y) (fun x other => by rw [filled, if_neg other]) ?_⟩
  · rintro x entry rfl there
    exact file_of_writable able there
  · rintro x entry rfl there
    rw [filled, if_pos rfl] at there
    exact ⟨file, mode, (Option.some.inj there).symm⟩

theorem locate_filled (names : Names made (temporary path) y) :
    ready.locate false (temporary path) = .ok (.found y (.file file mode)) := by
  refine locate_onto (firm_filled able filled).1 (writable_free able) (fun _ target link => ?_) (by rw [filled, if_pos rfl]) names
  obtain ⟨_, _, same⟩ := file_of_writable able link
  cases same

end

/-! ## The outcomes -/

section
variable {content : String} (direct : Unlinked (disk.surrounded path) (temporary path))
include direct

/-- Where a replacement fails, the place beside the file is all that may have changed. -/
theorem writeAtomic_failed (failed : (disk.writeAtomic path content).1 ≠ .ok ()) {x : Location}
    (other : ∀ old, writable (disk.surrounded path) (temporary path) ≠ .ok (x, old)) :
    (disk.writeAtomic path content).2.tree.get? x = (disk.surrounded path).get? x := by
  have stage := staged_cases disk path content
  rw [writeAtomic_eq] at failed ⊢
  generalize disk.staged path content = staged at stage failed ⊢
  obtain ⟨_ | _, ready⟩ := staged
  · obtain ⟨-, rest⟩ | ⟨well, -⟩ := stage
    · exact rest x other
    · cases well
  · obtain ⟨unwell, -⟩ | ⟨-, y, old, mode, able, filled⟩ := stage
    · exact absurd rfl unwell
    · have apart : x ≠ y := fun same => other old (same ▸ able)
      simp only at filled failed ⊢
      -- What the removal takes away is the content that was written beside the file.
      rcases settle_cases ready path with ⟨-, same | ⟨y', entry, located, movable, removed⟩⟩ | ⟨well, -⟩
      · rw [same, filled, if_neg apart]
      · obtain ⟨rfl, -⟩ : y = y' ∧ _ := by
          simpa using (locate_filled able filled (names_of_writable direct able)).symm.trans located
        rw [removed, Tree.get?_remove (writable_ok able).2.1, if_neg apart, filled, if_neg apart]
      · exact absurd well failed

theorem stays_failed (failed : (disk.writeAtomic path content).1 ≠ .ok ()) {x : Location} {entry : Entry}
    (there : disk.tree.get? x = some entry) (other : ∀ old, writable (disk.surrounded path) (temporary path) ≠ .ok (x, old)) :
    (disk.writeAtomic path content).2.tree.get? x = some entry := by
  rw [writeAtomic_failed direct failed other, (surrounded_changed disk path).stays id there]

theorem reads_failed (failed : (disk.writeAtomic path content).1 ≠ .ok ()) {path' : String} {x : Location} {file : ByteArray}
    {mode : Mode} (found : disk.tree.find? path' = .ok (x, .file file mode))
    (away : ¬ Names (disk.surrounded path) (temporary path) x) :
    (disk.writeAtomic path content).2.tree.find? path' = .ok (x, .file file mode) := by
  have stood := (find?_settled found).2
  have firm : Firm disk.tree (disk.writeAtomic path content).2.tree := by
    refine firm_of_rest (fun x => disk.tree.get? x = none ∨
      ∃ old, writable (disk.surrounded path) (temporary path) = .ok (x, old)) (fun x free => ?_) fun x entry it there => ?_
    · obtain ⟨some, free⟩ := not_or.mp free
      obtain ⟨entry, there⟩ := Option.ne_none_iff_exists'.mp some
      rw [there]
      exact stays_failed direct failed there fun old able => free ⟨old, able⟩
    · rcases it with nothing | ⟨old, able⟩
      · rw [there] at nothing
        cases nothing
      · exact file_of_writable able ((surrounded_changed disk path).stays id there)
  refine find?_onto firm (by simp [stood]) ?_ (by rw [spotAt_of_get? stood, find?_iff.mp found])
  exact stays_failed direct failed stood fun old able => away (names_of_writable direct able)

theorem tidy_failed {ready : Disk} (staged : disk.staged path content = (.ok (), ready))
    (failed : (ready.rename (temporary path) path).1 ≠ .ok ())
    (removed : ((ready.rename (temporary path) path).2.removeFile (temporary path)).1 = .ok ()) {y : Location}
    (names : Names (disk.surrounded path) (temporary path) y) : (disk.writeAtomic path content).2.tree.get? y = none := by
  have after : (disk.writeAtomic path content).2 = ((ready.rename (temporary path) path).2.removeFile (temporary path)).2 := by
    rw [writeAtomic_eq, staged]
    simp only [settle]
    split
    · next moved =>
      rw [moved] at failed
      exact absurd rfl failed
    · next moved => rw [moved]
  have unmoved : (ready.rename (temporary path) path).2.tree = ready.tree := changing_failed failed
  rcases staged_cases disk path content with ⟨unwell, -⟩ | ⟨-, y', old, mode, able, filled⟩
  · rw [staged] at unwell
    exact absurd rfl unwell
  · rw [staged] at filled
    have beside := names_of_writable direct able
    obtain rfl := names.unique beside
    rcases removeFile_cases (ready.rename (temporary path) path).2 (temporary path) with
      ⟨-, unwell⟩ | ⟨place, entry, located, -, gone⟩
    · exact absurd removed unwell
    · rw [unmoved] at located
      obtain ⟨rfl, -⟩ : y = place ∧ _ := by simpa using (locate_filled able filled beside).symm.trans located
      rw [after, gone, Tree.get?_remove (writable_ok able).2.1, if_pos rfl]

/-- A replacement that ends well leaves the content at the path's place and nothing beside it. -/
theorem writeAtomic_ok (absolute : Path.isAbsolute path.toList = true) (other : extension? path ≠ some "tmp".toList)
    (well : (disk.writeAtomic path content).1 = .ok ()) :
    ∃ x y old mode, Names (disk.surrounded path) path x ∧ (disk.surrounded path).get? x ≠ some .directory ∧
      writable (disk.surrounded path) (temporary path) = .ok (y, old) ∧
      ∀ z, (disk.writeAtomic path content).2.tree.get? z =
        if z = x then some (.file content.toUTF8 mode) else if z = y then none else (disk.surrounded path).get? z := by
  have stage := staged_cases disk path content
  rw [writeAtomic_eq] at well ⊢
  generalize disk.staged path content = staged at stage well ⊢
  obtain ⟨_ | _, ready⟩ := staged
  · cases well
  · obtain ⟨unwell, -⟩ | ⟨-, y, old, mode, able, filled⟩ := stage
    · exact absurd rfl unwell
    · simp only at filled well ⊢
      have beside := names_of_writable direct able
      rcases settle_cases ready path with ⟨unwell, -⟩ | ⟨-, y', entry, spot, located, -, aim, noSlash, some, vacant, after⟩
      · exact absurd well unwell
      · obtain ⟨rfl, rfl⟩ : y = y' ∧ Entry.file content.toUTF8 mode = entry := by
          simpa using (locate_filled able filled beside).symm.trans located
        obtain ⟨front, last, cut⟩ := exists_cut absolute
        -- With the content beside it the path names what it named before, since directories and links are the same.
        have names : Names (disk.surrounded path) path spot.place :=
          (cut.named aim noSlash).firm absolute (firm_filled able filled).2 vacant
        have apart : spot.place ≠ y := by
          intro same
          rw [same] at names
          exact writable_free able (names.apart absolute other beside)
        rw [if_neg apart] at after
        rw [filled, if_neg apart] at vacant
        refine ⟨spot.place, y, old, mode, names, vacant, able, fun z => ?_⟩
        rw [after, Tree.get?_put some, Tree.get?_remove (writable_ok able).2.1]
        split
        · rfl
        · split
          · rfl
          · next elsewhere => rw [filled, if_neg elsewhere]

theorem gives_ok (absolute : Path.isAbsolute path.toList = true) (other : extension? path ≠ some "tmp".toList)
    (well : (disk.writeAtomic path content).1 = .ok ()) (straight : Unlinked (disk.surrounded path) path) :
    ∃ x mode, (disk.writeAtomic path content).2.tree.find? path = .ok (x, .file content.toUTF8 mode) := by
  obtain ⟨x, y, old, mode, names, vacant, able, after⟩ := writeAtomic_ok direct absolute other well
  have firm : Firm (disk.surrounded path) (disk.writeAtomic path content).2.tree := by
    refine firm_of_rest (fun z => z = x ∨ z = y) (fun z elsewhere => ?_) fun z entry it there => ?_
    · obtain ⟨apart, apart'⟩ := not_or.mp elsewhere
      rw [after, if_neg apart, if_neg apart']
    · rcases it with rfl | rfl
      · cases entry with
        | file held mode => exact ⟨held, mode, rfl⟩
        | directory => exact absurd there vacant
        | link target => exact absurd there (straight z target names)
      · exact file_of_writable able there
  exact ⟨x, mode, (names.firm absolute firm vacant).find? absolute (by rw [after, if_pos rfl])⟩

end

/-- A place is as it was, but for a directory that may have been made where nothing stood. -/
def Kept (before after : Tree) (x : Location) : Prop :=
  after.get? x = before.get? x ∨ before.get? x = none ∧ after.get? x = some .directory

theorem kept_of_surrounded {after : Tree} {x : Location} (same : after.get? x = (disk.surrounded path).get? x) :
    Kept disk.tree after x := by
  rcases surrounded_changed disk path x with still | ⟨never, -⟩ | ⟨-, nothing, directory⟩
  · exact .inl (same.trans still)
  · exact never.elim
  · exact .inr ⟨nothing, same.trans directory⟩

/-- What replacing a file does to a disk. Places are told by what the path and that of the file beside it name when the directories
around them have been made. -/
structure Untorn (disk : Disk) (path content : String) (made : Tree) (result : Outcome Unit) : Prop where
  failed : result.1 ≠ .ok () → ∀ x, Names made path x → Kept disk.tree result.2.tree x
  done : result.1 = .ok () → ∃ x y mode, Names made path x ∧ Names made (temporary path) y ∧
    result.2.tree.get? x = some (.file content.toUTF8 mode) ∧ result.2.tree.get? y = none
  rest : ∀ x, ¬ Names made path x → ¬ Names made (temporary path) x → Kept disk.tree result.2.tree x
  /-- When it fails, all paths lead to the files that they led to, but for links to the file beside. -/
  reads : result.1 ≠ .ok () → ∀ path' x file mode, disk.tree.find? path' = .ok (x, .file file mode) →
    ¬ Names made (temporary path) x → result.2.tree.find? path' = .ok (x, .file file mode)
  /-- When it ends well, the path leads to the content, unless a link stood at its end. -/
  gives : result.1 = .ok () → Unlinked made path → ∃ x mode, result.2.tree.find? path = .ok (x, .file content.toUTF8 mode)
  /-- After a move that fails, nothing is left beside the file if the removal ends well. -/
  tidy : ∀ ready, disk.staged path content = (.ok (), ready) → (ready.rename (temporary path) path).1 ≠ .ok () →
    ((ready.rename (temporary path) path).2.removeFile (temporary path)).1 = .ok () →
    ∀ y, Names made (temporary path) y → result.2.tree.get? y = none

section
variable {content : String} (absolute : Path.isAbsolute path.toList = true) (other : extension? path ≠ some "tmp".toList)
  (direct : Unlinked (disk.surrounded path) (temporary path))
include absolute other direct

/-- Whatever faults are met, a file is replaced as a whole or not at all. -/
theorem replaced_or_kept : Untorn disk path content (disk.surrounded path) (disk.writeAtomic path content) := by
  -- Nothing can be written at the path's place until the content is moved there.
  have unwritable : ∀ {x}, Names (disk.surrounded path) path x →
      ∀ old, writable (disk.surrounded path) (temporary path) ≠ .ok (x, old) :=
    fun names old able => writable_free able (names.apart absolute other (names_of_writable direct able))
  refine ⟨fun failed x names => ?_, fun well => ?_, fun x away away' => ?_, fun failed _ _ _ _ => reads_failed direct failed,
    fun well straight => ?_, fun ready staged failed removed _ => tidy_failed direct staged failed removed⟩
  · exact kept_of_surrounded (writeAtomic_failed direct failed (unwritable names))
  · obtain ⟨x, y, old, mode, names, -, able, after⟩ := writeAtomic_ok direct absolute other well
    have apart : y ≠ x := fun same => unwritable names old (same ▸ able)
    exact ⟨x, y, mode, names, names_of_writable direct able, by rw [after, if_pos rfl], by rw [after, if_neg apart, if_pos rfl]⟩
  · refine @kept_of_surrounded disk path _ x ?_
    by_cases well : (disk.writeAtomic path content).1 = .ok ()
    · obtain ⟨x', y, old, mode, names, -, able, after⟩ := writeAtomic_ok direct absolute other well
      have apart : x ≠ x' := fun same => away (same ▸ names)
      have apart' : x ≠ y := fun same => away' (same ▸ names_of_writable direct able)
      rw [after, if_neg apart, if_neg apart']
    · exact writeAtomic_failed direct well fun old able => away' (names_of_writable direct able)
  · exact gives_ok direct absolute other well straight

end

/-- A write that breaks off after a byte leaves the old content, and one on which nothing goes wrong brings the new. -/
theorem torn_write_keeps_old :
    let path := "/r/d.json"
    let file := ["r", "d.json"]
    let tree : Tree := ⟨[(["r"], .directory), (file, .file "old".toUTF8 .shared)]⟩
    (Disk.writeAtomic ⟨tree, [none, some (.torn 1 .noSpace)]⟩ path "new").2.tree.find? path =
        .ok (file, .file "old".toUTF8 .shared) ∧
      ∃ mode, (Disk.writeAtomic (sound tree) path "new").2.tree.get? file = some (.file "new".toUTF8 mode) := by
  intro path file tree
  have absolute : Path.isAbsolute path.toList = true := by decide
  have other : extension? path ≠ some "tmp".toList := by decide
  let torn : Disk := ⟨tree, [none, some (.torn 1 .noSpace)]⟩
  have beside : Names (torn.surrounded path) (temporary path) ["r", "d.tmp"] := by
    unfold Names
    decide +kernel
  have beside' : Names ((sound tree).surrounded path) (temporary path) ["r", "d.tmp"] := by
    unfold Names
    decide +kernel
  have names : Names ((sound tree).surrounded path) path file := by
    unfold Names
    decide +kernel
  have nothing : (torn.surrounded path).get? ["r", "d.tmp"] = none := by decide +kernel
  have nothing' : ((sound tree).surrounded path).get? ["r", "d.tmp"] = none := by decide +kernel
  refine ⟨?_, ?_⟩
  · have whole := @replaced_or_kept torn path "new" absolute other fun y target named => by
      rw [named.unique beside, nothing]
      simp
    refine whole.reads (by decide +kernel) path file "old".toUTF8 .shared (by decide +kernel) fun same => ?_
    exact absurd (same.unique beside) (by decide)
  · have whole := @replaced_or_kept (sound tree) path "new" absolute other fun y target named => by
      rw [named.unique beside', nothing']
      simp
    obtain ⟨x, y, mode, named, -, stands, -⟩ := whole.done (by decide +kernel)
    exact ⟨mode, named.unique names ▸ stands⟩

end Disk

end GatedRepair.Files
