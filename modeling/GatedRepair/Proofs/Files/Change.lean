import GatedRepair.Proofs.Files.Walk

/-!
# What operations change

What an operation on the path of a location can change in the tree, however it ends (`Changed`), and what stands there
when it ends well. The location may not be reached through links.
-/

namespace GatedRepair.Files

/-- Nothing changes but at the places that may be written, where no link comes to be, and the missing ones that may be made,
which become directories. -/
def Changed (written made : Location → Prop) (before after : Tree) : Prop :=
  ∀ x, after.get? x = before.get? x ∨ (written x ∧ ∀ target, after.get? x ≠ some (.link target)) ∨
    (made x ∧ before.get? x = none ∧ after.get? x = some .directory)

/-- No place but one. -/
abbrev At (location : Location) : Location → Prop := (· = location)

/-- No place at all. -/
abbrev Nowhere : Location → Prop := fun _ => False

section
variable {written made : Location → Prop} {before between after : Tree}

theorem Changed.refl (tree : Tree) : Changed written made tree tree := fun _ => .inl rfl

theorem Changed.of_eq (same : after = before) : Changed written made before after :=
  fun _ => .inl (same ▸ rfl)

theorem Changed.trans (first : Changed written made before between) (second : Changed written made between after) :
    Changed written made before after := by
  intro x
  rcases second x with same | ⟨may, free⟩ | ⟨may, nothing, directory⟩
  · rw [same]
    exact first x
  · exact .inr (.inl ⟨may, free⟩)
  · rcases first x with same | ⟨may', -⟩ | ⟨-, -, there⟩
    · exact .inr (.inr ⟨may, same ▸ nothing, directory⟩)
    · exact .inr (.inl ⟨may', by simp [directory]⟩)
    · rw [there] at nothing
      cases nothing

theorem Changed.mono {written' made' : Location → Prop} (change : Changed written made before after)
    (more : ∀ x, written x → written' x) (also : ∀ x, made x → before.get? x = none → written' x ∨ made' x) :
    Changed written' made' before after := by
  intro x
  rcases change x with same | ⟨may, free⟩ | ⟨may, nothing, directory⟩
  · exact .inl same
  · exact .inr (.inl ⟨more x may, free⟩)
  · rcases also x may nothing with may | may
    · exact .inr (.inl ⟨may, by simp [directory]⟩)
    · exact .inr (.inr ⟨may, nothing, directory⟩)

theorem Changed.rest (change : Changed written made before after) {x : Location} (unwritten : ¬ written x)
    (unmade : ¬ made x) : after.get? x = before.get? x := by
  rcases change x with same | ⟨may, -⟩ | ⟨may, -⟩
  · exact same
  · exact absurd may unwritten
  · exact absurd may unmade

theorem Changed.stays (change : Changed written made before after) {x : Location} {entry : Entry} (unwritten : ¬ written x)
    (there : before.get? x = some entry) : after.get? x = some entry := by
  rcases change x with same | ⟨may, -⟩ | ⟨-, nothing, -⟩
  · rw [same, there]
  · exact absurd may unwritten
  · rw [there] at nothing
    cases nothing

theorem Changed.free (change : Changed written made before after) {x : Location} (unwritten : ¬ written x)
    (nothing : after.get? x = none) : before.get? x = none := by
  cases there : before.get? x with
  | none => rfl
  | some entry =>
    rw [change.stays unwritten there] at nothing
    cases nothing

theorem Changed.link (change : Changed written made before after) {x : Location} {target : String}
    (link : after.get? x = some (.link target)) : before.get? x = some (.link target) := by
  rcases change x with same | ⟨-, free⟩ | ⟨-, -, directory⟩
  · exact same ▸ link
  · exact absurd link (free target)
  · rw [directory] at link
    cases link

theorem Changed.straight (change : Changed written made before after) {location : Location}
    (straight : Straight before location) : Straight after location :=
  fun upper short target link => straight upper short target (change.link link)

end

theorem changed_put {location : Location} (some : location ≠ []) (tree : Tree) {entry : Entry}
    (direct : ∀ target, entry ≠ .link target) : Changed (At location) Nowhere tree (tree.put location entry) := by
  intro x
  rw [Tree.get?_put some]
  by_cases it : x = location
  · rw [if_pos it]
    exact .inr (.inl ⟨it, fun target link => direct target (Option.some.inj link)⟩)
  · rw [if_neg it]
    exact .inl rfl

theorem changed_remove {location : Location} (some : location ≠ []) (tree : Tree) :
    Changed (At location) Nowhere tree (tree.remove location) := by
  intro x
  rw [Tree.get?_remove some]
  by_cases it : x = location
  · rw [if_pos it]
    exact .inr (.inl ⟨it, by simp⟩)
  · rw [if_neg it]
    exact .inl rfl

/-- A location that can be named by its path. -/
structure Plain (tree : Tree) (location : Location) : Prop where
  named : IsNamed location
  straight : Straight tree location

theorem Changed.plain {written made : Location → Prop} {before after : Tree} (change : Changed written made before after)
    {location : Location} (plain : Plain before location) : Plain after location :=
  ⟨plain.named, change.straight plain.straight⟩

/-- A location to which its path leads when links are not followed at the end. -/
structure Aimed (tree : Tree) (location : Location) : Prop where
  named : IsNamed location
  above : ∀ upper, upper <+: location → upper ≠ location → ∀ target, tree.get? upper ≠ some (.link target)

theorem Plain.aimed {tree : Tree} {location : Location} (plain : Plain tree location) : Aimed tree location :=
  ⟨plain.named, fun upper short _ => plain.straight upper short⟩

/-- All that a path can lead to is a location, or that nothing stands there. -/
def Reaches (tree : Tree) (path : String) (location : Location) : Prop :=
  ∀ followLast spot, tree.locate followLast path = .ok spot → spot = spotAt tree location

section
variable {tree : Tree} {path : String} {location : Location} (reaches : Reaches tree path location)
include reaches

/-- A spot that is found along a path is the location that the path reaches. -/
theorem Reaches.found {followLast : Bool} {other : Location} {entry : Entry}
    (located : tree.locate followLast path = .ok (.found other entry)) :
    other = location ∧ tree.get? location = some entry := by
  have spot := reaches _ _ located
  unfold spotAt at spot
  split at spot
  · next there =>
    obtain ⟨rfl, rfl⟩ := by simpa using spot
    exact ⟨rfl, there⟩
  · cases spot

/-- A spot that is missing along a path is the location that the path reaches. -/
theorem Reaches.missing {followLast slash : Bool} {directory : Location} {name : String}
    (located : tree.locate followLast path = .ok (.missing directory name slash)) :
    directory ++ [name] = location ∧ location ≠ [] ∧ tree.get? location = none := by
  have spot := reaches _ _ located
  unfold spotAt at spot
  split at spot
  · cases spot
  · next nothing =>
    have some : location ≠ [] := by
      rintro rfl
      simp [Tree.get?] at nothing
    obtain ⟨rfl, rfl, rfl⟩ := by simpa using spot
    refine ⟨?_, some, nothing⟩
    rw [List.getLast?_eq_some_getLast some]
    exact List.dropLast_concat_getLast some

theorem Reaches.find? {other : Location} {entry : Entry} (found : tree.find? path = .ok (other, entry)) :
    other = location ∧ tree.get? location = some entry := by
  unfold Tree.find? at found
  split at found
  · next located =>
    obtain ⟨rfl, rfl⟩ := by simpa using found
    exact reaches.found located
  · cases found
  · cases found

end

/-- The place of a spot. -/
def Spot.place : Spot → Location
  | .found location _ => location
  | .missing directory name _ => directory ++ [name]

theorem place_spotAt (tree : Tree) (location : Location) : (spotAt tree location).place = location := by
  cases there : tree.get? location with
  | some entry => rw [spotAt_of_get? there, Spot.place]
  | none =>
    have some : location ≠ [] := by
      rintro rfl
      cases there
    obtain ⟨front, last, rfl⟩ := (List.eq_nil_or_concat' location).resolve_left some
    rw [spotAt_append there, Spot.place]

theorem Plain.reaches {tree : Tree} {location : Location} (plain : Plain tree location) :
    Reaches tree (Tree.pathOf location) location :=
  fun _ _ located => locate_pathOf plain.named plain.straight located

theorem Aimed.spot {tree : Tree} {location : Location} (aimed : Aimed tree location) {spot : Spot}
    (located : tree.locate false (Tree.pathOf location) = .ok spot) : spot = spotAt tree location := by
  refine locate_aimed aimed.named (fun upper short below => aimed.above upper short fun whole => ?_) located
  cases below whole

theorem Aimed.settled {tree : Tree} {location : Location} (aimed : Aimed tree location) {spot : Spot}
    (located : tree.locate false (Tree.pathOf location) = .ok spot) : Settled tree location := by
  have place := congrArg Spot.place (aimed.spot located)
  rw [place_spotAt] at place
  have sound := locate_sound located
  cases spot <;> exact place ▸ sound.1

/-- A location whose path can be walked stands in directories only. -/
theorem locate_above {tree : Tree} {location : Location} (plain : Plain tree location) {followLast : Bool} {spot : Spot}
    (located : tree.locate followLast (Tree.pathOf location) = .ok spot) : Settled tree location := by
  have sound := locate_sound located
  cases spot with
  | found other entry =>
    obtain ⟨rfl, -⟩ := plain.reaches.found located
    exact sound.1
  | missing directory name slash =>
    obtain ⟨rfl, -⟩ := plain.reaches.missing located
    exact sound.1

theorem find?_of_locate {tree : Tree} {location : Location} {entry : Entry}
    (located : tree.locate true (Tree.pathOf location) = .ok (spotAt tree location)) (there : tree.get? location = some entry) :
    tree.find? (Tree.pathOf location) = .ok (location, entry) := by
  unfold Tree.find?
  rw [located, spotAt_of_get? there]

theorem canonical_of_find? {tree : Tree} {path : String} {location : Location} {entry : Entry}
    (found : tree.find? path = .ok (location, entry)) : tree.canonical path = .ok (Tree.pathOf location) := by
  rw [Tree.canonical, found]
  rfl

/-- A text that is read is the content of a file. -/
theorem find?_of_readText {tree : Tree} {path text : String} (reads : tree.readText path = .ok text) :
    ∃ location content mode, tree.find? path = .ok (location, .file content mode) ∧
      String.fromUTF8? content = some text := by
  unfold Tree.readText Tree.read at reads
  split at reads
  · next content found =>
    split at found
    · next location content' mode there =>
      obtain rfl := Except.ok.inj found
      split at reads
      · next text' decoded => exact ⟨location, content', mode, there, by rw [decoded, Except.ok.inj reads]⟩
      · cases reads
    · cases found
    · cases found
  · cases reads

theorem ne_nil_of_get? {tree : Tree} {location : Location} {entry : Entry} (there : tree.get? location = some entry)
    (other : entry ≠ .directory) : location ≠ [] := by
  rintro rfl
  exact other (Option.some.inj there).symm

namespace Disk

theorem meet_tree (disk : Disk) : disk.meet.2.tree = disk.tree := by
  unfold meet; split <;> rfl

theorem reading_tree {α : Type} (disk : Disk) (look : Tree → Except Failure α) :
    (disk.reading look).2.tree = disk.tree := by
  unfold reading
  simp only
  split <;> exact meet_tree disk

theorem reading_ok {α : Type} {disk after : Disk} {look : Tree → Except Failure α} {found : α}
    (read : disk.reading look = (.ok found, after)) : look disk.tree = .ok found := by
  unfold reading at read
  simp only at read
  split at read
  · simp at read
  · rw [meet_tree] at read
    exact (Prod.mk.inj read).1

/-- A change meets a fault, cannot be made, or is made. -/
theorem changing_cases (disk : Disk) (change : Tree → Except Failure Tree) :
    ((disk.changing change).2.tree = disk.tree ∧ (disk.changing change).1 ≠ .ok ()) ∨
      ∃ tree, change disk.tree = .ok tree ∧ (disk.changing change).2.tree = tree ∧ (disk.changing change).1 = .ok () := by
  unfold changing
  simp only
  split
  · exact .inl ⟨meet_tree disk, by simp⟩
  · rw [meet_tree]
    split
    · next tree made => exact .inr ⟨tree, made, rfl, rfl⟩
    · exact .inl ⟨meet_tree disk, by simp⟩

theorem changing_failed {disk : Disk} {change : Tree → Except Failure Tree} (failed : (disk.changing change).1 ≠ .ok ()) :
    (disk.changing change).2.tree = disk.tree := by
  rcases changing_cases disk change with ⟨same, -⟩ | ⟨_, _, _, well⟩
  · exact same
  · exact absurd well failed

/-! ## Writing -/

section
variable {disk : Disk} {path : String} {location : Location}

/-- A file is written where a path leads to a file that does not refuse it, or to nothing. -/
theorem writable_ok {tree : Tree} {old : Option (ByteArray × Mode)} (able : writable tree path = .ok (location, old)) :
    tree.locate true path = .ok (spotAt tree location) ∧ location ≠ [] ∧
      tree.get? location = old.map fun (content, mode) => .file content mode := by
  unfold writable at able
  split at able
  · next there content mode located =>
    split at able
    · cases able
    · obtain ⟨rfl, rfl⟩ := by simpa using able
      have stands := (locate_sound located).2
      exact ⟨by rw [located, spotAt_of_get? stands], ne_nil_of_get? stands (by simp), stands⟩
  · cases able
  · cases able
  · next directory name located =>
    obtain ⟨rfl, rfl⟩ := by simpa using able
    have nothing := (locate_sound located).2
    exact ⟨by rw [located, spotAt_append nothing], by simp, nothing⟩
  · cases able

theorem free_of_writable {tree : Tree} {content : ByteArray} {mode : Mode}
    (able : writable tree path = .ok (location, some (content, mode))) : mode.refusal? = none := by
  unfold writable at able
  split at able
  · split at able
    · cases able
    · next free =>
      obtain ⟨-, -, rfl⟩ := by simpa using able
      exact free
  all_goals cases able

theorem writable_reached {tree : Tree} (reaches : Reaches tree path location) {there : Location}
    {old : Option (ByteArray × Mode)} (able : writable tree path = .ok (there, old)) :
    there = location ∧ location ≠ [] ∧ tree.get? location = old.map fun (content, mode) => .file content mode := by
  unfold writable at able
  split at able
  · next located =>
    split at able
    · cases able
    · obtain ⟨rfl, rfl⟩ := by simpa using able
      obtain ⟨rfl, found⟩ := reaches.found located
      exact ⟨rfl, ne_nil_of_get? found (by simp), found⟩
  · cases able
  · cases able
  · next located =>
    obtain ⟨rfl, rfl⟩ := by simpa using able
    exact reaches.missing located
  · cases able

/-- A file was written along a path, or nothing was. -/
def Wrote (path : String) (before after : Tree) : Prop :=
  after = before ∨ ∃ location old content mode, writable before path = .ok (location, old) ∧
    after = before.put location (.file content mode)

/-- Whatever becomes of a writing, it is the file at the end of the path that is written. -/
theorem writing_wrote (make : ByteArray → ByteArray) (mode? : Option Mode) :
    Wrote path disk.tree (disk.writing path make mode?).2.tree := by
  have kept := meet_tree disk
  unfold writing
  rcases meeting : disk.meet with ⟨fault, disk'⟩
  simp only [meeting] at kept ⊢
  split
  · exact .inl kept
  · rw [kept]
    split
    · exact .inl kept
    · next there old able =>
      split
      · exact .inr ⟨there, old, _, _, able, rfl⟩
      · exact .inr ⟨there, old, _, _, able, rfl⟩

theorem copy_wrote {source : String} : Wrote path disk.tree (disk.copy source path).2.tree := by
  unfold copy
  split
  · exact .inl (meet_tree disk)
  · exact writing_wrote _ _

theorem Wrote.changed {before after : Tree} (wrote : Wrote path before after) :
    Changed (fun x => ∃ old, writable before path = .ok (x, old)) Nowhere before after := by
  rcases wrote with same | ⟨location, old, content, mode, able, rfl⟩
  · exact .of_eq same
  · have change : Changed (At location) Nowhere before (before.put location (.file content mode)) :=
      changed_put (writable_ok able).2.1 before (by simp)
    exact change.mono (fun x it => ⟨old, it ▸ able⟩) fun _ it => it.elim

/-- Writing changes nothing but the file. When it ends well the file holds what was made of the old content. -/
theorem writing_reached (reaches : Reaches disk.tree path location) (make : ByteArray → ByteArray) (mode? : Option Mode) :
    Changed (At location) Nowhere disk.tree (disk.writing path make mode?).2.tree ∧
      ((disk.writing path make mode?).1 = .ok () →
        ∃ old : Option (ByteArray × Mode),
          disk.tree.get? location = old.map (fun (content, mode) => .file content mode) ∧
          (∀ pair ∈ old, pair.2.refusal? = none) ∧
          (disk.writing path make mode?).2.tree.get? location =
            some (.file (make ((old.map Prod.fst).getD ByteArray.empty))
              (mode?.getD ((old.map Prod.snd).getD .shared)))) := by
  have kept := meet_tree disk
  unfold writing
  rcases meeting : disk.meet with ⟨fault, disk'⟩
  simp only [meeting] at kept ⊢
  split
  · exact ⟨.of_eq kept, by simp⟩
  · rw [kept]
    split
    · exact ⟨.of_eq kept, by simp⟩
    · next there old able =>
      obtain ⟨rfl, some, stood⟩ := writable_reached reaches able
      split
      · exact ⟨changed_put some _ (by simp), by simp⟩
      · refine ⟨changed_put some _ (by simp), fun _ => ⟨old, stood, ?_, ?_⟩⟩
        · rintro ⟨content, mode⟩ rfl
          exact free_of_writable able
        · rw [Tree.get?_put some, if_pos rfl]

theorem write_spec (plain : Plain disk.tree location) (content : ByteArray) :
    Changed (At location) Nowhere disk.tree (disk.write (Tree.pathOf location) content).2.tree ∧
      ((disk.write (Tree.pathOf location) content).1 = .ok () →
        ∃ mode, (disk.write (Tree.pathOf location) content).2.tree.get? location = some (.file content mode) ∧
          ∀ old mode', disk.tree.get? location = some (.file old mode') → mode = mode' ∧ mode'.refusal? = none) := by
  obtain ⟨change, ended⟩ := writing_reached plain.reaches (fun _ => content) none
  refine ⟨change, fun well => ?_⟩
  obtain ⟨old, stood, free, stands⟩ := ended well
  refine ⟨_, stands, ?_⟩
  intro content' mode file
  rw [file] at stood
  cases old with
  | none => cases stood
  | some pair =>
    obtain ⟨rfl, rfl⟩ := by simpa using stood
    exact ⟨rfl, free pair rfl⟩

theorem append_spec (plain : Plain disk.tree location) (more : ByteArray) :
    Changed (At location) Nowhere disk.tree (disk.append (Tree.pathOf location) more).2.tree :=
  (writing_reached plain.reaches _ none).1

/-- Whatever becomes of a writing, a file is left in the mode that it had. -/
theorem write_mode (plain : Plain disk.tree location) (content : ByteArray) {old : ByteArray} {mode : Mode}
    (stood : disk.tree.get? location = some (.file old mode)) :
    ∃ now, (disk.write (Tree.pathOf location) content).2.tree.get? location = some (.file now mode) := by
  have kept := meet_tree disk
  unfold write writing
  rcases meeting : disk.meet with ⟨fault, disk'⟩
  simp only [meeting] at kept ⊢
  split
  · exact ⟨old, by rw [kept, stood]⟩
  · rw [kept]
    split
    · exact ⟨old, by rw [kept, stood]⟩
    · next there former able =>
      obtain ⟨rfl, some, stood'⟩ := writable_reached plain.reaches able
      obtain ⟨pair, rfl⟩ : ∃ pair, former = Option.some pair := by
        cases former with
        | none => rw [stood] at stood'; cases stood'
        | some pair => exact ⟨pair, rfl⟩
      obtain ⟨-, rfl⟩ : old = pair.1 ∧ mode = pair.2 := by
        rw [stood] at stood'
        simpa using stood'
      split
      · exact ⟨_, by rw [Tree.get?_put some, if_pos rfl]; rfl⟩
      · exact ⟨_, by rw [Tree.get?_put some, if_pos rfl]; rfl⟩

/-- Copying changes nothing but the copy. When it ends well the copy is what was copied, and what it took the place of could be
written. -/
theorem copy_reached {from_ : String} {source : Location} (origin : Reaches disk.tree from_ source)
    (reaches : Reaches disk.tree path location) :
    Changed (At location) Nowhere disk.tree (disk.copy from_ path).2.tree ∧
      ((disk.copy from_ path).1 = .ok () →
        (∃ content mode, disk.tree.get? source = some (.file content mode) ∧
          (disk.copy from_ path).2.tree.get? location = some (.file content mode.copied)) ∧
        ∀ old mode, disk.tree.get? location = some (.file old mode) → mode.refusal? = none) := by
  unfold copy
  split
  · exact ⟨.of_eq (meet_tree disk), by simp⟩
  · next content mode copied =>
    obtain ⟨change, ended⟩ := writing_reached reaches (fun _ => content) (some mode)
    refine ⟨change, fun well => ?_⟩
    obtain ⟨former, stood, able, stands⟩ := ended well
    refine ⟨?_, fun old mode there => ?_⟩
    · unfold Disk.copied at copied
      split at copied
      · next there found =>
        obtain ⟨rfl, rfl⟩ := by simpa using copied
        exact ⟨_, _, (origin.find? found).2, stands⟩
      · cases copied
      · cases copied
    · rw [there] at stood
      cases former with
      | none => cases stood
      | some pair =>
        obtain ⟨rfl, rfl⟩ := by simpa using stood
        exact able pair rfl

theorem copy_spec {source : Location} (from_ : Plain disk.tree source) (plain : Plain disk.tree location) :
    Changed (At location) Nowhere disk.tree (disk.copy (Tree.pathOf source) (Tree.pathOf location)).2.tree ∧
      ((disk.copy (Tree.pathOf source) (Tree.pathOf location)).1 = .ok () →
        (∃ content mode, disk.tree.get? source = some (.file content mode) ∧
          (disk.copy (Tree.pathOf source) (Tree.pathOf location)).2.tree.get? location =
            some (.file content mode.copied)) ∧
        ∀ old mode, disk.tree.get? location = some (.file old mode) → mode.refusal? = none) := copy_reached from_.reaches plain.reaches

/-- Only where a path leads anywhere is a file copied to it. -/
theorem located_of_copy {from_ : String} (ended : (disk.copy from_ path).1 = .ok ()) :
    ∃ spot, disk.tree.locate true path = .ok spot := by
  have kept := meet_tree disk
  unfold copy at ended
  split at ended
  · cases ended
  · unfold writing at ended
    rcases meeting : disk.meet with ⟨fault, disk'⟩
    simp only [meeting] at kept ended
    split at ended
    · cases ended
    · rw [kept] at ended
      cases located : disk.tree.locate true path with
      | ok spot => exact ⟨spot, rfl⟩
      | error e =>
        simp only [writable, located] at ended
        cases ended

/-! ## Changing entries -/

/-- Closing a file changes nothing, or closes the file that a path leads to. -/
theorem makePrivate_cases (disk : Disk) (path : String) :
    (disk.makePrivate path).2.tree = disk.tree ∨ ∃ location content mode, disk.tree.find? path = .ok (location, .file content mode) ∧
      (disk.makePrivate path).2.tree = disk.tree.put location (.file content mode.closed) := by
  unfold makePrivate
  generalize spelt : (fun tree : Tree => _) = change
  rcases changing_cases disk change with ⟨same, -⟩ | ⟨tree, made, same, -⟩
  · exact .inl same
  · rw [same]
    rw [← spelt] at made
    simp only at made
    split at made
    · next location content mode found => exact .inr ⟨location, content, mode, found, (Except.ok.inj made).symm⟩
    · exact .inl (Except.ok.inj made).symm
    · cases made

/-- Closing a file leaves its content. -/
theorem makePrivate_spec (plain : Plain disk.tree location) :
    Changed (At location) Nowhere disk.tree (disk.makePrivate (Tree.pathOf location)).2.tree ∧
      ∀ content mode, disk.tree.get? location = some (.file content mode) →
        ∃ mode, (disk.makePrivate (Tree.pathOf location)).2.tree.get? location = some (.file content mode) := by
  rcases makePrivate_cases disk (Tree.pathOf location) with same | ⟨there, content, mode, found, closed⟩
  · exact ⟨.of_eq same, fun _ mode there => ⟨mode, same ▸ there⟩⟩
  · rw [closed]
    obtain ⟨rfl, stood⟩ := plain.reaches.find? found
    have some := ne_nil_of_get? stood (by simp)
    refine ⟨changed_put some _ (by simp), fun content' mode' stands => ⟨mode.closed, ?_⟩⟩
    obtain ⟨rfl, rfl⟩ : content = content' ∧ mode = mode' := by simpa using stood.symm.trans stands
    rw [Tree.get?_put some, if_pos rfl]

/-- A removal does nothing, or takes away the file or link that a path leads to. -/
theorem removeFile_cases (disk : Disk) (path : String) :
    ((disk.removeFile path).2.tree = disk.tree ∧ (disk.removeFile path).1 ≠ .ok ()) ∨
      ∃ location entry, disk.tree.locate false path = .ok (.found location entry) ∧ entry ≠ .directory ∧
        (disk.removeFile path).2.tree = disk.tree.remove location := by
  unfold removeFile
  rcases changing_cases disk fun tree => removeIn tree path with same | ⟨tree, made, same, -⟩
  · exact .inl same
  · rw [same]
    unfold removeIn at made
    split at made
    · cases made
    · cases made
    · cases made
    · next location entry other located =>
      obtain rfl := Except.ok.inj made
      exact .inr ⟨location, entry, located, fun directory => other (directory ▸ rfl), rfl⟩

theorem removeFile_changed :
    Changed (fun x => ∃ entry, disk.tree.locate false path = .ok (.found x entry)) Nowhere disk.tree
      (disk.removeFile path).2.tree := by
  rcases removeFile_cases disk path with ⟨same, -⟩ | ⟨location, entry, located, other, removed⟩
  · exact .of_eq same
  · rw [removed]
    have some := ne_nil_of_get? (locate_sound located).2 other
    exact (changed_remove some _).mono (fun x it => ⟨entry, it ▸ located⟩) fun _ it => it.elim

theorem removeFile_reached (reaches : Reaches disk.tree path location) :
    Changed (At location) Nowhere disk.tree (disk.removeFile path).2.tree ∧
      ((disk.removeFile path).1 = .ok () → (disk.removeFile path).2.tree.get? location = none) := by
  refine ⟨removeFile_changed.mono (fun x ⟨entry, located⟩ => (reaches.found located).1) fun _ it => it.elim, fun well => ?_⟩
  rcases removeFile_cases disk path with ⟨-, failed⟩ | ⟨there, entry, located, other, removed⟩
  · exact absurd well failed
  · obtain ⟨rfl, stood⟩ := reaches.found located
    rw [removed, Tree.get?_remove (ne_nil_of_get? stood other), if_pos rfl]

theorem removeFile_spec (plain : Plain disk.tree location) :
    Changed (At location) Nowhere disk.tree (disk.removeFile (Tree.pathOf location)).2.tree :=
  (removeFile_reached plain.reaches).1

/-- A move does nothing, or takes what stands at the end of one path and puts it at the end of the other. -/
theorem rename_cases (disk : Disk) (source target : String) :
    ((disk.rename source target).2.tree = disk.tree ∧ (disk.rename source target).1 ≠ .ok ()) ∨
      ∃ origin entry spot, disk.tree.locate false source = .ok (.found origin entry) ∧ entry ≠ .directory ∧
        disk.tree.locate false target = .ok spot ∧ ¬ endsInDots target ∧ target.toList.getLast? ≠ some '/' ∧
        spot.place ≠ [] ∧ disk.tree.get? spot.place ≠ some .directory ∧ (disk.rename source target).1 = .ok () ∧
        (disk.rename source target).2.tree =
          if spot.place = origin then disk.tree else (disk.tree.remove origin).put spot.place entry := by
  unfold rename
  rcases changing_cases disk fun tree => renameIn tree source target with same | ⟨tree, made, same, well⟩
  · exact .inl same
  · rw [same]
    unfold renameIn at made
    split at made
    · cases made
    · cases made
    · cases made
    · next origin entry other located =>
      have movable : entry ≠ .directory := fun directory => by
        subst directory
        exact other rfl
      split at made
      · cases made
      · next spot aim =>
        refine .inr ⟨origin, entry, spot, located, movable, aim, ?_⟩
        split at made
        · cases made
        · next noDots =>
          split at made
          · cases made
          · next noSlash =>
            refine ⟨noDots, noSlash, ?_⟩
            split at made
            · cases made
            · next there entry' directory =>
              have stands := (locate_sound aim).2
              have proper : entry' ≠ .directory := fun it => by
                subst it
                exact directory rfl
              exact ⟨ne_nil_of_get? stands proper, by simpa [Spot.place, stands] using proper, well, (Except.ok.inj made).symm⟩
            · next house name slash =>
              have absent := (locate_sound aim).2
              have apart : house ++ [name] ≠ origin := fun same => by
                rw [same, (locate_sound located).2] at absent
                cases absent
              exact ⟨by simp [Spot.place], by simp [Spot.place, absent], well, by simp [Spot.place, apart, ← Except.ok.inj made]⟩

/-- A file or link can be moved to a name at which no directory stands. -/
theorem rename_well (sound : disk.meet.1 = none) {source target : String} {origin : Location} {entry : Entry} {spot : Spot}
    (located : disk.tree.locate false source = .ok (.found origin entry)) (movable : entry ≠ .directory)
    (aim : disk.tree.locate false target = .ok spot) (vacant : disk.tree.get? spot.place ≠ some .directory)
    (noDots : endsInDots target = false) (noSlash : target.toList.getLast? ≠ some '/') : (disk.rename source target).1 = .ok () := by
  have made : ∃ after, renameIn disk.tree source target = .ok after := by
    unfold renameIn
    rw [located]
    cases entry with
    | directory => exact absurd rfl movable
    | file | link =>
      simp only [aim, noDots, Bool.false_eq_true, if_false, noSlash]
      cases spot with
      | missing => exact ⟨_, rfl⟩
      | found there held =>
        cases held with
        | directory => exact absurd (locate_sound aim).2 vacant
        | file | link => exact ⟨_, rfl⟩
  obtain ⟨after, made⟩ := made
  unfold rename changing
  simp only [sound, meet_tree, made]

/-- A move that ends well has taken what stood at one place and put it at the other. -/
theorem rename_ok {source : Location} (from_ : Plain disk.tree source) (aimed : Aimed disk.tree location)
    (moved : (disk.rename (Tree.pathOf source) (Tree.pathOf location)).1 = .ok ()) :
    ∃ entry spot, disk.tree.get? source = some entry ∧ entry ≠ .directory ∧ location ≠ [] ∧
      disk.tree.locate false (Tree.pathOf location) = .ok spot ∧
      (disk.rename (Tree.pathOf source) (Tree.pathOf location)).2.tree =
        if location = source then disk.tree else (disk.tree.remove source).put location entry := by
  rcases rename_cases disk (Tree.pathOf source) (Tree.pathOf location) with
    ⟨-, failed⟩ | ⟨origin, entry, spot, located, movable, aim, -, -, some, -, -, after⟩
  · exact absurd moved failed
  · obtain ⟨rfl, stood⟩ := from_.reaches.found located
    obtain rfl : spot.place = location := by rw [aimed.spot aim, place_spotAt]
    exact ⟨entry, spot, stood, movable, some, aim, after⟩

theorem rename_gone {source : Location} (from_ : Plain disk.tree source) (aimed : Aimed disk.tree location)
    (apart : source ≠ location) (moved : (disk.rename (Tree.pathOf source) (Tree.pathOf location)).1 = .ok ()) :
    (disk.rename (Tree.pathOf source) (Tree.pathOf location)).2.tree.get? source = none := by
  obtain ⟨entry, spot, stood, movable, target, -, after⟩ := rename_ok from_ aimed moved
  have some : source ≠ [] := ne_nil_of_get? stood movable
  rw [after, if_neg (Ne.symm apart), Tree.get?_put target, if_neg apart, Tree.get?_remove some, if_pos rfl]

/-- Moving a file changes the two places only. When it ends well the entry is found at the new place. -/
theorem rename_spec {source : Location} (from_ : Plain disk.tree source) (aimed : Aimed disk.tree location) :
    Changed (fun x => x = source ∨ x = location) Nowhere disk.tree
        (disk.rename (Tree.pathOf source) (Tree.pathOf location)).2.tree ∧
      ((disk.rename (Tree.pathOf source) (Tree.pathOf location)).1 = .ok () → ∀ entry, disk.tree.get? source = some entry →
        (disk.rename (Tree.pathOf source) (Tree.pathOf location)).2.tree.find? (Tree.pathOf location) =
          .ok (location, entry)) := by
  by_cases moved : (disk.rename (Tree.pathOf source) (Tree.pathOf location)).1 = .ok ()
  · obtain ⟨entry, spot, stood, movable, target, aim, after⟩ := rename_ok from_ aimed moved
    rw [after]
    have proper : source ≠ [] := ne_nil_of_get? stood movable
    have direct : ∀ target, entry ≠ .link target := by
      rintro target rfl
      exact from_.straight source List.prefix_rfl target stood
    split
    · next same =>
      subst same
      refine ⟨.refl _, fun _ other there => ?_⟩
      exact find?_of_locate (locate_again from_.named from_.straight (fun _ _ _ => rfl) aim true) there
    · have change : Changed (fun x => x = source ∨ x = location) Nowhere disk.tree
          ((disk.tree.remove source).put location entry) := by
        refine ((changed_remove proper _).mono (fun x it => .inl it) fun x it => it.elim).trans ?_
        exact (changed_put target _ direct).mono (fun x it => .inr it) fun x it => it.elim
      refine ⟨change, fun _ other there => ?_⟩
      rw [stood] at there
      obtain rfl := Option.some.inj there
      have stands : ((disk.tree.remove source).put location entry).get? location = some entry := by
        rw [Tree.get?_put target, if_pos rfl]
      have straight : Straight ((disk.tree.remove source).put location entry) location := by
        intro upper short target' link
        by_cases whole : upper = location
        · rw [whole, stands] at link
          exact direct target' (Option.some.inj link)
        · exact aimed.above upper short whole target' (change.link link)
      refine find?_of_locate (locate_again aimed.named straight ?_ aim true) stands
      -- What stands above the place is a directory, and no directory was moved.
      intro upper short above
      have directory := (aimed.settled aim).above upper short above
      refine change.rest ?_ id
      rintro (rfl | whole)
      · rw [stood] at directory
        exact movable (Option.some.inj directory)
      · exact above whole
  · exact ⟨.of_eq (changing_failed moved), fun well => absurd well moved⟩

/-! ## Making directories -/

/-- Making a directory changes nothing, or puts it where a walk misses it. -/
theorem makeDirectory_cases (disk : Disk) (path : String) :
    (disk.makeDirectory path).2.tree = disk.tree ∨ ∃ directory name slash,
      disk.tree.locate false path = .ok (.missing directory name slash) ∧
      (disk.makeDirectory path).2.tree = disk.tree.put (directory ++ [name]) .directory := by
  unfold makeDirectory
  rcases changing_cases disk fun tree => makeDirectoryIn tree path with ⟨same, -⟩ | ⟨tree, made, same, -⟩
  · exact .inl same
  · rw [same]
    unfold makeDirectoryIn at made
    split at made
    · cases made
    · cases made
    · next directory name slash located =>
      obtain rfl := Except.ok.inj made
      exact .inr ⟨directory, name, slash, located, rfl⟩

/-- A directory is put where nothing is. -/
theorem changed_put_directory {tree : Tree} {directory : Location} {name : String}
    (nothing : tree.get? (directory ++ [name]) = none) :
    Changed Nowhere (At (directory ++ [name])) tree (tree.put (directory ++ [name]) .directory) := by
  intro x
  rw [Tree.get?_put (by simp)]
  by_cases it : x = directory ++ [name]
  · rw [if_pos it]
    exact .inr (.inr ⟨it, it ▸ nothing, rfl⟩)
  · rw [if_neg it]
    exact .inl rfl

theorem makeDirectory_spec (plain : Plain disk.tree location) :
    Changed Nowhere (At location) disk.tree (disk.makeDirectory (Tree.pathOf location)).2.tree := by
  rcases makeDirectory_cases disk (Tree.pathOf location) with same | ⟨directory, name, slash, located, made⟩
  · exact .of_eq same
  · obtain ⟨rfl, -, nothing⟩ := plain.reaches.missing located
    rw [made]
    exact changed_put_directory nothing

theorem makeChain_spec {paths : List String} {made : Location → Prop}
    (each : ∀ path ∈ paths, ∃ location, path = Tree.pathOf location ∧ made location ∧ Plain disk.tree location) :
    Changed Nowhere made disk.tree (disk.makeChain paths).2.tree := by
  induction paths generalizing disk with
  | nil => exact .refl _
  | cons path outer ih =>
    obtain ⟨location, rfl, may, plain⟩ := each path List.mem_cons_self
    have one : ∀ {disk : Disk}, Plain disk.tree location →
        Changed Nowhere made disk.tree (disk.makeDirectory (Tree.pathOf location)).2.tree :=
      fun plain => (makeDirectory_spec plain).mono (fun _ it => it) fun x it _ => .inr (it ▸ may)
    have first := one plain
    unfold makeChain
    split
    · next disk' same =>
      rw [same] at first
      exact first
    · next disk' same =>
      rw [same] at first
      have rest := @ih disk' fun path member => by
        obtain ⟨location, rfl, may, plain⟩ := each path (List.mem_cons_of_mem _ member)
        exact ⟨location, rfl, may, first.plain plain⟩
      split
      · next e disk'' same =>
        rw [same] at rest
        exact first.trans rest
      · next disk'' same =>
        rw [same] at rest
        have so_far := first.trans rest
        have again := so_far.trans (one (so_far.plain plain))
        split
        · next disk''' same =>
          rw [same] at again
          exact again
        · next e disk''' same =>
          rw [same] at again
          exact again
    · next e disk' _ same =>
      rw [same] at first
      exact first

theorem makeDirectories_spec (plain : Plain disk.tree location) :
    Changed Nowhere (· <+: location) disk.tree (disk.makeDirectories (Tree.pathOf location)).2.tree := by
  refine makeChain_spec fun path member => ?_
  obtain ⟨upper, short, rfl⟩ := mem_chainOf plain.named member
  exact ⟨upper, rfl, short, plain.named.of_prefix short, fun higher shorter => plain.straight higher (shorter.trans short)⟩

/-! ## Replacing a file as a whole -/

/-- Replacing a file changes the file and the one beside it, and makes the directories above them. When it ends well the
file is found with the new content. -/
theorem writeAtomic_spec {beside : Location} (plain : Plain disk.tree location) (plain' : Plain disk.tree beside)
    (temporary : temporary (Tree.pathOf location) = Tree.pathOf beside) (content : String) :
    Changed (fun x => x = beside ∨ x = location) (· <+: location.dropLast) disk.tree
        (disk.writeAtomic (Tree.pathOf location) content).2.tree ∧
      ((disk.writeAtomic (Tree.pathOf location) content).1 = .ok () →
        ∃ mode, (disk.writeAtomic (Tree.pathOf location) content).2.tree.find? (Tree.pathOf location) =
          .ok (location, .file content.toUTF8 mode)) := by
  have surroundings : Changed (fun x => x = beside ∨ x = location) (· <+: location.dropLast) disk.tree
      (disk.makeSurroundings (Tree.pathOf location)).2.tree := by
    unfold makeSurroundings
    rw [directory?_pathOf plain.named]
    split
    · exact .refl _
    · next directory found =>
      by_cases top : location = []
      · simp [top] at found
      · rw [if_neg top, Option.some.injEq] at found
        subst found
        rw [String.ofList_toList]
        have above : Plain disk.tree location.dropLast :=
          ⟨plain.named.of_prefix (List.dropLast_prefix _), fun upper short =>
            plain.straight upper (short.trans (List.dropLast_prefix _))⟩
        exact (makeDirectories_spec above).mono (fun x it => it.elim) fun x it _ => .inr it
  have lift : ∀ {one : Location → Prop} {before after : Tree}, Changed one Nowhere before after →
      (∀ x, one x → x = beside ∨ x = location) →
      Changed (fun x => x = beside ∨ x = location) (· <+: location.dropLast) before after :=
    fun change more => change.mono more fun x it => it.elim
  unfold writeAtomic
  split
  · next e disk₁ same =>
    rw [same] at surroundings
    exact ⟨surroundings, by simp⟩
  · next disk₁ same =>
    rw [same] at surroundings
    have write := write_spec (surroundings.plain plain') content.toUTF8
    rw [← temporary] at write
    split
    · next e disk₂ same =>
      rw [same] at write
      exact ⟨surroundings.trans (lift write.1 fun x it => .inl it), by simp⟩
    · next disk₂ same =>
      rw [same] at write
      have written := surroundings.trans (lift write.1 fun x it => .inl it)
      obtain ⟨mode, stands, -⟩ := write.2 rfl
      have close := makePrivate_spec (written.plain plain')
      rw [← temporary] at close
      obtain ⟨mode', stands⟩ := close.2 _ _ stands
      have closed := written.trans (lift close.1 fun x it => .inl it)
      have move := rename_spec (closed.plain plain') (closed.plain plain).aimed
      rw [← temporary] at move
      unfold settle
      split
      · next disk₄ same =>
        rw [same] at move
        exact ⟨closed.trans (lift move.1 fun x it => it), fun _ => ⟨mode', move.2 rfl _ stands⟩⟩
      · next e disk₄ same =>
        rw [same] at move
        have moved := closed.trans (lift move.1 fun x it => it)
        have away := removeFile_spec (moved.plain plain')
        rw [← temporary] at away
        exact ⟨moved.trans (lift away fun x it => .inl it), by simp⟩

end

end Disk

end GatedRepair.Files
