import GatedRepair.Proofs.Files.Shape
import GatedRepair.Proofs.State.Loading

/-!
# What becomes of files without a document

A file that holds text but no document counts as missing when it is loaded, and is moved aside under a name that tells the
second. Whatever is loaded, saved and put into the state file afterwards, the copy of a second holds the text that was
rejected last in that second (`last_rejected_is_kept`). So of two texts that are rejected in one second the first is lost
(`first_rejected_is_lost`).
-/

namespace GatedRepair.Files

open Text

theorem ofParts_concat_append (parts : List (List Char)) (stem more : List Char) :
    Path.ofParts (parts ++ [stem ++ more]) = Path.ofParts (parts ++ [stem]) ++ more := by
  induction parts with
  | nil => simp [Path.ofParts, List.intercalate_singleton]
  | cons part rest ih =>
    cases rest with
    | nil => simp [Path.ofParts, List.intercalate_cons_cons, List.intercalate_singleton]
    | cons next rest => simpa [Path.ofParts, List.intercalate_cons_cons] using ih

/-- The name of the file that holds new content until it is complete ends in `tmp`. -/
theorem getLast?_of_temporary {house : Location} {path : String} {beside : String} (named : IsNamed house) (good : IsName beside)
    (temporary : Disk.temporary path = Tree.pathOf (house ++ [beside])) : beside.toList.getLast? = some 'p' := by
  obtain ⟨front, spelt⟩ := pathOf_front house
  have ending : (Tree.pathOf (house ++ [beside])).toList.getLast? = beside.toList.getLast? := by
    rw [spelt, List.getLast?_append_of_ne_nil _ good.ne_nil]
  rw [← ending, ← temporary, Disk.temporary, String.toList_ofList]
  rw [Disk.temporary, ← String.toList_inj, String.toList_ofList] at temporary
  unfold Path.withExtension at temporary ⊢
  simp only at temporary ⊢
  generalize path.toList.take _ = cut at temporary ⊢
  unfold Path.extended at temporary ⊢
  split
  · next none =>
    -- A path without a file name is no path of a location with a name at its end.
    rw [none] at temporary
    simp only at temporary
    rw [temporary, fileName?_pathOf named good] at none
    cases none
  · next name found =>
    rw [ofParts_concat_append, List.getLast?_append_of_ne_nil _ (by simp)]
    rfl

end GatedRepair.Files

namespace GatedRepair.State

open Files

/-! ## Names -/

theorem getLast?_stamp (now : Timestamp) : ∃ digit, now.stamp.toList.getLast? = some digit ∧ digit ≠ 'p' := by
  have any : Number.padded 10 2 now.second ≠ [] := Number.padded_ne_nil 10 2 now.second
  have last : now.stamp.toList.getLast? = some ((Number.padded 10 2 now.second).getLast any) := by
    rw [Timestamp.stamp, String.toList_ofList, List.getLast?_append_of_ne_nil _ any, List.getLast?_eq_some_getLast any]
  refine ⟨_, last, fun letter => ?_⟩
  have digit := Number.digit?_padded (letter ▸ List.getLast_mem any)
  exact absurd digit (by decide)

/-- Nothing is set aside in the file that holds new content until it is complete. -/
theorem temporary_ne_aside {house : Location} {path name beside : String} (named : IsNamed house) (good : IsName beside)
    (temporary : Disk.temporary path = Tree.pathOf (house ++ [beside])) (now : Timestamp) : beside ≠ aside name now := by
  rintro rfl
  obtain ⟨digit, last, other⟩ := getLast?_stamp now
  have some : now.stamp.toList ≠ [] := by
    intro empty
    rw [empty] at last
    cases last
  have letter := getLast?_of_temporary named good temporary
  rw [toList_aside, ← List.append_assoc, List.getLast?_append_of_ne_nil _ some, last] at letter
  exact other (Option.some.inj letter)

theorem aside_inj {name : String} {now later : Timestamp} (same : aside name now = aside name later) :
    now.stamp = later.stamp := by
  rw [← String.toList_inj, toList_aside, toList_aside] at same
  exact String.toList_inj.mp (List.append_cancel_left (List.append_cancel_left same))

/-! ## What happens to a state file -/

/-- What happens to a state file: it is loaded, a document is saved in it, or somebody else gives it new content. -/
inductive Event where
  | load (now : Timestamp)
  | save (document : Json)
  | overwrite (content : ByteArray) (mode : Mode)

section
variable {α : Type} (ofJson? : Json → Option α) (file : Location)

namespace Event

/-- The disk after an event. -/
def apply : Event → Disk → Disk
  | load now, disk => (State.load ofJson? disk (Tree.pathOf file) now).2
  | save document, disk => (State.save document disk (Tree.pathOf file)).2
  | overwrite content isPrivate, disk => { disk with tree := disk.tree.put file (.file content isPrivate) }

/-- The text that is found in place of a document, so that the file counts as missing, and when. -/
def rejected? : Event → Disk → Option (Timestamp × String)
  | load now, disk =>
    match (disk.readText (Tree.pathOf file)).1, (State.load ofJson? disk (Tree.pathOf file) now).1 with
    | .ok text, .ok none => some (now, text)
    | _, _ => none
  | _, _ => none

/-- The move with which a file is set aside goes well, if one is. -/
def moves (e : Event) (disk : Disk) : Bool :=
  ((e.rejected? ofJson? file disk).bind fun (now, _) => asidePath? (Tree.pathOf file) now).all fun aside =>
    ((disk.readText (Tree.pathOf file)).2.rename (Tree.pathOf file) aside).1 = .ok ()

end Event

/-- The disk after one event after another. -/
def course (events : List Event) (disk : Disk) : Disk := events.foldl (fun disk e => e.apply ofJson? file disk) disk

/-- The texts that were rejected, each with its time. -/
def rejected : List Event → Disk → List (Timestamp × String)
  | [], _ => []
  | e :: more, disk => (e.rejected? ofJson? file disk).toList ++ rejected more (e.apply ofJson? file disk)

/-- All files that are set aside are moved well. -/
def allMove : List Event → Disk → Bool
  | [], _ => true
  | e :: more, disk => e.moves ofJson? file disk && allMove more (e.apply ofJson? file disk)

end

/-- A state file of a name in a directory that can be reached without links, with none in it, and the name of the file that
holds its new content until it is complete. -/
structure Sheltered (house : Location) (name beside : String) (tree : Tree) : Prop where
  named : IsNamed house
  good : IsName name
  good' : IsName beside
  temporary : Disk.temporary (Tree.pathOf (house ++ [name])) = Tree.pathOf (house ++ [beside])
  way : Straight tree house
  direct : ∀ other target, tree.get? (house ++ [other]) ≠ some (.link target)

section
variable {α : Type} {ofJson? : Json → Option α} {house : Location} {name beside : String} {before after : Tree} {disk : Disk}
  {now : Timestamp} {text : String}

theorem Sheltered.plain (sheltered : Sheltered house name beside before) {other : String} (good : IsName other) :
    Plain before (house ++ [other]) := by
  refine ⟨sheltered.named.append good, fun upper short target => ?_⟩
  rcases List.prefix_concat_iff.mp short with rfl | higher
  · exact sheltered.direct other target
  · exact sheltered.way upper higher target

theorem Sheltered.changed {written made : Location → Prop} (sheltered : Sheltered house name beside before)
    (change : Changed written made before after) : Sheltered house name beside after :=
  { sheltered with
    way := change.straight sheltered.way
    direct := fun other target link => sheltered.direct other target (change.link link) }

/-- A load rejects nothing and leaves the files as they are, or it rejects the text that was read and sets its file aside. -/
theorem load_cases (ofJson? : Json → Option α) (file : Location) (disk : Disk) (now : Timestamp) :
    ((Event.load now).rejected? ofJson? file disk = none ∧ (load ofJson? disk (Tree.pathOf file) now).2.tree = disk.tree) ∨
      ∃ text, (Event.load now).rejected? ofJson? file disk = some (now, text) ∧
        disk.tree.readText (Tree.pathOf file) = .ok text ∧
        (load ofJson? disk (Tree.pathOf file) now).2 =
          setAside (disk.readText (Tree.pathOf file)).2 (Tree.pathOf file) now := by
  have kept : (disk.readText (Tree.pathOf file)).2.tree = disk.tree := Disk.reading_tree _ _
  simp only [Event.rejected?, load]
  rcases read : disk.readText (Tree.pathOf file) with ⟨result, after⟩
  rw [read] at kept
  cases result with
  | error e => cases e <;> exact .inl ⟨rfl, kept⟩
  | ok text =>
    cases document : (Json.parse? text).bind ofJson? with
    | some value =>
      simp only [document]
      exact .inl ⟨trivial, kept⟩
    | none =>
      simp only [document]
      exact .inr ⟨text, rfl, (readText_ok (congrArg Prod.fst read)).1, trivial⟩

theorem Sheltered.setAside_eq (sheltered : Sheltered house name beside before) (disk : Disk) (now : Timestamp) :
    setAside disk (Tree.pathOf (house ++ [name])) now =
      (disk.rename (Tree.pathOf (house ++ [name])) (Tree.pathOf (house ++ [aside name now]))).2 := by
  unfold setAside
  rw [asidePath?_pathOf sheltered.named sheltered.good]

/-- An event changes the state file, the one beside it, and the one that is set aside. -/
theorem Event.apply_changed (sheltered : Sheltered house name beside disk.tree) (e : Event) :
    Changed
      (fun x => x = house ++ [beside] ∨ x = house ++ [name] ∨
        ∃ now text, e.rejected? ofJson? (house ++ [name]) disk = some (now, text) ∧ x = house ++ [aside name now])
      (· <+: house) disk.tree (e.apply ofJson? (house ++ [name]) disk).tree := by
  have plain := sheltered.plain sheltered.good
  cases e with
  | load now =>
    rcases load_cases ofJson? (house ++ [name]) disk now with ⟨-, same⟩ | ⟨text, rejects, -, moved⟩
    · exact .of_eq same
    · have kept : (disk.readText (Tree.pathOf (house ++ [name]))).2.tree = disk.tree := Disk.reading_tree _ _
      rw [Event.apply, moved, sheltered.setAside_eq, ← kept]
      have move := (@Disk.rename_spec _ _ _ (kept ▸ plain)
        (kept ▸ (sheltered.plain (isName_aside sheltered.good now)).aimed)).1
      refine move.mono ?_ fun x it => it.elim
      rintro x (rfl | rfl)
      · exact .inr (.inl rfl)
      · exact .inr (.inr ⟨now, text, rejects, rfl⟩)
  | save document =>
    have write := (Disk.writeAtomic_spec plain (sheltered.plain sheltered.good') sheltered.temporary document.pretty).1
    rw [List.dropLast_concat] at write
    have saved : (Event.apply ofJson? (house ++ [name]) (.save document) disk).tree =
        (disk.writeAtomic (Tree.pathOf (house ++ [name])) document.pretty).2.tree := by
      show (State.save document disk (Tree.pathOf (house ++ [name]))).2.tree = _
      unfold State.save
      split
      · next same => rw [same]
      · next same => rw [same]
    rw [saved]
    refine write.mono ?_ fun x it _ => .inr it
    rintro x (rfl | rfl)
    · exact .inl rfl
    · exact .inr (.inl rfl)
  | overwrite content isPrivate =>
    exact (changed_put (by simp) disk.tree (by simp)).mono (fun x it => .inr (.inl it)) fun x it => it.elim

/-! ## The copies -/

/-- The copy of a second holds a text. -/
def Copied (house : Location) (name : String) (tree : Tree) (rejected : Timestamp × String) : Prop :=
  tree.readText (Tree.pathOf (house ++ [aside name rejected.1])) = .ok rejected.2

/-- A copy stays as it is while nothing is set aside in the same second. -/
theorem Copied.stays (sheltered : Sheltered house name beside disk.tree) {rejected : Timestamp × String}
    (copied : Copied house name disk.tree rejected) {e : Event}
    (other : ∀ later ∈ e.rejected? ofJson? (house ++ [name]) disk, later.1.stamp ≠ rejected.1.stamp) :
    Copied house name (e.apply ofJson? (house ++ [name]) disk).tree rejected := by
  have plain := sheltered.plain (isName_aside sheltered.good rejected.1)
  have change := @Event.apply_changed _ ofJson? _ _ _ _ sheltered e
  obtain ⟨spot, located⟩ := located_of_readText copied
  have above := (locate_above plain located).above
  refine (readText_alike plain fun upper short => ?_).trans copied
  have names : ∀ another : String, aside name rejected.1 ≠ another → house ++ [aside name rejected.1] ≠ house ++ [another] :=
    fun another apart => ne_of_name apart
  rcases List.prefix_concat_iff.mp short with rfl | higher
  · refine change.rest ?_ fun short => absurd short.length_le (by simp)
    rintro (same | same | ⟨now, text, rejects, same⟩)
    · exact names _ (temporary_ne_aside sheltered.named sheltered.good' sheltered.temporary _).symm same
    · exact names _ (aside_ne name _) same
    · refine names _ (fun equal => ?_) same
      exact other (now, text) rejects (aside_inj equal).symm
  · -- What stands above the copy are directories, and these stay.
    have longer : ∀ another : String, upper ≠ house ++ [another] := by
      rintro another rfl
      exact absurd higher.length_le (by simp)
    have directory := above upper short fun whole => longer _ whole
    rw [directory]
    refine change.stays ?_ directory
    rintro (same | same | ⟨now, text, -, same⟩) <;> exact longer _ same

/-- A text that is rejected is held by the copy of the second, if its file is moved well. -/
theorem copied_of_rejected (sheltered : Sheltered house name beside disk.tree) {e : Event} {rejected : Timestamp × String}
    (rejects : e.rejected? ofJson? (house ++ [name]) disk = some rejected)
    (moves : e.moves ofJson? (house ++ [name]) disk = true) :
    Copied house name (e.apply ofJson? (house ++ [name]) disk).tree rejected := by
  cases e with
  | save document => cases rejects
  | overwrite content isPrivate => cases rejects
  | load now =>
    have plain := sheltered.plain sheltered.good
    have target := sheltered.plain (isName_aside sheltered.good now)
    have kept : (disk.readText (Tree.pathOf (house ++ [name]))).2.tree = disk.tree := Disk.reading_tree _ _
    rcases load_cases ofJson? (house ++ [name]) disk now with ⟨none, -⟩ | ⟨text, some, reads, aside⟩
    · rw [none] at rejects
      cases rejects
    · obtain rfl : (now, text) = rejected := Option.some.inj (some.symm.trans rejects)
      have moved : ((disk.readText (Tree.pathOf (house ++ [name]))).2.rename (Tree.pathOf (house ++ [name]))
          (Tree.pathOf (house ++ [State.aside name now]))).1 = .ok () := by
        simpa [Event.moves, some, asidePath?_pathOf sheltered.named sheltered.good] using moves
      have spec := (@Disk.rename_spec _ _ _ (kept ▸ plain) (kept ▸ target.aimed)).2 moved
      -- The text was read in the file, which is what has been moved.
      obtain ⟨location, content, mode, there, decoded⟩ := find?_of_readText reads
      obtain ⟨rfl, stands⟩ := plain.reaches.find? there
      rw [kept] at spec
      unfold Copied
      rw [Event.apply, aside, sheltered.setAside_eq]
      unfold Tree.readText Tree.read
      rw [spec _ stands]
      simp only [decoded]

/-- The copy of each second holds the text that was rejected last in it. -/
def Preserved (house : Location) (name : String) (rejected : List (Timestamp × String)) (tree : Tree) : Prop :=
  ∀ front one back, rejected = front ++ one :: back → (∀ later ∈ back, later.1.stamp ≠ one.1.stamp) → Copied house name tree one

/-- After one more event, the copy of each second holds the text that was rejected last in it. -/
theorem Preserved.event (sheltered : Sheltered house name beside disk.tree) {earlier : List (Timestamp × String)}
    (preserved : Preserved house name earlier disk.tree) {e : Event} (moves : e.moves ofJson? (house ++ [name]) disk = true) :
    Preserved house name (earlier ++ (e.rejected? ofJson? (house ++ [name]) disk).toList)
      (e.apply ofJson? (house ++ [name]) disk).tree := by
  intro front one back split last
  cases rejects : e.rejected? ofJson? (house ++ [name]) disk with
  | none =>
    rw [rejects, Option.toList_none, List.append_nil] at split
    exact (preserved front one back split last).stays sheltered (by simp [rejects])
  | some latest =>
    rw [rejects, Option.toList_some] at split
    rcases List.eq_nil_or_concat' back with rfl | ⟨between, final, rfl⟩
    · obtain ⟨-, rfl⟩ : earlier = front ∧ latest = one := by simpa using List.append_inj' split rfl
      exact copied_of_rejected sheltered rejects moves
    · rw [← List.cons_append, ← List.append_assoc] at split
      obtain ⟨first, same⟩ := List.append_inj' split rfl
      obtain rfl : latest = final := by simpa using same
      refine (preserved front one between first fun later member => last later (by simp [member])).stays sheltered ?_
      intro later it
      obtain rfl : latest = later := Option.some.inj (rejects.symm.trans it)
      exact last latest (by simp)

theorem Preserved.events (sheltered : Sheltered house name beside disk.tree) {earlier : List (Timestamp × String)}
    (preserved : Preserved house name earlier disk.tree) {events : List Event}
    (moves : allMove ofJson? (house ++ [name]) events disk = true) :
    Preserved house name (earlier ++ rejected ofJson? (house ++ [name]) events disk)
      (course ofJson? (house ++ [name]) events disk).tree := by
  induction events generalizing disk earlier with
  | nil => simpa [rejected, course] using preserved
  | cons e more ih =>
    obtain ⟨first, rest⟩ := Bool.and_eq_true_iff.mp moves
    have next := ih (sheltered.changed (e.apply_changed sheltered)) (preserved.event sheltered first) rest
    rw [List.append_assoc] at next
    exact next

/-- Whatever is loaded, saved and put into a state file, in a directory without links and with moves that go well: the copy of
a second holds, in full, the text that was rejected last in that second. -/
theorem last_rejected_is_kept (sheltered : Sheltered house name beside disk.tree) {events : List Event}
    (moves : allMove ofJson? (house ++ [name]) events disk = true) {front back : List (Timestamp × String)}
    (rejects : rejected ofJson? (house ++ [name]) events disk = front ++ (now, text) :: back)
    (last : ∀ later ∈ back, later.1.stamp ≠ now.stamp) :
    (course ofJson? (house ++ [name]) events disk).tree.readText (Tree.pathOf (house ++ [aside name now])) = .ok text := by
  have none : Preserved house name [] disk.tree := fun front one back split => by simp at split
  have kept := Preserved.events sheltered none moves
  rw [List.nil_append] at kept
  exact kept front (now, text) back rejects last

end

/-- A text without a document is rejected, and so is another that was put in its place. The copy of the first second still
holds the first. -/
theorem earlier_copy_is_kept :
    let disk : Disk := .sound ⟨[(["r"], .directory), (["r", ".remedy"], .directory),
      (["r", ".remedy", "defects.json"], .file "\x7bfirst".toUTF8 .shared)]⟩
    let later : Timestamp := ⟨1970, 1, 1, 0, 0, 1, 0, by decide⟩
    let events : List Event := [.load .epoch, .overwrite "\x7bsecond".toUTF8 .shared, .load later]
    let file := ["r", ".remedy", "defects.json"]
    rejected Ledger.ofDocument? file events disk = [(.epoch, "\x7bfirst"), (later, "\x7bsecond")] ∧
      (course Ledger.ofDocument? file events disk).tree.readText "/r/.remedy/defects.json.corrupt-19700101T000000" =
        .ok "\x7bfirst" := by
  intro disk later events file
  have links : ∀ location target, disk.tree.get? location ≠ some (.link target) :=
    fun location => Tree.get?_ne_link (by simp [disk, Disk.sound]) location
  have named : IsNamed ["r"] := by decide
  have temporary := temporary_defects named
  rw [defectsPath_pathOf (by decide)] at temporary
  have sheltered : Sheltered ["r", ".remedy"] "defects.json" "defects.tmp" disk.tree :=
    { named := by decide
      good := by decide
      good' := by decide
      temporary := temporary
      way := fun upper _ target => links upper target
      direct := fun _ target => links _ target }
  have rejects : rejected Ledger.ofDocument? file events disk = [(.epoch, "\x7bfirst"), (later, "\x7bsecond")] := by
    decide +kernel
  have kept := @last_rejected_is_kept _ Ledger.ofDocument? _ _ _ _ _ _ sheltered events (by decide +kernel) [] _ rejects
    (by decide +kernel)
  have path : Tree.pathOf (["r", ".remedy"] ++ [aside "defects.json" .epoch]) =
      "/r/.remedy/defects.json.corrupt-19700101T000000" := by
    decide +kernel
  exact ⟨rejects, path ▸ kept⟩

/-- Two texts without a document are rejected in one second. Then the first is in no file any more. -/
theorem first_rejected_is_lost :
    let disk : Disk := .sound ⟨[(["r"], .directory), (["r", ".remedy"], .directory),
      (["r", ".remedy", "defects.json"], .file "\x7bfirst".toUTF8 .shared)]⟩
    let events : List Event := [.load .epoch, .overwrite "\x7bsecond".toUTF8 .shared, .load .epoch]
    let file := ["r", ".remedy", "defects.json"]
    rejected Ledger.ofDocument? file events disk = [(.epoch, "\x7bfirst"), (.epoch, "\x7bsecond")] ∧
      allMove Ledger.ofDocument? file events disk = true ∧
      ∀ location mode,
        (course Ledger.ofDocument? file events disk).tree.get? location ≠ some (.file "\x7bfirst".toUTF8 mode) := by
  intro disk events file
  have left : (course Ledger.ofDocument? file events disk).tree.entries =
      [(["r"], .directory), (["r", ".remedy"], .directory),
        (["r", ".remedy", "defects.json.corrupt-19700101T000000"], .file "\x7bsecond".toUTF8 .shared)] := by
    decide +kernel
  have other : "\x7bsecond".toUTF8 ≠ "\x7bfirst".toUTF8 := by decide +kernel
  refine ⟨by decide +kernel, by decide +kernel, fun location mode holds => ?_⟩
  simp only [Tree.get?, left, Tree.lookup_cons_if] at holds
  split_ifs at holds <;> simp_all

end GatedRepair.State
