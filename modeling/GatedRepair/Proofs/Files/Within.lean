import GatedRepair.Proofs.Files.Change
import GatedRepair.Proofs.Text.Part

/-!
# Files within a directory

The path of a name below a directory leads to that name in the directory, however the directory's own path is spelt and
through whatever links it leads (`reaches_within`). What is done at such a path keeps the directory where it is, as long as
directories and links stay (`find?_firm`).
-/

namespace GatedRepair.Files

open Text

/-! ## The parts of a path within a directory -/

/-- The names in a path, and the dots. -/
def namesIn (path : List Char) : List String := ((split '/' path).filter (!·.isEmpty)).map String.ofList

theorem pathParts_eq (path : List Char) : pathParts path = namesIn path ∨ pathParts path = namesIn path ++ [""] := by
  unfold pathParts
  simp only
  split
  · exact .inr rfl
  · exact .inl rfl

/-- A slash and a name, after a path. -/
theorem pathParts_append_name {name : String} (good : IsName name) (path : List Char) :
    pathParts (path ++ '/' :: name.toList) = namesIn path ++ [name] := by
  have last : (split '/' path ++ [name.toList]).getLast? ≠ some [] := by
    rw [List.getLast?_concat]
    exact fun empty => good.ne_nil (Option.some.inj empty)
  unfold pathParts
  simp only [split_append_of_free good.2.2]
  rw [if_neg fun both => last both.1, List.filter_append, List.filter_cons_of_pos (by simp [good.ne_nil])]
  simp [namesIn]

theorem namesIn_append_slash (path : List Char) : namesIn (path ++ ['/']) = namesIn path := by
  have cut : split '/' (path ++ ['/']) = split '/' path ++ [[]] := split_append_of_free List.not_mem_nil path
  unfold namesIn
  rw [cut, List.filter_append]
  simp

/-- The text of a path within a directory: the directory's without a slash at its end, a slash and the name. -/
theorem toList_within {directory name : String} (some : directory ≠ "") (good : IsName name) :
    ∃ path, (Path.within directory name).toList = path ++ '/' :: name.toList ∧
      namesIn path = namesIn directory.toList ∧ ∃ slash, directory.toList = path ++ slash ∧ slash ∈ [[], ['/']] := by
  have relative := good.relative
  unfold Path.within Path.joined
  rw [String.toList_ofList, relative, if_neg Bool.false_ne_true]
  by_cases open_ : directory.toList.getLast? = Option.some '/'
  · obtain ⟨path, spelt⟩ := List.getLast?_eq_some_iff.mp open_
    refine ⟨path, ?_, ?_, ['/'], spelt, by simp⟩
    · rw [if_pos (.inl open_), spelt]
      simp
    · rw [spelt, namesIn_append_slash]
  · have other : ¬ (directory.toList.getLast? = Option.some '/' ∨ directory.toList = []) := by
      rintro (slash | empty)
      · exact open_ slash
      · exact some (String.toList_eq_nil_iff.mp empty)
    exact ⟨directory.toList, by rw [if_neg other], rfl, [], by simp, by simp⟩

theorem within_ne_empty {directory name : String} (some : directory ≠ "") (good : IsName name) : Path.within directory name ≠ "" := by
  intro empty
  obtain ⟨front, spelt, -⟩ := toList_within some good
  rw [empty] at spelt
  cases front <;> cases spelt

theorem pathParts_within {directory name : String} (some : directory ≠ "") (good : IsName name) :
    pathParts (Path.within directory name).toList = namesIn directory.toList ++ [name] := by
  obtain ⟨path, spelt, names, -⟩ := toList_within some good
  rw [spelt, pathParts_append_name good, names]

/-- A path that ends in a name does not end in dots. -/
theorem endsInDots_of_parts {path name : String} {parts : List String} (cut : pathParts path.toList = parts ++ [name])
    (good : IsName name) : Disk.endsInDots path = false := by
  have speaks := good.speaks
  unfold Disk.endsInDots
  rw [cut, List.reverse_append, List.reverse_singleton, List.singleton_append]
  split
  · next same =>
    obtain ⟨rfl, -⟩ := List.cons.inj same
    simp at speaks
  · next same =>
    obtain ⟨rfl, -⟩ := List.cons.inj same
    have up := good.2.1
    simp only [not_or] at speaks
    simp [speaks.2, up]
  · next same => cases same

theorem getLast?_within {directory name : String} (some : directory ≠ "") (good : IsName name) :
    (Path.within directory name).toList.getLast? ≠ Option.some '/' := by
  obtain ⟨path, spelt, -⟩ := toList_within some good
  intro slash
  rw [spelt, List.getLast?_append, List.getLast?_cons_of_ne_nil good.ne_nil] at slash
  have last : name.toList.getLast? = Option.some '/' := by
    cases ends : name.toList.getLast? with
    | none => exact absurd (List.getLast?_eq_none_iff.mp ends) good.ne_nil
    | some c => simpa [ends] using slash
  exact good.2.2 (List.mem_of_getLast? last)

/-! ## Walks that go on -/

section
variable {tree : Tree} {followLast : Bool} {here directory : Location} {parts more : List String} {spot : Spot}

/-- A walk that comes to a directory goes on from there. -/
theorem Strides.append {jump jump' : Location → List String → Except Failure Spot}
    (strides : Strides tree true jump here parts (.found directory .directory)) (some : more ≠ [])
    (last : Strides tree followLast jump' directory more spot)
    (onward : ∀ here parts, jump here parts = .ok (.found directory .directory) → jump' here (parts ++ more) = .ok spot) :
    Strides tree followLast jump' here (parts ++ more) spot := by
  generalize ending : Spot.found directory .directory = ended at strides
  induction strides with
  | stop there =>
    obtain ⟨rfl, -⟩ := by simpa using ending
    exact last
  | silent inside mute _ ih => exact .silent inside mute (ih ending)
  | up inside _ ih => exact .up inside (ih ending)
  | absent => cases ending
  | absentSlash => cases ending
  | atLink _ _ stop => cases stop
  | follow enters link _ aims further =>
    subst ending
    refine .follow enters link (fun empty => absurd (List.append_eq_nil_iff.mp empty).2 some) aims ?_
    have longer := onward _ _ further
    rw [List.append_assoc] at longer
    exact longer
  | down enters there direct _ ih => exact .down enters there direct (ih ending)

theorem walk_append {links : Nat} (some : more ≠ [])
    (last : ∀ jump, Strides tree followLast jump directory more spot)
    (ended : walk tree true links here parts = .ok (.found directory .directory)) :
    walk tree followLast links here (parts ++ more) = .ok spot := by
  induction links generalizing here parts with
  | zero =>
    refine ((strides_of_walkParts ended).append some (last _) fun _ _ impossible => ?_).walkParts
    cases impossible
  | succ links ih => exact ((strides_of_walkParts ended).append some (last _) fun _ _ => ih).walkParts

/-- A walk that ends with one more part has come to a directory before. But a slash may also stand after a name that is
missing. -/
theorem Strides.of_append {jump jump' : Location → List String → Except Failure Spot} {name : String}
    (ends : name = "" → ∀ here part, spot ≠ .missing here part true)
    (strides : Strides tree followLast jump' here (parts ++ [name]) spot)
    (back : ∀ here parts, jump' here (parts ++ [name]) = .ok spot → ∃ directory onto,
      jump here parts = .ok (.found directory .directory) ∧ Strides tree followLast onto directory [name] spot) :
    ∃ directory onto, Strides tree true jump here parts (.found directory .directory) ∧
      Strides tree followLast onto directory [name] spot := by
  induction parts generalizing here with
  | nil => exact ⟨here, jump', .stop (strides.inside.resolve_right fun atEnd => by simp at atEnd), strides⟩
  | cons part rest ih =>
    generalize all : part :: rest ++ [name] = whole at strides
    cases strides with
    | stop => cases all
    | silent inside mute further =>
      obtain ⟨rfl, rfl⟩ := by simpa using all
      obtain ⟨directory, onto, found, last⟩ := ih further
      exact ⟨directory, onto, .silent inside mute found, last⟩
    | up inside further =>
      obtain ⟨rfl, rfl⟩ := by simpa using all
      obtain ⟨directory, onto, found, last⟩ := ih further
      exact ⟨directory, onto, .up inside found, last⟩
    | absent => simp at all
    | absentSlash =>
      cases rest with
      | nil => exact absurd rfl (ends (by simpa using all : _ ∧ name = "").2 _ _)
      | cons _ _ => simp at all
    | atLink => simp at all
    | follow enters link _ aims further =>
      obtain ⟨rfl, rfl⟩ := by simpa using all
      rw [← List.append_assoc] at further
      obtain ⟨directory, onto, found, last⟩ := back _ _ further
      exact ⟨directory, onto, .follow enters link (fun _ => rfl) aims found, last⟩
    | down enters there direct further =>
      obtain ⟨rfl, rfl⟩ := by simpa using all
      obtain ⟨directory, onto, found, last⟩ := ih further
      exact ⟨directory, onto, .down enters there direct found, last⟩

theorem walk_of_append {links : Nat} {name : String} (ends : name = "" → ∀ here part, spot ≠ .missing here part true)
    (ended : walk tree followLast links here (parts ++ [name]) = .ok spot) :
    ∃ directory onto, walk tree true links here parts = .ok (.found directory .directory) ∧
      Strides tree followLast onto directory [name] spot := by
  induction links generalizing here parts with
  | zero =>
    have come : ∃ directory onto,
        Strides tree true (fun _ _ => .error .tooManyLinks) here parts (.found directory .directory) ∧
          Strides tree followLast onto directory [name] spot :=
      Strides.of_append ends (strides_of_walkParts ended) fun _ _ impossible => by cases impossible
    obtain ⟨directory, onto, strides, last⟩ := come
    exact ⟨directory, onto, strides.walkParts, last⟩
  | succ links ih =>
    obtain ⟨directory, onto, strides, last⟩ := Strides.of_append ends (strides_of_walkParts ended) fun _ _ => ih
    exact ⟨directory, onto, strides.walkParts, last⟩

end

/-! ## Names below a directory -/

/-- A path that a walk can begin with. -/
structure Walkable (path : String) : Prop where
  clean : ¬ path.toList.contains (Char.ofNat 0)
  short : ¬ 4096 ≤ path.utf8ByteSize
  some : ¬ path.isEmpty

section
variable {tree : Tree} {path directory name : String} {followLast : Bool} {house : Location}

theorem Walkable.locate (able : Walkable path) :
    tree.locate followLast path = walk tree followLast linkLimit [] (pathParts path.toList) := by
  rw [Tree.locate, if_neg able.clean, if_neg able.short, if_neg able.some]

theorem walkable_of_locate {spot : Spot} (located : tree.locate followLast path = .ok spot) : Walkable path := by
  unfold Tree.locate at located
  split at located
  · cases located
  · next clean =>
    split at located
    · cases located
    · next short =>
      split at located
      · cases located
      · next some => exact ⟨clean, short, some⟩

/-- A name that can be looked up in a directory by its path. -/
structure Fits (directory name : String) : Prop where
  some : directory ≠ ""
  good : IsName name
  short : ¬ nameLimit < name.utf8ByteSize
  able : Walkable (Path.within directory name)

/-- What can be walked to within a directory, the directory can be walked to. -/
theorem Walkable.of_within (some : directory ≠ "") (good : IsName name) (able : Walkable (Path.within directory name)) :
    Walkable directory := by
  obtain ⟨path, spelt, -, slash, cut, mark⟩ := toList_within some good
  have whole : ∃ more, (Path.within directory name).toList = directory.toList ++ more := by
    rw [spelt, cut]
    rcases List.mem_pair.mp mark with rfl | rfl
    · exact ⟨'/' :: name.toList, by simp⟩
    · exact ⟨name.toList, by simp⟩
  obtain ⟨more, whole⟩ := whole
  have joined : Path.within directory name = directory ++ String.ofList more := by
    rw [← String.toList_inj, whole, String.toList_append, String.toList_ofList]
  refine ⟨fun zero => able.clean ?_, fun long => able.short ?_, by simpa using some⟩
  · rw [whole]
    simp at zero ⊢
    exact .inl zero
  · rw [joined, String.utf8ByteSize_append]
    omega

theorem find?_iff {entry : Entry} :
    tree.find? path = .ok (house, entry) ↔ tree.locate true path = .ok (.found house entry) := by
  unfold Tree.find?
  split
  · next located => simp [located]
  · next located => simp [located]
  · next located => simp [located]

/-- Whether or not a slash stands at the end of its path, a walk comes to a directory by the names in the path. -/
theorem find?_directory (able : Walkable directory) :
    tree.find? directory = .ok (house, .directory) ↔
      walk tree true linkLimit [] (namesIn directory.toList) = .ok (.found house .directory) := by
  rw [find?_iff, able.locate]
  rcases pathParts_eq directory.toList with same | slash
  · rw [same]
  · have onward : ∀ there, walk tree true linkLimit [] (namesIn directory.toList) = .ok (.found there .directory) →
        walk tree true linkLimit [] (namesIn directory.toList ++ [""]) = .ok (.found there .directory) := by
      intro there come
      have free : ∀ part ∈ namesIn directory.toList, '/' ∉ part.toList := fun part member =>
        slash_not_mem_of_mem_pathParts (slash ▸ List.mem_append_left _ member)
      have inside : tree.get? there = some .directory := (leads_walk _ _ _ _ _ settled_root free come).2
      exact walk_append (by simp) (fun _ => .silent inside (.inl rfl) (.stop inside)) come
    rw [slash]
    refine ⟨fun come => ?_, onward house⟩
    obtain ⟨there, -, come', -⟩ := walk_of_append (by simp) come
    rw [onward there come'] at come
    obtain rfl := by simpa using come
    exact come'

theorem locate_within (fits : Fits directory name) (found : tree.find? directory = .ok (house, .directory))
    (direct : followLast = true → ∀ target, tree.get? (house ++ [name]) ≠ some (.link target)) :
    tree.locate followLast (Path.within directory name) = .ok (spotAt tree (house ++ [name])) := by
  have inside := (find?_settled found).2
  rw [find?_directory (fits.able.of_within fits.some fits.good)] at found
  rw [fits.able.locate, pathParts_within fits.some fits.good]
  exact walk_append (by simp) (fun _ => strides_name ⟨inside, fits.good.speaks, fits.good.2.1, fits.short⟩ direct) found

/-- Where the path of a name below a directory leads to nothing, the name is free in the directory. -/
theorem free_of_locate_within (fits : Fits directory name) (found : tree.find? directory = .ok (house, .directory))
    (fresh : ∀ x entry, tree.locate false (Path.within directory name) ≠ .ok (.found x entry)) :
    tree.get? (house ++ [name]) = none := by
  cases there : tree.get? (house ++ [name]) with
  | none => rfl
  | some entry =>
    have taken : tree.locate false (Path.within directory name) = .ok (spotAt tree (house ++ [name])) :=
      locate_within fits found (by simp)
    rw [spotAt_of_get? there] at taken
    exact absurd taken (fresh _ _)

/-- Only where a directory stands does the path of a name below it lead anywhere. -/
theorem found_of_locate_within {spot : Spot} (some : directory ≠ "") (good : IsName name)
    (located : tree.locate followLast (Path.within directory name) = .ok spot) :
    Fits directory name ∧ ∃ house, tree.find? directory = .ok (house, .directory) := by
  have able := walkable_of_locate located
  have speaks := good.speaks
  rw [able.locate, pathParts_within some good] at located
  obtain ⟨house, onto, come, last⟩ := walk_of_append (fun empty => absurd (.inl empty) speaks) located
  have enters : Enters tree house name := by
    cases last with
    | silent _ mute => exact absurd mute speaks
    | up => exact absurd rfl good.2.1
    | absent enters => exact enters
    | atLink enters => exact enters
    | follow enters => exact enters
    | down enters => exact enters
  exact ⟨⟨some, good, enters.short, able⟩, house, (find?_directory (able.of_within some good)).mpr come⟩

/-- What the path of a name below a directory reaches. -/
theorem reaches_within (fits : Fits directory name) (found : tree.find? directory = .ok (house, .directory))
    (direct : ∀ target, tree.get? (house ++ [name]) ≠ some (.link target)) :
    Reaches tree (Path.within directory name) (house ++ [name]) := by
  intro followLast spot located
  rw [locate_within fits found fun _ => direct] at located
  exact (Except.ok.inj located).symm

end

/-! ## Links at the end -/

section
variable {tree : Tree} {here : Location} {parts : List String} {spot : Spot}

theorem Strides.unfollowed {jump jump' : Location → List String → Except Failure Spot}
    (onward : ∀ here parts spot, jump here parts = .ok spot →
      jump' here parts = .ok spot ∨ ∃ x target, jump' here parts = .ok (.found x (.link target)))
    (strides : Strides tree true jump here parts spot) :
    Strides tree false jump' here parts spot ∨ ∃ x target, Strides tree false jump' here parts (.found x (.link target)) := by
  induction strides with
  | stop there => exact .inl (.stop there)
  | silent inside mute _ ih =>
    exact ih.imp (.silent inside mute) fun ⟨x, target, further⟩ => ⟨x, target, .silent inside mute further⟩
  | up inside _ ih => exact ih.imp (.up inside) fun ⟨x, target, further⟩ => ⟨x, target, .up inside further⟩
  | absent enters nothing => exact .inl (.absent enters nothing)
  | absentSlash enters nothing => exact .inl (.absentSlash enters nothing)
  | atLink _ _ stop => cases stop
  | @follow here name target rest spot enters link _ aims further =>
    by_cases last : rest = []
    · subst last
      exact .inr ⟨_, _, .atLink enters link rfl⟩
    · exact (onward _ _ _ further).imp (.follow enters link (fun none => absurd none last) aims)
        fun ⟨x, target, further⟩ => ⟨x, target, .follow enters link (fun none => absurd none last) aims further⟩
  | down enters there direct _ ih =>
    exact ih.imp (.down enters there direct) fun ⟨x, target, further⟩ => ⟨x, target, .down enters there direct further⟩

/-- A path leads to the same whether or not a link at its end is followed, unless there is one. -/
theorem locate_unfollowed {path : String} (located : tree.locate true path = .ok spot) :
    tree.locate false path = .ok spot ∨ ∃ x target, tree.locate false path = .ok (.found x (.link target)) := by
  have able := walkable_of_locate located
  rw [able.locate] at located ⊢
  generalize linkLimit = links at located ⊢
  generalize ([] : Location) = here at located ⊢
  generalize pathParts path.toList = parts at located ⊢
  induction links generalizing here parts spot with
  | zero =>
    refine ((strides_of_walkParts located).unfollowed fun _ _ _ impossible => ?_).imp Strides.walkParts
      fun ⟨x, target, strides⟩ => ⟨x, target, strides.walkParts⟩
    cases impossible
  | succ links ih =>
    exact ((strides_of_walkParts located).unfollowed fun here parts spot further => ih here parts further).imp Strides.walkParts
      fun ⟨x, target, strides⟩ => ⟨x, target, strides.walkParts⟩

end

/-! ## Directories that stay where they are -/

/-- Directories and links stay. -/
structure Firm (before after : Tree) : Prop where
  directories : ∀ x, before.get? x = some .directory → after.get? x = some .directory
  links : ∀ x target, before.get? x = some (.link target) → after.get? x = some (.link target)

section
variable {before after : Tree}

/-- Where no link stands and no directory is lost, a change leaves directories and links alone. -/
theorem Changed.firm {place : Location} (change : Changed (At place) Nowhere before after)
    (stays : before.get? place = some .directory → after.get? place = some .directory)
    (direct : ∀ target, before.get? place ≠ some (.link target)) : Firm before after := by
  refine ⟨fun x there => ?_, fun x target there => ?_⟩
  · by_cases it : x = place
    · subst it
      exact stays there
    · rw [change.rest it id, there]
  · have other : x ≠ place := by
      rintro rfl
      exact direct target there
    rw [change.rest other id, there]

theorem Strides.again {followLast : Bool} {jump jump' : Location → List String → Except Failure Spot} {here directory : Location}
    {parts : List String} (firm : Firm before after)
    (onward : ∀ here parts, jump here parts = .ok (.found directory .directory) →
      jump' here parts = .ok (.found directory .directory))
    (strides : Strides before followLast jump here parts (.found directory .directory)) :
    Strides after followLast jump' here parts (.found directory .directory) := by
  generalize ending : Spot.found directory .directory = ended at strides
  have enters' : ∀ {here : Location} {name : String}, Enters before here name → Enters after here name :=
    fun enters => { enters with inside := firm.directories _ enters.inside }
  induction strides with
  | stop there =>
    obtain ⟨rfl, rfl⟩ := by simpa using ending
    exact .stop (firm.directories _ there)
  | silent inside mute _ ih => exact .silent (firm.directories _ inside) mute (ih ending)
  | up inside _ ih => exact .up (firm.directories _ inside) (ih ending)
  | absent => cases ending
  | absentSlash => cases ending
  | atLink => cases ending
  | follow enters link more aims further =>
    subst ending
    exact .follow (enters' enters) (firm.links _ _ link) more aims (onward _ _ further)
  | @down here name entry rest spot enters there direct further ih =>
    subst ending
    -- The walk goes on into a directory, or ends there.
    have inside : entry = .directory := by
      rcases further.inside with inside | ⟨-, entry', same, there'⟩
      · exact Option.some.inj (there.symm.trans inside)
      · obtain ⟨-, rfl⟩ := by simpa using same
        exact Option.some.inj (there.symm.trans there')
    subst inside
    exact .down (enters' enters) (firm.directories _ there) (by simp) (ih rfl)

/-- A directory is found again if directories and links stay. -/
theorem find?_firm {path : String} {house : Location} (firm : Firm before after)
    (found : before.find? path = .ok (house, .directory)) : after.find? path = .ok (house, .directory) := by
  have again : ∀ {links : Nat} {here : Location} {parts : List String},
      walk before true links here parts = .ok (.found house .directory) →
      walk after true links here parts = .ok (.found house .directory) := by
    intro links
    induction links with
    | zero =>
      intro here parts ended
      refine ((strides_of_walkParts ended).again firm fun _ _ impossible => ?_).walkParts
      cases impossible
    | succ links ih =>
      intro here parts ended
      exact ((strides_of_walkParts ended).again firm fun _ _ => ih).walkParts
  rw [find?_iff] at found ⊢
  have able := walkable_of_locate found
  rw [able.locate] at found ⊢
  exact again found

end

end GatedRepair.Files

/-!
## Disks on which nothing goes wrong

What comes of an operation on a disk whose plan is empty depends on the tree alone, and the plan stays empty. A path along
which a file was written leads to that file, and goes on leading to it while files are written (`find?_onto`).
-/

namespace GatedRepair.Files

section
variable {before after : Tree} {place : Location} {content : ByteArray} {mode : Mode}

/-- The place that a spot tells of. -/
theorem place_of_spotAt {here : Location} {name : String} {slash : Bool}
    (same : Spot.missing here name slash = spotAt before place) : slash = false ∧ here ++ [name] = place := by
  unfold spotAt at same
  split at same
  · cases same
  · next nothing =>
    have some : place ≠ [] := by
      rintro rfl
      simp [Tree.get?] at nothing
    obtain ⟨rfl, rfl, rfl⟩ := by simpa using same
    refine ⟨rfl, ?_⟩
    rw [List.getLast?_eq_some_getLast some]
    exact List.dropLast_concat_getLast some

theorem found_of_spotAt {here : Location} {entry : Entry} (same : Spot.found here entry = spotAt before place) :
    here = place ∧ before.get? place = some entry := by
  unfold spotAt at same
  split at same
  · next there =>
    obtain ⟨rfl, rfl⟩ := by simpa using same
    exact ⟨rfl, there⟩
  · cases same

/-- A walk to a place without a directory comes to the file that stands there when directories and links stay. -/
theorem Strides.onto {followLast : Bool} {jump jump' : Location → List String → Except Failure Spot} {here : Location}
    {parts : List String} {spot : Spot} (firm : Firm before after) (free : before.get? place ≠ some .directory)
    (direct : followLast = false → ∀ target, before.get? place ≠ some (.link target))
    (stands : after.get? place = some (.file content mode))
    (onward : ∀ here parts, jump here parts = .ok (spotAt before place) →
      jump' here parts = .ok (.found place (.file content mode)))
    (strides : Strides before followLast jump here parts spot) (aim : spot = spotAt before place) :
    Strides after followLast jump' here parts (.found place (.file content mode)) := by
  have enters' : ∀ {here : Location} {name : String}, Enters before here name → Enters after here name :=
    fun enters => { enters with inside := firm.directories _ enters.inside }
  induction strides with
  | stop there =>
    obtain ⟨rfl, -⟩ := found_of_spotAt aim
    exact .stop stands
  | silent inside mute _ ih => exact .silent (firm.directories _ inside) mute (ih aim)
  | up inside _ ih => exact .up (firm.directories _ inside) (ih aim)
  | absent enters =>
    obtain ⟨-, rfl⟩ := place_of_spotAt aim
    exact .down (enters' enters) stands (by simp) (.stop stands)
  | absentSlash =>
    obtain ⟨slash, -⟩ := place_of_spotAt aim
    cases slash
  | atLink _ link stop =>
    obtain ⟨rfl, there⟩ := found_of_spotAt aim
    exact absurd there (direct stop _)
  | follow enters link more aims further => exact .follow (enters' enters) (firm.links _ _ link) more aims (onward _ _ (aim ▸ further))
  | @down here name entry rest spot enters there _ further ih =>
    rcases further.inside with inside | ⟨rfl, other, same, -⟩
    · -- The walk goes on into a directory, which is not the place.
      exact .down (enters' enters) (firm.directories _ inside) (by simp) (ih aim)
    · obtain ⟨rfl, -⟩ := found_of_spotAt (same ▸ aim)
      exact .down (enters' enters) stands (by simp) (.stop stands)

/-- A path that led to a place without a directory leads to the file that stands there when directories and links stay. -/
theorem locate_onto {path : String} {followLast : Bool} (firm : Firm before after) (free : before.get? place ≠ some .directory)
    (direct : followLast = false → ∀ target, before.get? place ≠ some (.link target))
    (stands : after.get? place = some (.file content mode)) (located : before.locate followLast path = .ok (spotAt before place)) :
    after.locate followLast path = .ok (.found place (.file content mode)) := by
  have again : ∀ {links : Nat} {here : Location} {parts : List String},
      walk before followLast links here parts = .ok (spotAt before place) →
      walk after followLast links here parts = .ok (.found place (.file content mode)) := by
    intro links
    induction links with
    | zero =>
      intro here parts ended
      refine ((strides_of_walkParts ended).onto firm free direct stands (fun _ _ impossible => ?_) rfl).walkParts
      cases impossible
    | succ links ih =>
      intro here parts ended
      exact ((strides_of_walkParts ended).onto firm free direct stands (fun _ _ => ih) rfl).walkParts
  have able := walkable_of_locate located
  rw [able.locate] at located ⊢
  exact again located

theorem find?_onto {path : String} (firm : Firm before after) (free : before.get? place ≠ some .directory)
    (stands : after.get? place = some (.file content mode)) (located : before.locate true path = .ok (spotAt before place)) :
    after.find? path = .ok (place, .file content mode) :=
  find?_iff.mpr (locate_onto firm free (by simp) stands located)

end

namespace Disk

section
variable {tree : Tree} {path : String} {location : Location}

theorem writable_found {content : ByteArray} {mode : Mode} (found : tree.find? path = .ok (location, .file content mode)) :
    writable tree path = match mode.refusal? with
      | some e => .error e
      | none => .ok (location, some (content, mode)) := by
  rw [find?_iff] at found
  cases refusal : mode.refusal? <;> simp only [writable, found, refusal]

/-- Where a file is written, directories and links stay. -/
theorem firm_put {old : Option (ByteArray × Mode)} (able : writable tree path = .ok (location, old)) (content : ByteArray)
    (mode : Mode) : Firm tree (tree.put location (.file content mode)) := by
  obtain ⟨-, some, stood⟩ := writable_ok able
  refine (changed_put some tree (by simp)).firm ?_ ?_
  · intro there
    rw [there] at stood
    cases old <;> cases stood
  · intro target there
    rw [there] at stood
    cases old <;> cases stood

theorem find?_put {old : Option (ByteArray × Mode)} (able : writable tree path = .ok (location, old)) (content : ByteArray)
    (mode : Mode) : (tree.put location (.file content mode)).find? path = .ok (location, .file content mode) := by
  obtain ⟨located, some, stood⟩ := writable_ok able
  refine find?_onto (firm_put able content mode) ?_ (by rw [Tree.get?_put some, if_pos rfl]) located
  intro there
  rw [there] at stood
  cases old <;> cases stood

/-- A file that was found is found when a file is written over another one or over the file itself. -/
theorem find?_put_file {place : Location} {old content : ByteArray} {oldMode mode : Mode} (new : ByteArray) (newMode : Mode)
    (stood : tree.get? place = some (.file old oldMode)) (found : tree.find? path = .ok (location, .file content mode)) :
    (tree.put place (.file new newMode)).find? path =
      .ok (location, if location = place then .file new newMode else .file content mode) := by
  have there := (find?_settled found).2
  have some := ne_nil_of_get? stood (by simp)
  have firm : Firm tree (tree.put place (.file new newMode)) :=
    (changed_put some tree (by simp)).firm (by simp [stood]) (by simp [stood])
  rw [find?_iff] at found
  rw [← spotAt_of_get? there] at found
  have stands := Tree.get?_put some tree (.file new newMode) location
  by_cases same : location = place
  · rw [if_pos same] at stands ⊢
    exact find?_onto firm (by simp [there]) stands found
  · rw [if_neg same, there] at stands
    rw [if_neg same]
    exact find?_onto firm (by simp [there]) stands found

theorem write_sound (content : ByteArray) : (sound tree).write path content =
    match writable tree path with
    | .error e => (.error e, sound tree)
    | .ok (location, old) => (.ok (), sound (tree.put location (.file content ((old.map Prod.snd).getD .shared)))) := by
  unfold write writing
  simp only [meet, sound]
  cases writable tree path <;> rfl

/-- What is copied is a file that is found. -/
theorem copied_ok {content : ByteArray} {mode : Mode} (copied : Disk.copied tree path = .ok (content, mode)) :
    ∃ location mode', tree.find? path = .ok (location, .file content mode') ∧ mode = mode'.copied := by
  unfold Disk.copied at copied
  split at copied
  · next location _ _ found =>
    obtain ⟨rfl, rfl⟩ := by simpa using copied
    exact ⟨location, _, found, rfl⟩
  · cases copied
  · cases copied

theorem copied_found {content : ByteArray} {mode : Mode} (found : tree.find? path = .ok (location, .file content mode)) :
    copied tree path = .ok (content, mode.copied) := by
  rw [copied, found]

theorem read_found {content : ByteArray} {mode : Mode} (found : tree.find? path = .ok (location, .file content mode)) :
    tree.read path = .ok content := by
  rw [Tree.read, found]

/-! ### Making directories -/

theorem makeDirectory_sound (tree : Tree) (path : String) : ∃ after, ((sound tree).makeDirectory path).2 = sound after := by
  unfold makeDirectory changing
  simp only [meet, sound]
  cases makeDirectoryIn tree path with
  | error e => exact ⟨tree, rfl⟩
  | ok after => exact ⟨after, rfl⟩

theorem makeChain_sound (tree : Tree) (paths : List String) : ∃ after, ((sound tree).makeChain paths).2 = sound after := by
  induction paths generalizing tree with
  | nil => exact ⟨tree, rfl⟩
  | cons path outer ih =>
    obtain ⟨tree₁, first⟩ := makeDirectory_sound tree path
    unfold makeChain
    split
    · next disk₁ same =>
      rw [same] at first
      exact ⟨tree₁, first⟩
    · next disk₁ same =>
      -- the directory around it is made first, and then the directory is tried again
      rw [same] at first
      obtain rfl : disk₁ = sound tree₁ := first
      obtain ⟨tree₂, rest⟩ := ih tree₁
      split
      · next e disk₂ same =>
        rw [same] at rest
        exact ⟨tree₂, rest⟩
      · next disk₂ same =>
        rw [same] at rest
        obtain rfl : disk₂ = sound tree₂ := rest
        obtain ⟨tree₃, last⟩ := makeDirectory_sound tree₂ path
        split
        · next disk₃ same =>
          rw [same] at last
          exact ⟨tree₃, last⟩
        · next e disk₃ same =>
          rw [same] at last
          exact ⟨tree₃, last⟩
    · next e disk₁ _ same =>
      rw [same] at first
      exact ⟨tree₁, first⟩

theorem makeDirectories_sound (tree : Tree) (path : String) :
    ∃ after, ((sound tree).makeDirectories path).2 = sound after := makeChain_sound tree _

end

end Disk

end GatedRepair.Files
