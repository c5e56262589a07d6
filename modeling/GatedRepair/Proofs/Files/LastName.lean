import GatedRepair.Proofs.Files.Change
import GatedRepair.Proofs.Files.Within

/-!
# The last name in a path

An absolute path is cut at its last slash (`exists_cut`). If a name stands behind it, the path is the name's within the text in
front (`CutAt.within`), and the directory that is worked out of the path, without the dots and slashes at the end of that text,
is the same one (`CutAt.house_unique`). If dots or nothing stand there, the path leads to no file or link
(`CutAt.mute_cases`).
-/

namespace GatedRepair.Files

open Text

/-- The text in front of the last slash of an absolute path, and what stands behind it. -/
structure CutAt (path : String) (front : List Char) (last : String) : Prop where
  spelt : path.toList = front ++ '/' :: last.toList
  free : '/' ∉ last.toList
  rooted : front = [] ∨ front.head? = some '/'

theorem exists_cut {path : String} (absolute : Path.isAbsolute path.toList = true) : ∃ front last, CutAt path front last := by
  have begins : path.toList.head? = some '/' := beq_iff_eq.mp absolute
  have slash : '/' ∈ path.toList.reverse := List.mem_reverse.mpr (List.mem_of_mem_head? begins)
  obtain ⟨last, front, split, free⟩ := List.eq_append_cons_of_mem slash
  have spelt : path.toList = front.reverse ++ '/' :: last.reverse := by
    rw [← List.reverse_reverse path.toList, split]
    simp
  refine ⟨front.reverse, String.ofList last.reverse, by simpa using spelt, by simpa using free, ?_⟩
  cases cut : front.reverse with
  | nil => exact .inl rfl
  | cons c more =>
    rw [spelt, cut] at begins
    exact .inr begins

/-- The directory that is worked out of a path with this text in front of its last slash. -/
def houseOf (front : List Char) : String := String.ofList ('/' :: Path.ofParts (Path.dropSilentEnd ((split '/' front).drop 1)))

/-- The path leads to what stands at the place, or to its name missing in a directory. A link at the end is not followed. -/
def Names (tree : Tree) (path : String) (place : Location) : Prop := tree.locate false path = .ok (spotAt tree place)

section
variable {tree after : Tree} {path : String} {x y : Location}

theorem Names.unique (names : Names tree path x) (names' : Names tree path y) : x = y := by
  have same : spotAt tree x = spotAt tree y := Except.ok.inj (names.symm.trans names')
  rw [← place_spotAt tree x, same, place_spotAt]

theorem names_of_found {entry : Entry} (located : tree.locate false path = .ok (.found x entry)) : Names tree path x := by
  rw [Names, spotAt_of_get? (locate_sound located).2, located]

end

namespace CutAt

variable {path last : String} {front : List Char} {tree : Tree} {house house' : Location}

theorem split_eq (cut : CutAt path front last) : split '/' path.toList = split '/' front ++ [last.toList] := by
  rw [cut.spelt, split_append_of_free cut.free]

theorem within (cut : CutAt path front last) (good : IsName last) : Path.within (String.ofList (front ++ ['/'])) last = path := by
  rw [← String.toList_inj, cut.spelt]
  simp [Path.within, Path.joined, good.relative]

theorem spoken (cut : CutAt path front last) (good : IsName last) :
    Path.spoken path.toList = split '/' front ++ [last.toList] := by
  rw [Path.spoken, cut.split_eq]
  simp [Path.dropSilentEnd, good.1]

theorem fileName?_eq (cut : CutAt path front last) (good : IsName last) : Path.fileName? path.toList = some last.toList := by
  have climbs : last.toList ≠ ['.', '.'] := fun dots => good.2.1 (String.toList_inj.mp dots)
  rw [Path.fileName?, cut.spoken good, List.getLast?_concat]
  simp [climbs]

theorem directory?_eq (cut : CutAt path front last) (good : IsName last) :
    Path.directory? path.toList = some (houseOf front).toList := by
  rw [Path.directory?, cut.spoken good]
  simp [houseOf]

/-- The names in front of the last slash are those of the directory that is worked out, and dots. -/
theorem namesIn_front (cut : CutAt path front last) :
    ∃ dots : List String, namesIn front = namesIn (houseOf front).toList ++ dots ∧ ∀ dot ∈ dots, dot = "." := by
  obtain ⟨rest, parts⟩ : ∃ rest, split '/' front = [] :: rest := by
    rcases cut.rooted with rfl | slash
    · exact ⟨[], rfl⟩
    · obtain ⟨more, rfl⟩ := List.head?_eq_some_iff.mp slash
      exact ⟨split '/' more, split_cons_separator '/' more⟩
  have free : ∀ part ∈ rest, '/' ∉ part := fun part member => free_of_mem_split (parts ▸ List.mem_cons_of_mem [] member)
  obtain ⟨silent, whole, mute⟩ : ∃ silent, rest = Path.dropSilentEnd rest ++ silent ∧
      ∀ part ∈ silent, Path.isSilent part = true := by
    refine ⟨(rest.reverse.takeWhile Path.isSilent).reverse, ?_, fun part member => ?_⟩
    · unfold Path.dropSilentEnd
      rw [← List.reverse_append, List.takeWhile_append_dropWhile, List.reverse_reverse]
    · exact List.all_eq_true.mp List.all_takeWhile part (List.mem_reverse.mp member)
  have kept : split '/' (houseOf front).toList = [] :: Path.dropSilentEnd rest ∨
      Path.dropSilentEnd rest = [] ∧ split '/' (houseOf front).toList = [[], []] := by
    rw [houseOf, String.toList_ofList, split_cons_separator, parts]
    by_cases none : Path.dropSilentEnd rest = []
    · exact .inr ⟨none, by simp [none, Path.ofParts, split_of_free]⟩
    · refine .inl (congrArg _ (split_intercalate none fun part member => free part ?_))
      rw [whole]
      exact List.mem_append_left silent member
  refine ⟨(silent.filter (!·.isEmpty)).map String.ofList, ?_, fun dot member => ?_⟩
  · have names : namesIn (houseOf front).toList = ((Path.dropSilentEnd rest).filter (!·.isEmpty)).map String.ofList := by
      unfold namesIn
      rcases kept with same | ⟨none, same⟩
      · rw [same]
        rfl
      · rw [same, none]
        rfl
    rw [names, ← List.map_append, ← List.filter_append, ← whole, namesIn, parts]
    rfl
  · obtain ⟨part, inside, rfl⟩ := List.mem_map.mp member
    obtain ⟨silent, some⟩ := List.mem_filter.mp inside
    have dot : part = [] ∨ part = ['.'] := by simpa [Path.isSilent] using mute part silent
    rw [dot.resolve_left (by simpa using some)]

/-- The directory that is worked out is the one in which the last name is looked up. -/
theorem house_unique (cut : CutAt path front last) (found : tree.find? (String.ofList (front ++ ['/'])) = .ok (house, .directory))
    (found' : tree.find? (houseOf front) = .ok (house', .directory)) : house' = house := by
  obtain ⟨dots, names, mute⟩ := cut.namesIn_front
  have inside := (find?_settled found').2
  have able : ∀ {path place}, tree.find? path = .ok (place, .directory) → Walkable path := fun found =>
    walkable_of_locate (find?_iff.mp found)
  have come := (find?_directory (able found)).mp found
  have come' := (find?_directory (able found')).mp found'
  rw [String.toList_ofList, namesIn_append_slash, names] at come
  have stays : ∀ dots : List String, (∀ dot ∈ dots, dot = ".") → ∀ jump,
      Strides tree true jump house' dots (.found house' .directory) := by
    intro dots mute jump
    induction dots with
    | nil => exact .stop inside
    | cons dot more ih =>
      obtain ⟨rfl, others⟩ := List.forall_mem_cons.mp mute
      exact .silent inside (.inr rfl) (ih others)
  by_cases none : dots = []
  · rw [none, List.append_nil, come'] at come
    simpa using come
  · rw [walk_append none (stays dots mute) come'] at come
    simpa using come

/-- Where dots or nothing stand behind the last slash, a directory is found, or a slash stands after a name that is missing. -/
theorem mute_cases (cut : CutAt path front last) (mute : ¬ IsName last) {followLast : Bool} {spot : Spot}
    (located : tree.locate followLast path = .ok spot) :
    (∃ place, spot = .found place .directory) ∨ (last = "" ∧ ∃ here name, spot = .missing here name true) := by
  have kinds : last = "" ∨ last = "." ∨ last = ".." := by
    by_contra other
    simp only [not_or] at other
    refine mute ⟨?_, other.2.2, cut.free⟩
    have some : last.toList ≠ [] := fun empty => other.1 (String.toList_eq_nil_iff.mp empty)
    have noDot : last.toList ≠ ['.'] := fun dot => other.2.1 (String.toList_inj.mp dot)
    simp [Path.isSilent, some, noDot]
  have parts : pathParts path.toList = [] ∨ pathParts path.toList = namesIn front ++ [last] := by
    unfold pathParts
    rw [cut.split_eq]
    rcases kinds with rfl | rfl | rfl
    · by_cases none : namesIn front = []
      · have none : List.filter (!·.isEmpty) (split '/' front) = [] := by simpa [namesIn] using none
        exact .inl (by simp [none])
      · exact .inr (by simpa [namesIn] using none)
    · exact .inr (by simp [namesIn])
    · exact .inr (by simp [namesIn])
  rw [(walkable_of_locate located).locate] at located
  rcases parts with none | whole
  · rw [none] at located
    cases strides_of_walkParts located with
    | stop there => exact .inl ⟨[], by rw [← Option.some.inj there]⟩
  · rw [whole] at located
    by_cases slash : last = "" ∧ ∃ here name, spot = .missing here name true
    · exact .inr slash
    · obtain ⟨house, onto, come, strides⟩ :=
        walk_of_append (fun empty here name missing => slash ⟨empty, here, name, missing⟩) located
      have free : ∀ part ∈ namesIn front, '/' ∉ part.toList := fun part member =>
        slash_not_mem_of_mem_pathParts (whole ▸ List.mem_append_left _ member)
      have settled : Settled tree house := (leads_walk _ _ _ _ _ settled_root free come).1
      cases strides with
      | silent inside _ further =>
        cases further with
        | stop there => exact .inl ⟨house, by rw [Option.some.inj (inside.symm.trans there)]⟩
      | up inside further =>
        cases further with
        | stop there =>
          refine .inl ⟨house.dropLast, ?_⟩
          by_cases top : house = []
          · subst top
            rw [← Option.some.inj there]
          · have higher : house.dropLast ≠ house := by
              intro same
              have length := congrArg List.length same
              rw [List.length_dropLast] at length
              have long := List.length_pos_iff.mpr top
              omega
            rw [Option.some.inj ((settled.above _ (List.dropLast_prefix house) higher).symm.trans there)]
      | absent enters => exact (mute (enters.good cut.free)).elim
      | atLink enters => exact (mute (enters.good cut.free)).elim
      | follow enters => exact (mute (enters.good cut.free)).elim
      | down enters => exact (mute (enters.good cut.free)).elim

/-- A place without a directory that is named is the last name's in the directory of the text in front. -/
theorem stands (cut : CutAt path front last) {place : Location} (names : Names tree path place)
    (free : tree.get? place ≠ some .directory) :
    IsName last ∧ Fits (String.ofList (front ++ ['/'])) last ∧
      ∃ house, tree.find? (String.ofList (front ++ ['/'])) = .ok (house, .directory) ∧ place = house ++ [last] := by
  have good : IsName last := by
    by_contra mute
    rcases cut.mute_cases mute names with ⟨_, same⟩ | ⟨-, _, _, same⟩
    · obtain ⟨rfl, there⟩ := found_of_spotAt same.symm
      exact free there
    · obtain ⟨slash, -⟩ := place_of_spotAt same.symm
      cases slash
  rw [← cut.within good] at names
  obtain ⟨fits, house, found⟩ := found_of_locate_within (by simp [String.ext_iff]) good names
  have inside : Names tree (Path.within (String.ofList (front ++ ['/'])) last) (house ++ [last]) :=
    locate_within fits found (by simp)
  exact ⟨good, fits, house, found, names.unique inside⟩

/-- What a path leads to is named by it, unless a slash stands at its end. -/
theorem named (cut : CutAt path front last) {spot : Spot} (located : tree.locate false path = .ok spot)
    (noSlash : path.toList.getLast? ≠ some '/') : Names tree path spot.place := by
  cases spot with
  | found place entry => exact names_of_found located
  | missing here name slash =>
    have good : IsName last := by
      by_contra mute
      rcases cut.mute_cases mute located with ⟨_, same⟩ | ⟨rfl, -⟩
      · cases same
      · exact noSlash (by simp [cut.spelt])
    rw [← cut.within good] at located ⊢
    obtain ⟨fits, house, found⟩ := found_of_locate_within (by simp [String.ext_iff]) good located
    have inside : Names tree (Path.within (String.ofList (front ++ ['/'])) last) (house ++ [last]) :=
      locate_within fits found (by simp)
    rwa [Except.ok.inj (located.symm.trans inside), place_spotAt]

theorem beside (cut : CutAt path front last) (found : tree.find? (String.ofList (front ++ ['/'])) = .ok (house, .directory))
    {other : String} (good : IsName other) {spot : Spot}
    (located : tree.locate false (Path.within (houseOf front) other) = .ok spot) : spot = spotAt tree (house ++ [other]) := by
  obtain ⟨fits, house', found'⟩ := found_of_locate_within (by simp [houseOf, String.ext_iff]) good located
  obtain rfl := cut.house_unique found found'
  rw [locate_within fits found' (by simp)] at located
  exact (Except.ok.inj located).symm

end CutAt

section
variable {tree after : Tree} {path : String} {x : Location} (absolute : Path.isAbsolute path.toList = true)
include absolute

theorem Names.find? (names : Names tree path x) {content : ByteArray} {mode : Mode}
    (stands : tree.get? x = some (.file content mode)) :
    tree.find? path = .ok (x, .file content mode) := by
  obtain ⟨front, last, cut⟩ := exists_cut absolute
  obtain ⟨good, fits, house, found, rfl⟩ := cut.stands names (by simp [stands])
  have onto := @locate_within _ _ _ true _ fits found (by simp [stands])
  rw [cut.within good, spotAt_of_get? stands] at onto
  exact find?_iff.mpr onto

theorem Names.firm (firm : Firm tree after) (names : Names tree path x) (free : tree.get? x ≠ some .directory) :
    Names after path x := by
  obtain ⟨front, last, cut⟩ := exists_cut absolute
  obtain ⟨good, fits, house, found, rfl⟩ := cut.stands names free
  have onto := @locate_within _ _ _ false _ fits (find?_firm firm found) (by simp)
  rwa [cut.within good] at onto

end

end GatedRepair.Files

/-!
## Trees that are alike along a path

What a walk along names comes to, and how it fails, depends on what stands at the locations on the way and on nothing else
(`locate_alike`). So a file is read as before while other places change (`readText_alike`), and nothing is read where it is
gone (`readText_gone`).
-/

namespace GatedRepair.Files

theorem Tree.get?_ne_link {tree : Tree} (each : ∀ row ∈ tree.entries, ∀ target, row.2 ≠ .link target) (x : Location)
    (target : String) : tree.get? x ≠ some (.link target) := by
  intro found
  unfold get? at found
  split at found
  · cases found
  · obtain ⟨front, back, split, -⟩ := List.lookup_eq_some_iff.mp found
    exact each (x, .link target) (by simp [split]) target rfl

section
variable {before after : Tree} {followLast : Bool} {jump jump' : Location → List String → Except Failure Spot}

/-- A walk along names takes the same course in trees that are alike on the way, where no links are. -/
theorem walkParts_alike {here : Location} {names : List String} (named : IsNamed names)
    (straight : ∀ upper, upper <+: here ++ names → ∀ target, before.get? upper ≠ some (.link target))
    (alike : ∀ upper, upper <+: here ++ names → after.get? upper = before.get? upper) :
    walkParts after followLast jump' here names = walkParts before followLast jump here names := by
  have start := alike here (List.prefix_append _ _)
  induction names generalizing here with
  | nil => rw [walkParts, walkParts, start]
  | cons name rest ih =>
    obtain ⟨good, others⟩ := List.forall_mem_cons.mp named
    have speaks := good.speaks
    have split : here ++ name :: rest = here ++ [name] ++ rest := by simp
    rw [split] at straight alike
    have next := alike (here ++ [name]) (List.prefix_append _ _)
    have direct := straight (here ++ [name]) (List.prefix_append _ _)
    rw [walkParts, walkParts, start, next]
    simp only [speaks, good.2.1, if_false]
    split
    · rfl
    · rfl
    · rfl
    · split
      · rfl
      · split
        · rfl
        · next target link => exact absurd link (direct target)
        · exact ih others straight alike next

variable {location : Location}

/-- The path of a location leads to the same in trees that are alike on the way. -/
theorem locate_alike (plain : Plain before location) (alike : ∀ upper, upper <+: location → after.get? upper = before.get? upper) :
    after.locate followLast (Tree.pathOf location) = before.locate followLast (Tree.pathOf location) := by
  have walked : walk after followLast linkLimit [] location = walk before followLast linkLimit [] location :=
    walkParts_alike plain.named plain.straight alike
  unfold Tree.locate
  rw [pathParts_pathOf plain.named, walked]

theorem readText_alike (plain : Plain before location)
    (alike : ∀ upper, upper <+: location → after.get? upper = before.get? upper) :
    after.readText (Tree.pathOf location) = before.readText (Tree.pathOf location) := by
  unfold Tree.readText Tree.read Tree.find?
  rw [locate_alike plain alike]

theorem located_of_readText {tree : Tree} {path text : String} (held : tree.readText path = .ok text) :
    ∃ spot, tree.locate true path = .ok spot := by
  unfold Tree.readText Tree.read Tree.find? at held
  cases located : tree.locate true path with
  | error e =>
    rw [located] at held
    cases held
  | ok spot => exact ⟨spot, rfl⟩

/-- Where a file was read and is no longer, nothing is found. -/
theorem readText_gone (plain : Plain before location) {text : String}
    (held : before.readText (Tree.pathOf location) = .ok text)
    (above : ∀ upper, upper <+: location → upper ≠ location → after.get? upper = before.get? upper)
    (gone : after.get? location = none) : after.readText (Tree.pathOf location) = .error .notFound := by
  have straight : Straight after location := by
    intro upper short target
    by_cases whole : upper = location
    · rw [whole, gone]
      simp
    · rw [above upper short whole]
      exact plain.straight upper short target
  have missing : spotAt after location = .missing location.dropLast (location.getLast?.getD "") false := by
    rw [spotAt, gone]
  obtain ⟨spot, located⟩ := located_of_readText held
  unfold Tree.readText Tree.read Tree.find?
  rw [locate_again plain.named straight above located true, missing]

end

end GatedRepair.Files
