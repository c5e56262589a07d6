import GatedRepair.Files.Disk
import GatedRepair.Proofs.Text.Part
import GatedRepair.State

/-!
# Walks along paths

A walk is a row of steps, each in a directory. It ends at a location that stands in directories only (`find?_settled`), and
along the path of a location no part of which is a link, it ends at that very location (`locate_pathOf`).
-/

/-!
## Paths of locations

The path of a location is cut into the names of the location again (`pathParts_pathOf`), and what is worked out of such
a path, its directory, a path within it or its temporary file, is the path of a location too.
-/

namespace GatedRepair.Files

open Text

theorem toOption_eq_some {ε α : Type} {result : Except ε α} {a : α} : result.toOption = some a ↔ result = .ok a := by
  cases result <;> simp [Except.toOption]

/-- A name that can stand in a location: it says something, does not climb, and has no slash in it. -/
def IsName (name : String) : Prop :=
  Path.isSilent name.toList = false ∧ name ≠ ".." ∧ '/' ∉ name.toList

instance (name : String) : Decidable (IsName name) := inferInstanceAs (Decidable (_ ∧ _ ∧ _))

/-- All names in a location can stand in one. -/
def IsNamed (location : Location) : Prop := ∀ name ∈ location, IsName name

theorem IsName.ne_nil {name : String} (good : IsName name) : name.toList ≠ [] := by
  intro empty
  have silent := good.1
  rw [empty] at silent
  exact absurd silent (by decide)

theorem IsName.speaks {name : String} (good : IsName name) : ¬ (name = "" ∨ name = ".") := by
  rintro (rfl | rfl) <;> exact absurd good (by decide)

theorem IsName.relative {name : String} (good : IsName name) : Path.isAbsolute name.toList = false := by
  unfold Path.isAbsolute
  cases h : name.toList with
  | nil => rfl
  | cons c more =>
    have other : c ≠ '/' := by
      rintro rfl
      exact good.2.2 (h ▸ List.mem_cons_self)
    simpa using other

theorem IsNamed.append {location : Location} (good : IsNamed location) {name : String} (also : IsName name) :
    IsNamed (location ++ [name]) := by
  intro other member
  rcases List.mem_append.mp member with inside | last
  · exact good other inside
  · rw [List.mem_singleton.mp last]
    exact also

theorem IsNamed.of_prefix {short location : Location} (good : IsNamed location) (upper : short <+: location) :
    IsNamed short :=
  fun name member => good name (upper.subset member)

theorem toList_pathOf (location : Location) :
    (Tree.pathOf location).toList = '/' :: ['/'].intercalate (location.map String.toList) := by
  simp [Tree.pathOf, String.toList_intercalate]

theorem split_pathOf {location : Location} (good : IsNamed location) (some : location ≠ []) :
    split '/' (Tree.pathOf location).toList = [] :: location.map String.toList := by
  rw [toList_pathOf, split_cons_separator, split_intercalate]
  · simpa using some
  · intro part member
    obtain ⟨name, inside, rfl⟩ := List.mem_map.mp member
    exact (good name inside).2.2

theorem filter_names {location : Location} (good : IsNamed location) :
    (location.map String.toList).filter (!·.isEmpty) = location.map String.toList := by
  rw [List.filter_eq_self]
  intro part member
  obtain ⟨name, inside, rfl⟩ := List.mem_map.mp member
  simpa using (good name inside).ne_nil

/-- A walk along a location's path takes the names of the location. -/
theorem pathParts_pathOf {location : Location} (good : IsNamed location) :
    pathParts (Tree.pathOf location).toList = location := by
  by_cases top : location = []
  · subst top
    decide
  · have last : ([] :: location.map String.toList).getLast? ≠ some [] := by
      intro empty
      rw [List.getLast?_cons_of_ne_nil (by simpa using top)] at empty
      obtain ⟨name, inside, nothing⟩ := List.mem_map.mp (List.mem_of_getLast? empty)
      exact (good name inside).ne_nil nothing
    unfold pathParts
    simp only [split_pathOf good top]
    rw [if_neg fun h => last h.1, List.filter_cons_of_neg (by simp), filter_names good]
    simp

/-! ### What is worked out of a path -/

theorem pathOf_append {location : Location} (some : location ≠ []) (name : String) :
    (Tree.pathOf (location ++ [name])).toList = (Tree.pathOf location).toList ++ '/' :: name.toList := by
  rw [toList_pathOf, toList_pathOf, List.map_append, List.map_singleton]
  induction location with
  | nil => exact absurd rfl some
  | cons first more ih =>
    cases more with
    | nil => simp [List.intercalate_cons_cons, List.intercalate_singleton]
    | cons second more =>
      have tail := ih (by simp)
      simp only [List.map_cons, List.cons_append, List.intercalate_cons_cons, List.cons.injEq, true_and,
        List.append_assoc] at tail ⊢
      rw [tail]

/-- The last character of a location's path is a slash for the root only. -/
theorem getLast?_pathOf {location : Location} (good : IsNamed location) (some : location ≠ []) :
    (Tree.pathOf location).toList.getLast? ≠ Option.some '/' := by
  obtain ⟨front, name, rfl⟩ := (List.eq_nil_or_concat' location).resolve_left some
  have also : IsName name := good name (by simp)
  have last : ∀ text : List Char, (text ++ '/' :: name.toList).getLast? = name.toList.getLast? := by
    intro text
    rw [List.getLast?_append, List.getLast?_cons_of_ne_nil also.ne_nil]
    cases h : name.toList.getLast? with
    | none => exact absurd (List.getLast?_eq_none_iff.mp h) also.ne_nil
    | some c => rfl
  have spelt : (Tree.pathOf (front ++ [name])).toList.getLast? = name.toList.getLast? := by
    by_cases top : front = []
    · subst top
      simpa [toList_pathOf] using last []
    · rw [pathOf_append top, last]
  rw [spelt]
  intro slash
  exact also.2.2 (List.mem_of_getLast? slash)

/-- A name within a location's path. -/
theorem within_pathOf {location : Location} (good : IsNamed location) {name : String} (also : IsName name) :
    Path.within (Tree.pathOf location) name = Tree.pathOf (location ++ [name]) := by
  have relative := also.relative
  rw [← String.toList_inj]
  by_cases top : location = []
  · subst top
    simp [Path.within, Path.joined, relative, toList_pathOf]
  · have open_ : ¬ ((Tree.pathOf location).toList.getLast? = some '/' ∨ (Tree.pathOf location).toList = []) := by
      rintro (slash | empty)
      · exact getLast?_pathOf good top slash
      · rw [toList_pathOf] at empty
        cases empty
    rw [Path.within, String.toList_ofList, Path.joined, relative, if_neg Bool.false_ne_true, if_neg open_,
      pathOf_append top]

theorem dropSilentEnd_of_names (parts : List (List Char)) {location : Location} (good : IsNamed location)
    (some : location ≠ []) :
    Path.dropSilentEnd (parts ++ location.map String.toList) = parts ++ location.map String.toList := by
  obtain ⟨front, name, rfl⟩ := (List.eq_nil_or_concat' location).resolve_left some
  have also : IsName name := good name (by simp)
  simp [Path.dropSilentEnd, also.1]

theorem spoken_pathOf {location : Location} (good : IsNamed location) (some : location ≠ []) :
    Path.spoken (Tree.pathOf location).toList = [] :: location.map String.toList := by
  rw [Path.spoken, split_pathOf good some]
  exact dropSilentEnd_of_names [[]] good some

theorem fileName?_pathOf {location : Location} (good : IsNamed location) {name : String} (also : IsName name) :
    Path.fileName? (Tree.pathOf (location ++ [name])).toList = some name.toList := by
  have last : ([] :: (location ++ [name]).map String.toList).getLast? = some name.toList := by
    rw [List.map_append, List.map_singleton, ← List.cons_append, List.getLast?_concat]
  have up : name.toList ≠ ['.', '.'] := by
    intro dots
    exact also.2.1 (String.toList_inj.mp dots)
  rw [Path.fileName?, spoken_pathOf (good.append also) (by simp), last]
  simp [up]

/-- The directory of a location's path. -/
theorem directory?_pathOf {location : Location} (good : IsNamed location) :
    Path.directory? (Tree.pathOf location).toList =
      if location = [] then none else some (Tree.pathOf location.dropLast).toList := by
  by_cases top : location = []
  · subst top
    decide
  · rw [if_neg top, Path.directory?, spoken_pathOf good top]
    have upper : IsNamed location.dropLast := good.of_prefix (List.dropLast_prefix _)
    have kept : Path.dropSilentEnd (location.dropLast.map String.toList) = location.dropLast.map String.toList := by
      by_cases only : location.dropLast = []
      · rw [only]
        rfl
      · exact dropSilentEnd_of_names [] upper only
    have parts : (([] :: location.map String.toList).dropLast.drop 1) = location.dropLast.map String.toList := by
      rw [List.dropLast_cons_of_ne_nil (by simpa using top), List.drop_one, List.tail_cons, List.map_dropLast]
    simp only [parts, kept]
    rw [toList_pathOf]
    rfl

/-- The directories that are made for a location are those above it, and itself. -/
theorem mem_chainOf {location : Location} (good : IsNamed location) {fuel : Nat} {path : String}
    (member : path ∈ Disk.chainOf (Tree.pathOf location).toList fuel) :
    ∃ upper, upper <+: location ∧ path = Tree.pathOf upper := by
  induction fuel generalizing location with
  | zero =>
    obtain rfl := by simpa [Disk.chainOf] using member
    exact ⟨location, List.prefix_rfl, rfl⟩
  | succ fuel ih =>
    rw [Disk.chainOf, directory?_pathOf good] at member
    rcases List.mem_cons.mp member with rfl | outer
    · exact ⟨location, List.prefix_rfl, by rw [String.ofList_toList]⟩
    · by_cases top : location = []
      · simp [top] at outer
      · rw [if_neg top] at outer
        obtain ⟨upper, shorter, rfl⟩ := ih (good.of_prefix (List.dropLast_prefix _)) outer
        exact ⟨upper, shorter.trans (List.dropLast_prefix _), rfl⟩

end GatedRepair.Files

/-!
## Walks in steps

A walk that ends well is a row of steps (`strides_of_walkParts`, `Strides.walkParts`). Each step looks at a directory and
goes on in it, up from it, into what stands there or, by a link, somewhere else; the last one ends at something or at a name
that is missing.
-/

namespace GatedRepair.Files

/-- A name that a walk looks up in a directory. -/
structure Enters (tree : Tree) (here : Location) (name : String) : Prop where
  inside : tree.get? here = some .directory
  speaks : ¬ (name = "" ∨ name = ".")
  stays : name ≠ ".."
  short : ¬ nameLimit < name.utf8ByteSize

theorem Enters.good {tree : Tree} {here : Location} {name : String} (enters : Enters tree here name)
    (free : '/' ∉ name.toList) : IsName name := by
  refine ⟨?_, enters.stays, free⟩
  have some : name.toList ≠ [] := fun empty => enters.speaks (.inl (String.toList_eq_nil_iff.mp empty))
  have noDot : name.toList ≠ ['.'] := fun dot => enters.speaks (.inr (String.toList_inj.mp dot))
  simp [Path.isSilent, some, noDot]

/-- The steps of a walk that ends well. -/
inductive Strides (tree : Tree) (followLast : Bool) (jump : Location → List String → Except Failure Spot) :
    Location → List String → Spot → Prop
  | stop {here : Location} {entry : Entry} (there : tree.get? here = some entry) :
      Strides tree followLast jump here [] (.found here entry)
  | silent {here : Location} {part : String} {rest : List String} {spot : Spot}
      (inside : tree.get? here = some .directory) (mute : part = "" ∨ part = ".")
      (further : Strides tree followLast jump here rest spot) : Strides tree followLast jump here (part :: rest) spot
  | up {here : Location} {rest : List String} {spot : Spot} (inside : tree.get? here = some .directory)
      (further : Strides tree followLast jump here.dropLast rest spot) :
      Strides tree followLast jump here (".." :: rest) spot
  | absent {here : Location} {name : String} (enters : Enters tree here name) (nothing : tree.get? (here ++ [name]) = none) :
      Strides tree followLast jump here [name] (.missing here name false)
  | absentSlash {here : Location} {name : String} (enters : Enters tree here name)
      (nothing : tree.get? (here ++ [name]) = none) :
      Strides tree followLast jump here [name, ""] (.missing here name true)
  | atLink {here : Location} {name target : String} (enters : Enters tree here name)
      (link : tree.get? (here ++ [name]) = some (.link target)) (stop : followLast = false) :
      Strides tree followLast jump here [name] (.found (here ++ [name]) (.link target))
  | follow {here : Location} {name target : String} {rest : List String} {spot : Spot} (enters : Enters tree here name)
      (link : tree.get? (here ++ [name]) = some (.link target)) (onward : rest = [] → followLast = true)
      (aims : ¬ target.isEmpty)
      (further : jump (if Path.isAbsolute target.toList then [] else here) (pathParts target.toList ++ rest) = .ok spot) :
      Strides tree followLast jump here (name :: rest) spot
  | down {here : Location} {name : String} {entry : Entry} {rest : List String} {spot : Spot}
      (enters : Enters tree here name) (there : tree.get? (here ++ [name]) = some entry)
      (direct : ∀ target, entry ≠ .link target) (further : Strides tree followLast jump (here ++ [name]) rest spot) :
      Strides tree followLast jump here (name :: rest) spot

section
variable {tree : Tree} {followLast : Bool} {jump : Location → List String → Except Failure Spot} {here : Location}
  {parts : List String} {spot : Spot}

theorem strides_of_walkParts (ended : walkParts tree followLast jump here parts = .ok spot) :
    Strides tree followLast jump here parts spot := by
  induction parts generalizing here with
  | nil =>
    unfold walkParts at ended
    split at ended
    · next entry there =>
      obtain rfl := Except.ok.inj ended
      exact .stop there
    · cases ended
  | cons part rest ih =>
    unfold walkParts at ended
    split at ended
    · cases ended
    · cases ended
    · cases ended
    · next inside =>
      split at ended
      · next mute => exact .silent inside mute (ih ended)
      · next speaks =>
        split at ended
        · next climbs =>
          subst climbs
          exact .up inside (ih ended)
        · next stays =>
          split at ended
          · cases ended
          · next short =>
            have enters : Enters tree here part := ⟨inside, speaks, stays, short⟩
            split at ended
            · next nothing =>
              split at ended
              · next last =>
                obtain rfl := List.isEmpty_iff.mp last
                obtain rfl := Except.ok.inj ended
                exact .absent enters nothing
              · split at ended
                · next slash =>
                  subst slash
                  obtain rfl := Except.ok.inj ended
                  exact .absentSlash enters nothing
                · cases ended
            · next target link =>
              split at ended
              · next last =>
                obtain ⟨rfl, stop⟩ : rest = [] ∧ followLast = false := by simpa using last
                obtain rfl := Except.ok.inj ended
                exact .atLink enters link stop
              · next more =>
                simp only at ended
                split at ended
                · cases ended
                · next aims =>
                  refine .follow enters link (fun last => ?_) aims ended
                  cases followLast with
                  | true => rfl
                  | false => exact absurd (by simp [last]) more
            · next entry direct there => exact .down enters there (fun target => by simpa using direct target) (ih ended)

theorem Strides.walkParts (strides : Strides tree followLast jump here parts spot) :
    walkParts tree followLast jump here parts = .ok spot := by
  induction strides with
  | stop there => rw [Files.walkParts, there]
  | silent inside mute _ ih =>
    rw [Files.walkParts, inside]
    simp only [mute, if_true, ih]
  | up inside _ ih =>
    rw [Files.walkParts, inside]
    simpa using ih
  | absent enters nothing =>
    rw [Files.walkParts, enters.inside]
    simp [enters.speaks, enters.stays, enters.short, nothing]
  | absentSlash enters nothing =>
    rw [Files.walkParts, enters.inside]
    simp [enters.speaks, enters.stays, enters.short, nothing]
  | atLink enters link stop =>
    rw [Files.walkParts, enters.inside]
    simp [enters.speaks, enters.stays, enters.short, link, stop]
  | follow enters link onward aims further =>
    rw [Files.walkParts, enters.inside]
    simp only [enters.speaks, enters.stays, enters.short, if_false, link]
    rw [if_neg, if_neg aims, further]
    intro last
    obtain ⟨empty, stop⟩ := by simpa using last
    rw [onward empty] at stop
    cases stop
  | @down here name entry rest spot enters there direct _ ih =>
    rw [Files.walkParts, enters.inside]
    simp only [enters.speaks, enters.stays, enters.short, if_false, there]
    cases entry with
    | link target => exact absurd rfl (direct target)
    | file content mode => exact ih
    | directory => exact ih

/-- A walk begins in a directory, unless it ends at once. -/
theorem Strides.inside (strides : Strides tree followLast jump here parts spot) :
    tree.get? here = some .directory ∨
      (parts = [] ∧ ∃ entry, spot = .found here entry ∧ tree.get? here = some entry) := by
  cases strides with
  | stop there => exact .inr ⟨rfl, _, rfl, there⟩
  | silent inside => exact .inl inside
  | up inside => exact .inl inside
  | absent enters => exact .inl enters.inside
  | absentSlash enters => exact .inl enters.inside
  | atLink enters => exact .inl enters.inside
  | follow enters => exact .inl enters.inside
  | down enters => exact .inl enters.inside

end

/-! ### The last step -/

/-- The spot of a location. -/
def spotAt (tree : Tree) (location : Location) : Spot :=
  match tree.get? location with
  | some entry => .found location entry
  | none => .missing location.dropLast (location.getLast?.getD "") false

section
variable {tree : Tree} {here : Location} {name : String}

theorem spotAt_of_get? {location : Location} {entry : Entry} (there : tree.get? location = some entry) :
    spotAt tree location = .found location entry := by
  rw [spotAt, there]

theorem spotAt_append (nothing : tree.get? (here ++ [name]) = none) :
    spotAt tree (here ++ [name]) = .missing here name false := by
  simp [spotAt, nothing]

/-- The last step of a walk into a directory. -/
theorem strides_name {followLast : Bool} {jump : Location → List String → Except Failure Spot} (enters : Enters tree here name)
    (direct : followLast = true → ∀ target, tree.get? (here ++ [name]) ≠ some (.link target)) :
    Strides tree followLast jump here [name] (spotAt tree (here ++ [name])) := by
  cases there : tree.get? (here ++ [name]) with
  | none =>
    rw [spotAt_append there]
    exact .absent enters there
  | some entry =>
    rw [spotAt_of_get? there]
    by_cases link : ∃ target, entry = .link target
    · obtain ⟨target, rfl⟩ := link
      exact .atLink enters there (by_contra fun last => direct (by simpa using last) target there)
    · exact .down enters there (fun target same => link ⟨target, same⟩) (.stop there)

end

end GatedRepair.Files

/-!
## Where walks end

A walk ends at a location that stands in directories only (`find?_settled`). Along the path of a location no part of which
is a link, it ends at that very location (`locate_pathOf`).
-/

namespace GatedRepair.Text

/-- The parts of a text are made of its characters, and hold no separator. -/
theorem mem_of_mem_split {separator : Char} {text part : List Char} (member : part ∈ split separator text) :
    ∀ c ∈ part, c ∈ text ∧ c ≠ separator := by
  induction text generalizing part with
  | nil =>
    obtain rfl := List.mem_singleton.mp member
    simp
  | cons d text ih =>
    have step : split separator (d :: text) = consPart separator d (split separator text) := rfl
    have later : ∀ other ∈ split separator text, ∀ c ∈ other, c ∈ d :: text ∧ c ≠ separator := fun other inside c holds =>
      ⟨List.mem_cons_of_mem d (ih inside c holds).1, (ih inside c holds).2⟩
    rw [step] at member
    unfold consPart at member
    split at member
    · rcases List.mem_cons.mp member with rfl | inside
      · simp
      · exact later part inside
    · next other =>
      split at member
      · next empty => exact absurd empty (split_ne_nil separator text)
      · next first more cut =>
        rcases List.mem_cons.mp member with rfl | inside
        · exact List.forall_mem_cons.mpr ⟨⟨List.mem_cons_self, other⟩, later first (cut ▸ List.mem_cons_self)⟩
        · exact later part (cut ▸ List.mem_cons_of_mem _ inside)

theorem free_of_mem_split {separator : Char} {text part : List Char} (member : part ∈ split separator text) :
    separator ∉ part :=
  fun inside => (mem_of_mem_split member separator inside).2 rfl

end GatedRepair.Text

namespace GatedRepair.Files

open Text

/-- The parts of a path have no slash in them. -/
theorem slash_not_mem_of_mem_pathParts {path : List Char} {part : String} (member : part ∈ pathParts path) :
    '/' ∉ part.toList := by
  have named : part ∈ ((split '/' path).filter (!·.isEmpty)).map String.ofList ∨ part = "" := by
    unfold pathParts at member
    simp only at member
    split at member
    · rcases List.mem_append.mp member with inside | last
      · exact .inl inside
      · exact .inr (List.mem_singleton.mp last)
    · exact .inl member
  rcases named with inside | rfl
  · obtain ⟨text, kept, rfl⟩ := List.mem_map.mp inside
    rw [String.toList_ofList]
    exact free_of_mem_split (List.mem_of_mem_filter kept)
  · exact List.not_mem_nil

/-- All that is above a location is a directory. -/
structure Settled (tree : Tree) (location : Location) : Prop where
  named : IsNamed location
  above : ∀ upper, upper <+: location → upper ≠ location → tree.get? upper = some .directory

/-- Where a walk may end. -/
def Spot.Sound (tree : Tree) : Spot → Prop
  | .found location entry => Settled tree location ∧ tree.get? location = some entry
  | .missing directory name _ => Settled tree (directory ++ [name]) ∧ tree.get? (directory ++ [name]) = none

section
variable {tree : Tree}

theorem settled_root : Settled tree [] := by
  refine ⟨fun name member => absurd member List.not_mem_nil, ?_⟩
  intro upper short other
  exact absurd (List.prefix_nil.mp short) other

theorem Settled.into {here : Location} (settled : Settled tree here) (inside : tree.get? here = some .directory)
    {name : String} (good : IsName name) : Settled tree (here ++ [name]) := by
  refine ⟨settled.named.append good, ?_⟩
  intro upper short other
  rcases List.prefix_concat_iff.mp short with whole | upper_here
  · exact absurd whole other
  · by_cases same : upper = here
    · rw [same]
      exact inside
    · exact settled.above upper upper_here same

theorem Settled.up {here : Location} (settled : Settled tree here) : Settled tree here.dropLast := by
  refine ⟨settled.named.of_prefix (List.dropLast_prefix here), ?_⟩
  intro upper short other
  refine settled.above upper (short.trans (List.dropLast_prefix here)) ?_
  rintro rfl
  have length := short.length_le
  rw [List.length_dropLast] at length
  have empty : upper = [] := List.length_eq_zero_iff.mp (by omega)
  subst empty
  exact other rfl

/-- Where a walk goes on from a link, it ends well. -/
def Leads (tree : Tree) (jump : Location → List String → Except Failure Spot) : Prop :=
  ∀ here parts spot, Settled tree here → (∀ part ∈ parts, '/' ∉ part.toList) → jump here parts = .ok spot →
    spot.Sound tree

theorem Strides.sound {followLast : Bool} {jump : Location → List String → Except Failure Spot} (leads : Leads tree jump)
    {here : Location} {parts : List String} {spot : Spot} (strides : Strides tree followLast jump here parts spot)
    (settled : Settled tree here) (free : ∀ part ∈ parts, '/' ∉ part.toList) : spot.Sound tree := by
  have into : ∀ {here : Location} {name : String} {rest : List String}, Enters tree here name → Settled tree here →
      (∀ part ∈ name :: rest, '/' ∉ part.toList) → Settled tree (here ++ [name]) := fun enters settled free =>
    settled.into enters.inside (enters.good (free _ List.mem_cons_self))
  induction strides with
  | stop there => exact ⟨settled, there⟩
  | silent _ _ _ ih => exact ih settled fun part member => free part (List.mem_cons_of_mem _ member)
  | up _ _ ih => exact ih settled.up fun part member => free part (List.mem_cons_of_mem _ member)
  | absent enters nothing => exact ⟨into enters settled free, nothing⟩
  | absentSlash enters nothing => exact ⟨into enters settled free, nothing⟩
  | atLink enters link => exact ⟨into enters settled free, link⟩
  | follow _ _ _ _ further =>
    refine leads _ _ _ ?_ (fun part member => ?_) further
    · split
      · exact settled_root
      · exact settled
    · rcases List.mem_append.mp member with first | second
      · exact slash_not_mem_of_mem_pathParts first
      · exact free part (List.mem_cons_of_mem _ second)
  | down enters _ _ _ ih => exact ih (into enters settled free) fun part member => free part (List.mem_cons_of_mem _ member)

theorem leads_walk (followLast : Bool) (links : Nat) : Leads tree (walk tree followLast links) := by
  induction links with
  | zero =>
    intro here parts spot settled free ended
    refine (strides_of_walkParts ended).sound ?_ settled free
    intro _ _ _ _ _ impossible
    cases impossible
  | succ links ih =>
    intro here parts spot settled free ended
    exact (strides_of_walkParts ended).sound ih settled free

theorem locate_sound {followLast : Bool} {path : String} {spot : Spot} (located : tree.locate followLast path = .ok spot) :
    spot.Sound tree := by
  unfold Tree.locate at located
  split at located
  · cases located
  · split at located
    · cases located
    · split at located
      · cases located
      · exact leads_walk followLast _ _ _ _ settled_root (fun part => slash_not_mem_of_mem_pathParts) located

/-- What a path leads to stands in directories only. -/
theorem find?_settled {path : String} {location : Location} {entry : Entry}
    (found : tree.find? path = .ok (location, entry)) : Settled tree location ∧ tree.get? location = some entry := by
  unfold Tree.find? at found
  split at found
  · next located =>
    obtain ⟨rfl, rfl⟩ := by simpa using found
    exact locate_sound located
  · cases found
  · cases found

/-! ### Paths without links -/

/-- Neither a location nor anything above it is a link. -/
def Straight (tree : Tree) (location : Location) : Prop :=
  ∀ upper, upper <+: location → ∀ target, tree.get? upper ≠ some (.link target)

/-- A walk to a location comes there if no link stands above it, nor at it if links are followed to the end. -/
theorem Strides.straight {followLast : Bool} {jump : Location → List String → Except Failure Spot} {here : Location}
    {names : List String} {spot : Spot} (strides : Strides tree followLast jump here names spot) (good : IsNamed names)
    (straight : ∀ upper, upper <+: here ++ names → (upper = here ++ names → followLast = true) →
      ∀ target, tree.get? upper ≠ some (.link target)) : spot = spotAt tree (here ++ names) := by
  induction strides with
  | stop there => rw [List.append_nil, spotAt_of_get? there]
  | silent _ mute => exact absurd mute (good _ List.mem_cons_self).speaks
  | up => exact absurd rfl (good _ List.mem_cons_self).2.1
  | absent _ nothing => exact (spotAt_append nothing).symm
  | absentSlash => exact absurd (good "" (by simp)) (by decide)
  | atLink _ link => exact (spotAt_of_get? link).symm
  | @follow here name target rest spot _ link onward =>
    refine absurd link (straight _ ⟨rest, List.append_assoc ..⟩ (fun whole => onward ?_) _)
    simpa using whole.symm
  | down _ _ _ _ ih =>
    rw [← List.singleton_append, ← List.append_assoc] at straight ⊢
    exact ih (fun other member => good other (List.mem_cons_of_mem _ member)) straight

theorem locate_aimed {location : Location} (good : IsNamed location) {followLast : Bool} {spot : Spot}
    (straight : ∀ upper, upper <+: location → (upper = location → followLast = true) →
      ∀ target, tree.get? upper ≠ some (.link target))
    (located : tree.locate followLast (Tree.pathOf location) = .ok spot) : spot = spotAt tree location := by
  unfold Tree.locate at located
  split at located
  · cases located
  · split at located
    · cases located
    · split at located
      · cases located
      · rw [pathParts_pathOf good] at located
        exact (strides_of_walkParts located).straight good straight

/-- A location's path leads to the location, if there are no links on it. -/
theorem locate_pathOf {location : Location} (good : IsNamed location) (straight : Straight tree location)
    {followLast : Bool} {spot : Spot} (located : tree.locate followLast (Tree.pathOf location) = .ok spot) :
    spot = spotAt tree location := locate_aimed good (fun upper short _ => straight upper short) located

theorem find?_pathOf {location : Location} (good : IsNamed location) (straight : Straight tree location)
    {other : Location} {entry : Entry} (found : tree.find? (Tree.pathOf location) = .ok (other, entry)) :
    other = location ∧ tree.get? location = some entry := by
  unfold Tree.find? at found
  split at found
  · next located =>
    obtain ⟨rfl, rfl⟩ := by simpa using found
    have spot := locate_pathOf good straight located
    unfold spotAt at spot
    split at spot
    · next there =>
      obtain ⟨rfl, rfl⟩ := by simpa using spot
      exact ⟨rfl, there⟩
    · cases spot
  · cases found
  · cases found

theorem Settled.straight {location : Location} (settled : Settled tree location)
    (direct : ∀ target, tree.get? location ≠ some (.link target)) : Straight tree location := by
  intro upper short target
  by_cases same : upper = location
  · rw [same]
    exact direct target
  · rw [settled.above upper short same]
    simp

end

/-! ### Walks that can be repeated -/

section
variable {before after : Tree}

/-- A walk along names succeeds again if what stands above its end is the same. -/
theorem Strides.names {followLast again : Bool} {jump jump' : Location → List String → Except Failure Spot} {here : Location}
    {names : List String} {spot : Spot} (strides : Strides before followLast jump here names spot) (good : IsNamed names)
    (straight : Straight after (here ++ names))
    (same : ∀ upper, upper <+: here ++ names → upper ≠ here ++ names → after.get? upper = before.get? upper)
    (there : (after.get? here).isSome = true) : Strides after again jump' here names (spotAt after (here ++ names)) := by
  have again : ∀ {here : Location} {name : String} {rest : List String}, Enters before here name →
      (∀ upper, upper <+: here ++ name :: rest → upper ≠ here ++ name :: rest → after.get? upper = before.get? upper) →
      Enters after here name := fun enters same =>
    { enters with inside := by rw [same _ (List.prefix_append _ _) (by simp), enters.inside] }
  induction strides with
  | stop =>
    obtain ⟨entry, found⟩ := Option.isSome_iff_exists.mp there
    rw [List.append_nil, spotAt_of_get? found]
    exact .stop found
  | silent _ mute => exact absurd mute (good _ List.mem_cons_self).speaks
  | up => exact absurd rfl (good _ List.mem_cons_self).2.1
  | absent enters => exact strides_name (again enters same) fun _ => straight _ List.prefix_rfl
  | absentSlash => exact absurd (good "" (by simp)) (by decide)
  | atLink enters => exact strides_name (again enters same) fun _ => straight _ List.prefix_rfl
  | @follow here name target rest spot enters link =>
    cases rest with
    | nil => exact strides_name (again enters same) fun _ => straight _ List.prefix_rfl
    | cons next more =>
      -- A link above the end is there still.
      rw [← same _ ⟨_, List.append_assoc ..⟩ (by simp)] at link
      exact absurd link (straight _ ⟨_, List.append_assoc ..⟩ _)
  | @down here name entry rest spot enters found direct _ ih =>
    cases rest with
    | nil => exact strides_name (again enters same) fun _ => straight _ List.prefix_rfl
    | cons next more =>
      rw [← same _ ⟨_, List.append_assoc ..⟩ (by simp)] at found
      have split : here ++ name :: next :: more = here ++ [name] ++ next :: more := by simp
      have further := ih (fun other member => good other (List.mem_cons_of_mem _ member)) (split ▸ straight)
        (split ▸ same) (by rw [found]; rfl)
      rw [split]
      exact .down (again enters same) found direct further

/-- A location's path leads to the location again if what stands above it is the same. -/
theorem locate_again {location : Location} (good : IsNamed location) (straight : Straight after location)
    (same : ∀ upper, upper <+: location → upper ≠ location → after.get? upper = before.get? upper) {followLast : Bool}
    {spot : Spot} (located : before.locate followLast (Tree.pathOf location) = .ok spot) (again : Bool) :
    after.locate again (Tree.pathOf location) = .ok (spotAt after location) := by
  unfold Tree.locate at located ⊢
  split at located
  · cases located
  · next clean =>
    split at located
    · cases located
    · next short =>
      split at located
      · cases located
      · next some =>
        rw [if_neg clean, if_neg short, if_neg some]
        rw [pathParts_pathOf good] at located ⊢
        exact ((strides_of_walkParts located).names good straight same rfl).walkParts

/-- What was found at a location's path is found again if it and what stands above it are the same. -/
theorem find?_again {location : Location} (good : IsNamed location) (straight : Straight before location)
    (same : ∀ upper, upper <+: location → after.get? upper = before.get? upper) {entry : Entry}
    (found : before.find? (Tree.pathOf location) = .ok (location, entry)) :
    after.find? (Tree.pathOf location) = .ok (location, entry) := by
  have stands := (find?_pathOf good straight found).2
  have straight' : Straight after location := fun upper short => by
    rw [same upper short]
    exact straight upper short
  unfold Tree.find? at found
  split at found
  · next located =>
    unfold Tree.find?
    rw [locate_again good straight' (fun upper short _ => same upper short) located true,
      spotAt_of_get? ((same location List.prefix_rfl).trans stands)]
  · cases found
  · cases found

end

end GatedRepair.Files
