import GatedRepair.Proofs.Files.Within
import Mathlib.Data.List.Induction

/-!
# Clear ways and trees of one shape
-/

/-!
## Where nothing is in the way

The path of a location that stands in directories leads to the location (`Clear.locate`). If the directories above it are
missing they can be made (`makeDirectories_open`), and if neither a directory nor a link takes its place or that of the file
beside it, a file can be replaced there (`writeAtomic_replaceable`).
-/

namespace GatedRepair.Files

instance (location : Location) : Decidable (IsNamed location) := inferInstanceAs (Decidable (∀ name ∈ location, IsName name))

/-- A location whose path and names are not too long for a walk. -/
structure Passable (location : Location) : Prop where
  named : IsNamed location
  short : ∀ name ∈ location, ¬ nameLimit < name.utf8ByteSize
  able : Walkable (Tree.pathOf location)

/-- The path of what stands above a location is the front of the location's path. -/
theorem pathOf_prefix {upper location : Location} (above : upper <+: location) :
    ∃ more, Tree.pathOf location = Tree.pathOf upper ++ more := by
  induction location using List.reverseRecOn with
  | nil =>
    obtain rfl := List.prefix_nil.mp above
    exact ⟨"", by simp⟩
  | append_singleton front name ih =>
    rcases List.prefix_concat_iff.mp above with rfl | higher
    · exact ⟨"", by simp⟩
    · obtain ⟨more, spelt⟩ := ih higher
      have longer : ∃ rest, Tree.pathOf (front ++ [name]) = Tree.pathOf front ++ rest := by
        by_cases top : front = []
        · subst top
          exact ⟨name, by simp [Tree.pathOf]⟩
        · refine ⟨String.ofList ('/' :: name.toList), ?_⟩
          rw [← String.toList_inj, pathOf_append top, String.toList_append, String.toList_ofList]
      obtain ⟨rest, longer⟩ := longer
      exact ⟨more ++ rest, by rw [longer, spelt, String.append_assoc]⟩

theorem Passable.of_prefix {upper location : Location} (passable : Passable location) (above : upper <+: location) :
    Passable upper := by
  obtain ⟨more, spelt⟩ := pathOf_prefix above
  have able := passable.able
  rw [spelt] at able
  refine ⟨passable.named.of_prefix above, fun name member => passable.short name (above.subset member), ?_, ?_, ?_⟩
  · intro zero
    refine able.clean ?_
    rw [String.toList_append]
    simp at zero ⊢
    exact .inl zero
  · intro long
    refine able.short ?_
    rw [String.utf8ByteSize_append]
    omega
  · simp [Tree.pathOf]

/-! ### Walks along names -/

section
variable {tree : Tree} {followLast : Bool} {jump : Location → List String → Except Failure Spot} {here : Location}
  {names : List String}

/-- A walk along names through directories comes to the last one. -/
theorem strides_names (named : IsNamed names) (short : ∀ name ∈ names, ¬ nameLimit < name.utf8ByteSize) (any : names ≠ [])
    (above : ∀ upper, upper <+: here ++ names → upper ≠ here ++ names → tree.get? upper = some .directory)
    (direct : followLast = true → ∀ target, tree.get? (here ++ names) ≠ some (.link target)) :
    Strides tree followLast jump here names (spotAt tree (here ++ names)) := by
  induction names generalizing here with
  | nil => exact absurd rfl any
  | cons name rest ih =>
    obtain ⟨good, others⟩ := List.forall_mem_cons.mp named
    obtain ⟨fits, fit⟩ := List.forall_mem_cons.mp short
    have enters : Enters tree here name :=
      ⟨above here (List.prefix_append _ _) (by simp), good.speaks, good.2.1, fits⟩
    cases rest with
    | nil => exact strides_name enters direct
    | cons next more =>
      have split : here ++ name :: next :: more = here ++ [name] ++ next :: more := by simp
      rw [split] at above direct ⊢
      have there : tree.get? (here ++ [name]) = some .directory := above _ (List.prefix_append _ _) (by simp)
      exact .down enters there (by simp) (ih others fit (by simp) above direct)

/-- A walk along names stops where a directory is missing. -/
theorem walkParts_gap (named : IsNamed names) (short : ∀ name ∈ names, ¬ nameLimit < name.utf8ByteSize)
    (inside : tree.get? here = some .directory)
    (way : ∀ upper, upper <+: here ++ names → upper ≠ here ++ names →
      tree.get? upper = some .directory ∨ tree.get? upper = none)
    {upper : Location} (below : here <+: upper) (above : upper <+: here ++ names) (proper : upper ≠ here ++ names)
    (missing : tree.get? upper = none) : walkParts tree followLast jump here names = .error .notFound := by
  induction names generalizing here with
  | nil =>
    rw [List.append_nil] at above proper
    exact absurd (above.eq_of_length_le below.length_le) proper
  | cons name rest ih =>
    obtain ⟨good, others⟩ := List.forall_mem_cons.mp named
    obtain ⟨fits, fit⟩ := List.forall_mem_cons.mp short
    have speaks := good.speaks
    have split : here ++ name :: rest = here ++ [name] ++ rest := by simp
    rw [split] at way above proper
    have next : here ++ [name] <+: upper := by
      rcases List.prefix_or_prefix_of_prefix above (List.prefix_append (here ++ [name]) rest) with shorter | longer
      · rcases List.prefix_concat_iff.mp shorter with same | higher
        · exact same ▸ List.prefix_rfl
        · have same := below.eq_of_length_le higher.length_le
          rw [← same, inside] at missing
          cases missing
      · exact longer
    have more : rest ≠ [] := by
      rintro rfl
      rw [List.append_nil] at above proper
      exact proper (above.eq_of_length_le next.length_le)
    have slash : rest ≠ [""] := by
      rintro rfl
      exact absurd (others "" (by simp)) (by decide)
    rw [walkParts, inside]
    simp only [speaks, good.2.1, fits, if_false]
    rcases way (here ++ [name]) (List.prefix_append _ _) (by simpa using more) with there | nothing
    · simp only [there]
      exact ih others fit there way next above proper
    · simp [nothing, more, slash]

end

/-! ### Locations that stand in directories -/

/-- A location that stands in directories. -/
structure Clear (tree : Tree) (location : Location) : Prop where
  passable : Passable location
  above : ∀ upper, upper <+: location → upper ≠ location → tree.get? upper = some .directory

section
variable {tree : Tree} {location : Location}

/-- The path of a location that stands in directories leads to it. -/
theorem Clear.locate (clear : Clear tree location) {followLast : Bool}
    (direct : followLast = true → ∀ target, tree.get? location ≠ some (.link target)) :
    tree.locate followLast (Tree.pathOf location) = .ok (spotAt tree location) := by
  rw [clear.passable.able.locate, pathParts_pathOf clear.passable.named]
  by_cases top : location = []
  · subst top
    rfl
  · have strides : Strides tree followLast (walk tree followLast 39) [] location (spotAt tree ([] ++ location)) :=
      strides_names clear.passable.named clear.passable.short top clear.above direct
    exact strides.walkParts

theorem Clear.find? (clear : Clear tree location) {entry : Entry} (there : tree.get? location = some entry)
    (direct : ∀ target, entry ≠ .link target) : tree.find? (Tree.pathOf location) = .ok (location, entry) := by
  refine find?_of_locate (clear.locate fun _ target link => ?_) there
  rw [there] at link
  exact direct target (Option.some.inj link)

/-- Directories lead to a location, as far as they are there. -/
def Open (tree : Tree) (location : Location) : Prop :=
  ∀ upper, upper <+: location → tree.get? upper = some .directory ∨ tree.get? upper = none

theorem open_root (tree : Tree) : Open tree [] := by
  intro upper short
  rw [List.prefix_nil.mp short]
  exact .inl rfl

theorem Open.append {front : Location} {name : String} (way : Open tree front)
    (free : tree.get? (front ++ [name]) = some .directory ∨ tree.get? (front ++ [name]) = none) : Open tree (front ++ [name]) := by
  intro upper short
  rcases List.prefix_concat_iff.mp short with rfl | higher
  · exact free
  · exact way upper higher

theorem locate_gap (passable : Passable location) (way : Open tree location) {upper : Location} (above : upper <+: location)
    (proper : upper ≠ location) (missing : tree.get? upper = none) (followLast : Bool) :
    tree.locate followLast (Tree.pathOf location) = .error .notFound := by
  rw [passable.able.locate, pathParts_pathOf passable.named]
  have gap : walkParts tree followLast (walk tree followLast 39) [] location = .error .notFound :=
    walkParts_gap passable.named passable.short rfl (fun upper short _ => way upper short) List.nil_prefix above proper missing
  exact gap

end

namespace Disk

/-! ### Making directories -/

section
variable {tree : Tree} {location : Location}

theorem makeDirectory_eq (tree : Tree) (path : String) : (sound tree).makeDirectory path =
    match makeDirectoryIn tree path with
    | .ok after => (.ok (), sound after)
    | .error e => (.error e, sound tree) := by
  unfold makeDirectory changing
  cases made : makeDirectoryIn tree path <;> simp only [meet, sound, made]

/-- In the directory that it belongs to a directory is made, or it is there already. -/
theorem makeDirectory_clear (clear : Clear tree location) (way : tree.get? location = some .directory ∨ tree.get? location = none) :
    ∃ after, after.get? location = some .directory ∧ (∀ x, x ≠ location → after.get? x = tree.get? x) ∧
      ((sound tree).makeDirectory (Tree.pathOf location) = (.ok (), sound after) ∨
        (sound tree).makeDirectory (Tree.pathOf location) = (.error .exists, sound after) ∧
          after.isDirectory (Tree.pathOf location) = true) := by
  have made := makeDirectory_eq tree (Tree.pathOf location)
  rw [makeDirectoryIn, clear.locate (by simp)] at made
  rcases way with there | missing
  · rw [spotAt_of_get? there] at made
    refine ⟨tree, there, fun _ _ => rfl, .inr ⟨made, ?_⟩⟩
    rw [Tree.isDirectory, clear.find? there (by simp)]
  · obtain ⟨front, name, rfl⟩ : ∃ front name, location = front ++ [name] := by
      refine (List.eq_nil_or_concat' location).resolve_left ?_
      rintro rfl
      cases missing
    rw [spotAt_append missing] at made
    have put := Tree.get?_put (by simp : front ++ [name] ≠ []) tree .directory
    exact ⟨_, by rw [put, if_pos rfl], fun x other => by rw [put, if_neg other], .inl made⟩

theorem makeDirectory_gap (passable : Passable location) (way : Open tree location) {upper : Location}
    (above : upper <+: location) (proper : upper ≠ location) (missing : tree.get? upper = none) :
    (sound tree).makeDirectory (Tree.pathOf location) = (.error .notFound, sound tree) := by
  rw [makeDirectory_eq, makeDirectoryIn, locate_gap passable way above proper missing]

theorem chainOf_append {front : Location} {name : String} (named : IsNamed (front ++ [name])) (fuel : Nat) :
    chainOf (Tree.pathOf (front ++ [name])).toList (fuel + 1) =
      Tree.pathOf (front ++ [name]) :: chainOf (Tree.pathOf front).toList fuel := by
  rw [chainOf, directory?_pathOf named, if_neg (by simp), List.dropLast_concat, String.ofList_toList]

/-- Where directories lead to a location as far as they are there, the others can be made, and nothing else changes. -/
theorem makeChain_open (passable : Passable location) (way : Open tree location) :
    ∃ after, (sound tree).makeChain (chainOf (Tree.pathOf location).toList location.length) = (.ok (), sound after) ∧
      (∀ upper, upper <+: location → after.get? upper = some .directory) ∧
      ∀ x, ¬ x <+: location → after.get? x = tree.get? x := by
  induction location using List.reverseRecOn with
  | nil =>
    have clear : Clear tree [] := ⟨passable, fun upper short other => absurd (List.prefix_nil.mp short) other⟩
    obtain ⟨after, -, rest, made⟩ := makeDirectory_clear clear (.inl rfl)
    refine ⟨after, ?_, ?_, fun x outside => rest x fun top => outside (top ▸ List.prefix_rfl)⟩
    · rw [List.length_nil, chainOf, String.ofList_toList, makeChain]
      rcases made with made | ⟨made, there⟩
      · rw [made]
      · rw [made]
        simp only [show (sound after).tree.isDirectory _ = true from there, if_true]
    · intro upper short
      rw [List.prefix_nil.mp short]
      rfl
  | append_singleton front name ih =>
    have wayIn : Open tree front := fun upper short => way upper (short.trans (List.prefix_append _ _))
    have outside : ¬ front ++ [name] <+: front := fun short => absurd short.length_le (by simp)
    -- The last directory is made once those above it are there.
    have finish : ∀ between : Tree, (∀ upper, upper <+: front → between.get? upper = some .directory) →
        (∀ x, ¬ x <+: front → between.get? x = tree.get? x) →
        ∃ after, (∀ upper, upper <+: front ++ [name] → after.get? upper = some .directory) ∧
          (∀ x, ¬ x <+: front ++ [name] → after.get? x = tree.get? x) ∧
          ((sound between).makeDirectory (Tree.pathOf (front ++ [name])) = (.ok (), sound after) ∨
            (sound between).makeDirectory (Tree.pathOf (front ++ [name])) = (.error .exists, sound after) ∧
              after.isDirectory (Tree.pathOf (front ++ [name])) = true) := by
      intro between above same
      have clear : Clear between (front ++ [name]) :=
        ⟨passable, fun upper short other => above upper ((List.prefix_concat_iff.mp short).resolve_left other)⟩
      obtain ⟨after, there, rest, made⟩ := makeDirectory_clear clear (same _ outside ▸ way _ List.prefix_rfl)
      refine ⟨after, fun upper short => ?_, fun x off => ?_, made⟩
      · rcases List.prefix_concat_iff.mp short with rfl | higher
        · exact there
        · have other : upper ≠ front ++ [name] := fun whole => outside (whole ▸ higher)
          rw [rest upper other, above upper higher]
      · have apart : x ≠ front ++ [name] := fun whole => off (whole ▸ List.prefix_rfl)
        rw [rest x apart, same x fun short => off (short.trans (List.prefix_append _ _))]
    rw [List.length_append, List.length_singleton, chainOf_append passable.named, makeChain]
    by_cases above : ∀ upper, upper <+: front → tree.get? upper = some .directory
    · obtain ⟨after, there, rest, made⟩ := finish tree above fun _ _ => rfl
      refine ⟨after, ?_, there, rest⟩
      rcases made with made | ⟨made, found⟩
      · rw [made]
      · rw [made]
        simp only [show (sound after).tree.isDirectory _ = true from found, if_true]
    · obtain ⟨upper, short, missing⟩ : ∃ upper, upper <+: front ∧ tree.get? upper = none := by
        by_contra none
        exact above fun upper short => (wayIn upper short).resolve_right fun missing => none ⟨upper, short, missing⟩
      have proper : upper ≠ front ++ [name] := fun whole => outside (whole ▸ short)
      obtain ⟨between, chain, there, rest⟩ := ih (passable.of_prefix (List.prefix_append _ _)) wayIn
      obtain ⟨after, there', rest', made⟩ := finish between there rest
      rw [makeDirectory_gap passable way (short.trans (List.prefix_append _ _)) proper missing]
      simp only [chain]
      refine ⟨after, ?_, there', rest'⟩
      rcases made with made | ⟨made, found⟩
      · rw [made]
      · rw [made]
        simp only [show (sound after).tree.isDirectory _ = true from found, if_true]

/-- A directory can be made where directories lead to it as far as they are there. -/
theorem makeDirectories_open (passable : Passable location) (way : Open tree location) :
    ∃ after, (sound tree).makeDirectories (Tree.pathOf location) = (.ok (), sound after) ∧
      (∀ upper, upper <+: location → after.get? upper = some .directory) ∧
      ∀ x, ¬ x <+: location → after.get? x = tree.get? x := by
  unfold makeDirectories
  rw [pathParts_pathOf passable.named]
  exact makeChain_open passable way

end

end Disk

/-! ### Replacing a file -/

/-- Neither a directory nor a link stands at a location. -/
def Vacant (tree : Tree) (location : Location) : Prop :=
  ∀ entry, tree.get? location = some entry → ∃ content mode, entry = .file content mode

theorem vacant_of_missing {tree : Tree} {location : Location} (missing : tree.get? location = none) : Vacant tree location := by
  intro entry there
  rw [missing] at there
  cases there

namespace Disk

section
variable {tree : Tree} {location : Location}

/-- A file can be written where it stands in directories and does not refuse it. -/
theorem write_clear (clear : Clear tree location) (vacant : Vacant tree location) (any : location ≠ [])
    (free : ∀ content mode, tree.get? location = some (.file content mode) → mode.refusal? = none) (content : ByteArray) :
    ∃ mode, (sound tree).write (Tree.pathOf location) content = (.ok (), sound (tree.put location (.file content mode))) := by
  have direct : ∀ target, tree.get? location ≠ some (.link target) := by
    intro target link
    obtain ⟨_, _, same⟩ := vacant _ link
    cases same
  have located : tree.locate true (Tree.pathOf location) = .ok (spotAt tree location) := clear.locate fun _ => direct
  obtain ⟨front, name, rfl⟩ := (List.eq_nil_or_concat' location).resolve_left any
  cases there : tree.get? (front ++ [name]) with
  | some entry =>
    obtain ⟨old, mode, rfl⟩ := vacant entry there
    have able : writable tree (Tree.pathOf (front ++ [name])) = .ok (front ++ [name], some (old, mode)) := by
      rw [writable, located, spotAt_of_get? there]
      simp [free old mode there]
    exact ⟨mode, by rw [write_sound, able]; rfl⟩
  | none =>
    have able : writable tree (Tree.pathOf (front ++ [name])) = .ok (front ++ [name], none) := by
      rw [writable, located, spotAt_append there]
    exact ⟨.shared, by rw [write_sound, able]; rfl⟩

theorem makePrivate_clear (clear : Clear tree location) {content : ByteArray} {mode : Mode}
    (there : tree.get? location = some (.file content mode)) :
    (sound tree).makePrivate (Tree.pathOf location) = (.ok (), sound (tree.put location (.file content mode.closed))) := by
  unfold makePrivate changing
  simp only [meet, sound, clear.find? there (by simp)]

theorem endsInDots_pathOf {house : Location} {name : String} (named : IsNamed (house ++ [name])) :
    endsInDots (Tree.pathOf (house ++ [name])) = false :=
  endsInDots_of_parts (pathParts_pathOf named) (named name (by simp))

/-- A file can be moved to a place where neither a directory nor a link stands. -/
theorem rename_clear {source : Location} (from_ : Clear tree source) {content : ByteArray} {mode : Mode}
    (stands : tree.get? source = some (.file content mode)) {house : Location} {name : String}
    (clear : Clear tree (house ++ [name])) (vacant : Vacant tree (house ++ [name])) :
    ∃ after, (sound tree).rename (Tree.pathOf source) (Tree.pathOf (house ++ [name])) = (.ok (), sound after) := by
  have named := clear.passable.named
  have slash : ¬ (Tree.pathOf (house ++ [name])).toList.getLast? = some '/' := getLast?_pathOf named (by simp)
  have moved : ∃ after, renameIn tree (Tree.pathOf source) (Tree.pathOf (house ++ [name])) = .ok after := by
    unfold renameIn
    rw [from_.locate (by simp), spotAt_of_get? stands]
    simp only [clear.locate (by simp : false = true → _), endsInDots_pathOf named, Bool.false_eq_true, if_false, slash]
    cases there : tree.get? (house ++ [name]) with
    | none =>
      rw [spotAt_append there]
      exact ⟨_, rfl⟩
    | some entry =>
      obtain ⟨old, mode', rfl⟩ := vacant entry there
      rw [spotAt_of_get? there]
      exact ⟨_, rfl⟩
  obtain ⟨after, moved⟩ := moved
  refine ⟨after, ?_⟩
  unfold rename changing
  simp only [meet, sound, moved]

end

end Disk

/-- A file can be replaced at a name in a house: the directories of the house are there or can be made, neither a directory
nor a link takes the place of the file or that of the file beside it, and the file beside it can be written. -/
structure Replaceable (tree : Tree) (house : Location) (name beside : String) : Prop where
  passable : Passable (house ++ [name])
  passable' : Passable (house ++ [beside])
  temporary : Disk.temporary (Tree.pathOf (house ++ [name])) = Tree.pathOf (house ++ [beside])
  way : Open tree house
  vacant : Vacant tree (house ++ [name])
  vacant' : Vacant tree (house ++ [beside])
  free : ∀ content mode, tree.get? (house ++ [beside]) = some (.file content mode) → mode.refusal? = none

section
variable {tree : Tree} {house : Location} {name beside : String}

/-- A vacant name in a house to which directories lead can be named by its path. -/
theorem plain_of_open (named : IsNamed (house ++ [name])) (way : Open tree house) (vacant : Vacant tree (house ++ [name])) :
    Plain tree (house ++ [name]) := by
  refine ⟨named, fun upper short target link => ?_⟩
  rcases List.prefix_concat_iff.mp short with rfl | higher
  · obtain ⟨_, _, same⟩ := vacant _ link
    cases same
  · rcases way upper higher with there | nothing
    · rw [there] at link
      cases link
    · rw [nothing] at link
      cases link

/-- A file that can be replaced is replaced on a disk on which nothing goes wrong. -/
theorem writeAtomic_replaceable (replaceable : Replaceable tree house name beside) (content : String) :
    ∃ after mode, (Disk.sound tree).writeAtomic (Tree.pathOf (house ++ [name])) content = (.ok (), .sound after) ∧
      after.find? (Tree.pathOf (house ++ [name])) = .ok (house ++ [name], .file content.toUTF8 mode) := by
  obtain ⟨passable, passable', temporary, way, vacant, vacant', able⟩ := replaceable
  have plain : Plain tree (house ++ [name]) := plain_of_open passable.named way vacant
  have plain' : Plain tree (house ++ [beside]) := plain_of_open passable'.named way vacant'
  obtain ⟨made, ready, above, rest⟩ := Disk.makeDirectories_open (passable.of_prefix (List.prefix_append _ _)) way
  have inside : ∀ n : String, ¬ house ++ [n] <+: house := fun n short => absurd short.length_le (by simp)
  -- While the directories are there, names in the house can be walked to, and writing beside the file leaves them there.
  have clear : ∀ {t : Tree} {n : String}, Passable (house ++ [n]) → (∀ upper, upper <+: house → t.get? upper = some .directory) →
      Clear t (house ++ [n]) := fun passable above =>
    ⟨passable, fun upper short other => above upper ((List.prefix_concat_iff.mp short).resolve_left other)⟩
  have put : ∀ (t : Tree) (entry : Entry) (x : Location),
      (t.put (house ++ [beside]) entry).get? x = if x = house ++ [beside] then some entry else t.get? x :=
    Tree.get?_put (by simp)
  have kept : ∀ {t : Tree} {entry : Entry}, (∀ upper, upper <+: house → t.get? upper = some .directory) →
      ∀ upper, upper <+: house → (t.put (house ++ [beside]) entry).get? upper = some .directory := by
    intro t entry above upper short
    have other : upper ≠ house ++ [beside] := fun same => inside beside (same ▸ short)
    rw [put, if_neg other, above upper short]
  have free : Vacant made (house ++ [beside]) := by
    intro entry there
    rw [rest _ (inside beside)] at there
    exact vacant' entry there
  obtain ⟨mode, written⟩ := Disk.write_clear (clear passable' above) free (by simp)
    (fun content mode there => able content mode (rest _ (inside beside) ▸ there)) content.toUTF8
  have stands : ∀ (t : Tree) (entry : Entry), (t.put (house ++ [beside]) entry).get? (house ++ [beside]) = some entry := by
    intro t entry
    rw [put, if_pos rfl]
  have closed := Disk.makePrivate_clear (clear passable' (kept above)) (stands made (.file content.toUTF8 mode))
  have target : Vacant ((made.put (house ++ [beside]) (.file content.toUTF8 mode)).put (house ++ [beside])
      (.file content.toUTF8 mode.closed)) (house ++ [name]) := by
    intro entry there
    rw [put, put] at there
    split at there
    · exact ⟨_, _, (Option.some.inj there).symm⟩
    · rw [rest _ (inside name)] at there
      exact vacant entry there
  obtain ⟨after, moved⟩ := Disk.rename_clear (clear passable' (kept (kept above))) (stands _ _)
    (clear passable (kept (kept above))) target
  have done : (Disk.sound tree).writeAtomic (Tree.pathOf (house ++ [name])) content = (.ok (), .sound after) := by
    unfold Disk.writeAtomic Disk.makeSurroundings Disk.settle
    rw [directory?_pathOf passable.named, if_neg (by simp), List.dropLast_concat, temporary]
    simp only [String.ofList_toList, ready, written, closed, moved]
  have found : ((Disk.sound tree).writeAtomic (Tree.pathOf (house ++ [name])) content).1 = .ok () →
      ∃ mode, ((Disk.sound tree).writeAtomic (Tree.pathOf (house ++ [name])) content).2.tree.find?
        (Tree.pathOf (house ++ [name])) = .ok (house ++ [name], .file content.toUTF8 mode) :=
    (Disk.writeAtomic_spec (plain_of_open passable.named way vacant) (plain_of_open passable'.named way vacant') temporary
      content).2
  rw [done] at found
  obtain ⟨mode', found⟩ := found rfl
  exact ⟨after, mode', done, found⟩

end

/-!
## Trees of one shape

Trees that differ only in what is written in their files have the same shape. Every path leads to the same place in them
(`locate_sameShape`), so whether something exists or is a directory depends on the shape alone.
-/

/-- The kind of an entry: what is left of it without the content of a file. -/
def Entry.kind : Entry → Entry
  | .file .. => .file ByteArray.empty .shared
  | .directory => .directory
  | .link target => .link target

def Spot.kind : Spot → Spot
  | .found location entry => .found location entry.kind
  | .missing directory name slash => .missing directory name slash

/-- Entries of the same kind stand at the same places. -/
def SameShape (before after : Tree) : Prop := ∀ x, (before.get? x).map Entry.kind = (after.get? x).map Entry.kind

section
variable {before after : Tree} {followLast : Bool} {path : String} {place location : Location} {entry : Entry}
  {jump jump' : Location → List String → Except Failure Spot}

theorem SameShape.refl (tree : Tree) : SameShape tree tree := fun _ => rfl

theorem SameShape.symm (same : SameShape before after) : SameShape after before := fun x => (same x).symm

/-- Writing over a file leaves the shape. -/
theorem sameShape_put {old : ByteArray} {mode : Mode} (stood : before.get? place = some (.file old mode)) (new : ByteArray)
    (mode' : Mode) : SameShape before (before.put place (.file new mode')) := by
  intro x
  rw [Tree.get?_put (ne_nil_of_get? stood (by simp))]
  split
  · next same =>
    rw [same, stood]
    rfl
  · rfl

/-- What stands at one place in trees of one shape. -/
theorem SameShape.cases (same : SameShape before after) (x : Location) :
    (before.get? x = none ∧ after.get? x = none) ∨ (before.get? x = some .directory ∧ after.get? x = some .directory) ∨
      (∃ target, before.get? x = some (.link target) ∧ after.get? x = some (.link target)) ∨
      ∃ content mode content' mode', before.get? x = some (.file content mode) ∧ after.get? x = some (.file content' mode') := by
  have kinds := same x
  cases first : before.get? x with
  | none =>
    cases second : after.get? x with
    | none => simp
    | some entry => rw [first, second] at kinds; cases kinds
  | some entry =>
    cases second : after.get? x with
    | none => rw [first, second] at kinds; cases kinds
    | some entry' =>
      rw [first, second] at kinds
      cases entry <;> cases entry' <;> simp_all [Entry.kind]

/-- Walks take the same way in trees of one shape. -/
theorem walkParts_sameShape (same : SameShape before after)
    (onward : ∀ here parts, (jump here parts).map Spot.kind = (jump' here parts).map Spot.kind) (here : Location)
    (parts : List String) :
    (walkParts before followLast jump here parts).map Spot.kind = (walkParts after followLast jump' here parts).map Spot.kind := by
  induction parts generalizing here with
  | nil =>
    unfold walkParts
    obtain ⟨first, second⟩ | ⟨first, second⟩ | ⟨_, first, second⟩ | ⟨_, _, _, _, first, second⟩ := same.cases here
    all_goals
      rw [first, second]
    all_goals rfl
  | cons part rest ih =>
    unfold walkParts
    obtain ⟨first, second⟩ | ⟨first, second⟩ | ⟨_, first, second⟩ | ⟨_, _, _, _, first, second⟩ := same.cases here
    · rw [first, second]
    · rw [first, second]
      simp only
      split
      · exact ih here
      · split
        · exact ih here.dropLast
        · split
          · rfl
          · obtain ⟨first, second⟩ | ⟨first, second⟩ | ⟨_, first, second⟩ | ⟨_, _, _, _, first, second⟩ :=
              same.cases (here ++ [part])
            · rw [first, second]
            · rw [first, second]
              exact ih (here ++ [part])
            · rw [first, second]
              simp only
              split
              · rfl
              · split
                · rfl
                · exact onward _ _
            · rw [first, second]
              exact ih (here ++ [part])
    · rw [first, second]
    · rw [first, second]

theorem walk_sameShape (same : SameShape before after) (links : Nat) (here : Location) (parts : List String) :
    (walk before followLast links here parts).map Spot.kind = (walk after followLast links here parts).map Spot.kind := by
  induction links generalizing here parts with
  | zero => exact walkParts_sameShape same (fun _ _ => rfl) here parts
  | succ links ih => exact walkParts_sameShape same ih here parts

/-- A path leads to the same place in trees of one shape. -/
theorem locate_sameShape (same : SameShape before after) (followLast : Bool) (path : String) :
    (before.locate followLast path).map Spot.kind = (after.locate followLast path).map Spot.kind := by
  unfold Tree.locate
  split
  · rfl
  · split
    · rfl
    · split
      · rfl
      · exact walk_sameShape same _ _ _

/-- What is found in one tree is found in the other, but for its content. -/
theorem find?_sameShape (same : SameShape before after) (found : before.find? path = .ok (location, entry)) :
    ∃ entry', after.find? path = .ok (location, entry') ∧ entry'.kind = entry.kind := by
  have led := locate_sameShape same true path
  rw [find?_iff.mp found] at led
  cases second : after.locate true path with
  | error e => rw [second] at led; cases led
  | ok spot =>
    rw [second] at led
    cases spot with
    | missing => cases led
    | found location' entry' =>
      obtain ⟨rfl, kinds⟩ := Spot.found.inj (Except.ok.inj led)
      exact ⟨entry', find?_iff.mpr second, kinds.symm⟩

theorem SameShape.exists? (same : SameShape before after) (there : before.exists? path = true) : after.exists? path = true := by
  unfold Tree.exists? at there ⊢
  cases first : before.find? path with
  | error e => rw [first] at there; cases there
  | ok found =>
    obtain ⟨entry, second, -⟩ := find?_sameShape same first
    rw [second]
    rfl

theorem exists?_sameShape (same : SameShape before after) (path : String) : after.exists? path = before.exists? path :=
  Bool.eq_iff_iff.mpr ⟨same.symm.exists?, same.exists?⟩

theorem isDirectory_iff {tree : Tree} : tree.isDirectory path = true ↔ ∃ house, tree.find? path = .ok (house, .directory) := by
  unfold Tree.isDirectory
  split
  · next house found => exact ⟨fun _ => ⟨house, found⟩, fun _ => rfl⟩
  · next other => exact ⟨fun impossible => (by cases impossible), fun ⟨house, found⟩ => absurd found (other house)⟩

theorem SameShape.isDirectory (same : SameShape before after) (there : before.isDirectory path = true) :
    after.isDirectory path = true := by
  obtain ⟨house, found⟩ := isDirectory_iff.mp there
  obtain ⟨entry, found, kinds⟩ := find?_sameShape same found
  refine isDirectory_iff.mpr ⟨house, ?_⟩
  cases entry <;> cases kinds
  exact found

/-! ### Directories that are there -/

theorem Disk.exists_chainOf (path : String) :
    ∃ outer, chainOf path.toList (pathParts path.toList).length = path :: outer := by
  cases (pathParts path.toList).length <;> exact ⟨_, by rw [chainOf, String.ofList_toList]⟩

/-- No directories are made where something stands already. -/
theorem Disk.makeDirectories_found {tree : Tree} (found : tree.find? path = .ok (location, entry)) :
    (Disk.sound tree).makeDirectories path = (if tree.isDirectory path then .ok () else .error .exists, Disk.sound tree) := by
  have refused : makeDirectoryIn tree path = .error .exists := by
    unfold makeDirectoryIn
    rcases locate_unfollowed (find?_iff.mp found) with located | ⟨x, target, located⟩ <;> rw [located]
  obtain ⟨outer, chain⟩ := exists_chainOf path
  unfold makeDirectories
  rw [chain, makeChain, makeDirectory_eq, refused]
  rfl

theorem Disk.makeDirectories_there {tree : Tree} (there : tree.isDirectory path = true) :
    (Disk.sound tree).makeDirectories path = (.ok (), Disk.sound tree) := by
  obtain ⟨house, found⟩ := isDirectory_iff.mp there
  rw [makeDirectories_found found, if_pos there]

/-- A directory that was made within another one is there. -/
theorem Disk.makeDirectory_there {tree made : Tree} {directory name : String} (some : directory ≠ "") (good : IsName name)
    (ended : (Disk.sound tree).makeDirectory (Path.within directory name) = (.ok (), .sound made)) :
    made.isDirectory (Path.within directory name) = true := by
  rw [makeDirectory_eq] at ended
  cases changed : makeDirectoryIn tree (Path.within directory name) with
  | error e => rw [changed] at ended; cases (Prod.mk.inj ended).1
  | ok after =>
    rw [changed] at ended
    obtain rfl : after = made := congrArg Disk.tree (Prod.mk.inj ended).2
    unfold makeDirectoryIn at changed
    split at changed
    · cases changed
    · cases changed
    · next house' other slash located =>
      obtain ⟨fits, house, found⟩ := found_of_locate_within some good located
      have nothing := (locate_sound located).2
      rw [locate_within fits found (fun impossible => by cases impossible)] at located
      rw [(place_of_spotAt (Except.ok.inj located).symm).2] at changed nothing
      obtain rfl := Except.ok.inj changed
      have put : Changed (At (house ++ [name])) Nowhere tree (tree.put (house ++ [name]) .directory) :=
        changed_put (by simp) tree (by simp)
      have firm := put.firm (by simp [nothing]) (by simp [nothing])
      have stands : (tree.put (house ++ [name]) .directory).get? (house ++ [name]) = Option.some .directory := by
        rw [Tree.get?_put (by simp), if_pos rfl]
      refine isDirectory_iff.mpr ⟨house ++ [name], find?_iff.mpr ?_⟩
      rw [locate_within fits (find?_firm firm found) (by simp [stands]), spotAt_of_get? stands]

/-- Directories that were made within another one are there. -/
theorem Disk.makeDirectories_made {tree made : Tree} {directory name : String} (some : directory ≠ "") (good : IsName name)
    (ended : (Disk.sound tree).makeDirectories (Path.within directory name) = (.ok (), .sound made)) :
    made.isDirectory (Path.within directory name) = true := by
  generalize path_eq : Path.within directory name = path at ended ⊢
  have once : ∀ tree made, (Disk.sound tree).makeDirectory path = (.ok (), .sound made) → made.isDirectory path = true := by
    intro tree made ended
    subst path_eq
    exact makeDirectory_there some good ended
  obtain ⟨outer, chain⟩ := exists_chainOf path
  have checked : ∀ disk : Disk, ∀ e, ((if disk.tree.isDirectory path then .ok () else .error e, disk) : Outcome Unit) =
      (.ok (), .sound made) → made.isDirectory path = true := by
    intro disk e same
    obtain ⟨well, rfl⟩ := Prod.mk.inj same
    split at well
    · next there => exact there
    · cases well
  rw [makeDirectories, chain, makeChain] at ended
  split at ended
  · next disk first =>
    obtain ⟨-, rfl⟩ := Prod.mk.inj ended
    exact once tree made first
  · next disk₁ first =>
    -- The directory is made once those around it are there.
    obtain ⟨tree₁, same⟩ := makeDirectory_sound tree path
    rw [first] at same
    obtain rfl : disk₁ = sound tree₁ := same
    split at ended
    · cases (Prod.mk.inj ended).1
    · next disk₂ outer_made =>
      obtain ⟨tree₂, same⟩ := makeChain_sound tree₁ outer
      rw [outer_made] at same
      obtain rfl : disk₂ = sound tree₂ := same
      split at ended
      · next disk₃ second =>
        obtain ⟨-, rfl⟩ := Prod.mk.inj ended
        exact once tree₂ made second
      · next e disk₃ second => exact checked disk₃ e ended
  · next e disk _ first => exact checked disk e ended

end

end GatedRepair.Files
