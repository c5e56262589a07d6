import GatedRepair.Files.Tree
import GatedRepair.Proofs.Files.Within

/-!
# Files of a repository lie in it

A path that is accepted leads to a regular file below the root of the repository. The path without links that the file is
known by from then on has no dots in it, begins with the root's component by component, and is the root's path with the
relative one after it (`contained_of_resolve`). Empty paths and relative ones that climb are refused (`resolve_empty`,
`resolve_climbing`).
-/

namespace GatedRepair.Files

open Text

/-! ## Components of a location's path -/

/-- What the names of a location mean in a path. -/
def componentsOf (location : Location) : List Path.Component := location.map fun name => .name name.toList

theorem componentsOf_append (upper lower : Location) :
    componentsOf (upper ++ lower) = componentsOf upper ++ componentsOf lower := List.map_append

/-- What the parts of a text mean that say something. -/
def meaning (text : List Char) : List Path.Component := ((split '/' text).filter (!Path.isSilent ·)).map Path.componentOf

theorem meaning_append_slash (text more : List Char) : meaning (text ++ '/' :: more) = meaning text ++ meaning more := by
  rw [meaning, split_append, List.filter_append, List.map_append]
  rfl

theorem components_absolute {path : List Char} (absolute : Path.isAbsolute path = true) :
    Path.components path = .root :: meaning path := by
  simp only [Path.components, absolute, if_true]
  rfl

/-- Names with slashes between them mean themselves. -/
theorem meaning_intercalate {location : Location} (good : IsNamed location) :
    meaning ("/".intercalate location).toList = componentsOf location := by
  by_cases none : location = []
  · subst none
    decide
  · have cut : split '/' ("/".intercalate location).toList = location.map String.toList := by
      rw [String.toList_intercalate]
      refine split_intercalate (by simpa using none) fun part member => ?_
      obtain ⟨name, inside, rfl⟩ := List.mem_map.mp member
      exact (good name inside).2.2
    have kept : (location.map String.toList).filter (!Path.isSilent ·) = location.map String.toList := by
      rw [List.filter_eq_self]
      intro part member
      obtain ⟨name, inside, rfl⟩ := List.mem_map.mp member
      simp [(good name inside).1]
    rw [meaning, cut, kept, List.map_map]
    refine List.map_congr_left fun name inside => ?_
    have stays : name.toList ≠ ['.', '.'] := fun dots => (good name inside).2.1 (String.toList_inj.mp dots)
    exact if_neg stays

theorem meaning_pathOf {location : Location} (good : IsNamed location) :
    meaning (Tree.pathOf location).toList = componentsOf location := by
  have spelt : (Tree.pathOf location).toList = [] ++ '/' :: ("/".intercalate location).toList := by
    simp [Tree.pathOf]
  rw [spelt, meaning_append_slash, meaning_intercalate good]
  rfl

theorem isAbsolute_pathOf (location : Location) : Path.isAbsolute (Tree.pathOf location).toList = true := by
  rw [toList_pathOf]
  rfl

theorem components_pathOf {location : Location} (good : IsNamed location) :
    Path.components (Tree.pathOf location).toList = .root :: componentsOf location := by
  rw [components_absolute (isAbsolute_pathOf location), meaning_pathOf good]

theorem relative_intercalate {location : Location} (good : IsNamed location) :
    Path.isAbsolute ("/".intercalate location).toList = false := by
  cases location with
  | nil => rfl
  | cons name more =>
    have first : IsName name := good name List.mem_cons_self
    have begins : ∃ rest, ("/".intercalate (name :: more)).toList = name.toList ++ rest := by
      rw [String.toList_intercalate]
      cases more with
      | nil => exact ⟨[], by simp⟩
      | cons next more => exact ⟨_, by rw [List.map_cons, List.map_cons, List.intercalate_cons_cons, List.append_assoc]⟩
    obtain ⟨rest, begins⟩ := begins
    have relative := first.relative
    rw [begins]
    unfold Path.isAbsolute at relative ⊢
    rw [List.head?_append_of_ne_nil _ first.ne_nil, relative]

/-- The path of a location with the names that come after it is the path of all names, but perhaps for a slash at the end. -/
theorem components_within {upper lower : Location} (good : IsNamed (upper ++ lower)) :
    Path.components (Path.within (Tree.pathOf upper) ("/".intercalate lower)).toList =
      Path.components (Tree.pathOf (upper ++ lower)).toList := by
  have short : IsNamed upper := good.of_prefix (List.prefix_append _ _)
  have rest : IsNamed lower := fun name member => good name (List.mem_append_right _ member)
  have joined : ∃ base, (Path.within (Tree.pathOf upper) ("/".intercalate lower)).toList =
      base ++ '/' :: ("/".intercalate lower).toList ∧ meaning base = componentsOf upper ∧
      ∀ more, Path.isAbsolute (base ++ '/' :: more) = true := by
    unfold Path.within Path.joined
    rw [relative_intercalate rest, if_neg Bool.false_ne_true, String.toList_ofList]
    by_cases top : upper = []
    · subst top
      exact ⟨[], rfl, by decide, fun _ => rfl⟩
    · have closed := getLast?_pathOf short top
      have some : (Tree.pathOf upper).toList ≠ [] := by simp [toList_pathOf]
      refine ⟨(Tree.pathOf upper).toList, if_neg (by simp [closed, some]), meaning_pathOf short, fun more => ?_⟩
      rw [toList_pathOf]
      rfl
  obtain ⟨base, spelt, base_means, absolute⟩ := joined
  rw [spelt, components_absolute (absolute _), components_pathOf good, meaning_append_slash, base_means,
    meaning_intercalate rest]
  rw [componentsOf_append]

/-! ## Paths that are accepted -/

/-- A file of a repository: where the root and the file are, and what the file's paths say. -/
structure Contained (tree : Tree) (root : String) (file : RepositoryFile) (top place : Location) : Prop where
  canonical : tree.canonical root = .ok (Tree.pathOf top)
  absolute : file.absolute = Tree.pathOf place
  regular : ∃ content mode, tree.get? place = some (.file content mode)
  leads : Reaches tree file.absolute place
  straight : Straight tree place
  dotless : Path.components file.absolute.toList = .root :: componentsOf place
  below : top <+: place
  inside : Path.startsWith file.absolute.toList (Tree.pathOf top).toList = true
  joined : Path.components (Path.within (Tree.pathOf top) file.relative).toList = Path.components file.absolute.toList

section
variable {tree : Tree} {root path : String} {file : RepositoryFile} {top place : Location}

/-- What an accepted path is made of. -/
theorem resolve_cases (resolved : tree.resolve root path = .ok file) :
    ∃ top entry lower content mode, tree.find? root = .ok (top, entry) ∧ Settled tree (top ++ lower) ∧
      tree.get? (top ++ lower) = some (.file content mode) ∧
      file = ⟨Tree.pathOf (top ++ lower), "/".intercalate lower⟩ := by
  unfold Tree.resolve at resolved
  split at resolved
  · cases resolved
  · split at resolved
    · cases resolved
    · next top entry rooted =>
      split at resolved
      · cases resolved
      · simp only at resolved
        split at resolved
        · cases resolved
        · next location entry' found =>
          obtain ⟨settled, stands⟩ := find?_settled found
          unfold RepositoryFile.below at resolved
          split at resolved
          · next below =>
            obtain ⟨lower, rfl⟩ := List.isPrefixOf_iff_prefix.mp below
            split at resolved
            · next content mode =>
              rw [List.drop_left] at resolved
              exact ⟨top, entry, lower, content, mode, rooted, settled, stands, (Except.ok.inj resolved).symm⟩
            · cases resolved
          · cases resolved

/-- A path that is accepted leads to a regular file in the repository. -/
theorem contained_of_resolve (resolved : tree.resolve root path = .ok file) :
    ∃ top place, Contained tree root file top place := by
  obtain ⟨top, entry, lower, content, mode, rooted, settled, stands, rfl⟩ := resolve_cases resolved
  have straight : Straight tree (top ++ lower) := settled.straight (by simp [stands])
  have named := settled.named
  have upper : IsNamed top := named.of_prefix (List.prefix_append _ _)
  refine ⟨top, top ++ lower, canonical_of_find? rooted, rfl, ⟨content, mode, stands⟩, ?leads, straight, ?dotless,
    List.prefix_append _ _, ?inside, components_within named⟩
  case leads => exact (Plain.mk named straight).reaches
  case dotless => exact components_pathOf named
  case inside =>
    rw [Path.startsWith, components_pathOf upper, components_pathOf named, List.isPrefixOf_iff_prefix,
      List.prefix_cons_inj, componentsOf_append]
    exact List.prefix_append _ _

/-- An empty path is refused. -/
theorem resolve_empty : tree.resolve root "" = .error .empty := rfl

/-- A relative path that climbs is refused, whatever it leads to, unless there is no root to begin with. -/
theorem resolve_climbing (relative : Path.isAbsolute path.toList = false)
    (climbs : .parent ∈ Path.components path.toList) :
    tree.resolve root path = match tree.find? root with
      | .error failure => .error (.noRoot failure)
      | .ok _ => .error (.climbs path) := by
  have some : path ≠ "" := by
    rintro rfl
    exact absurd climbs (by decide)
  have climbs' : (Path.components path.toList).contains .parent = true := by simpa using climbs
  rw [Tree.resolve, if_neg some]
  cases tree.find? root with
  | error failure => rfl
  | ok rooted => simp only [relative, climbs', Bool.not_false, Bool.true_and, if_true]

end

end GatedRepair.Files

/-!
## Paths below a base

Something is below a base where a path begins with the components of the base, and only there (`below?_isSome`). A path of
names that is put behind a base is what is below it then, character by character, however the base is spelt
(`below?_joined`).
-/

namespace GatedRepair.Files

open Text GatedRepair.Path

/-- Parts that are all names. -/
def AllNames (parts : List (List Char)) : Prop := ∀ part ∈ parts, isSilent part = false ∧ part ≠ ['.', '.']

/-- A relative path without dots and empty parts. -/
def IsPlain (path : String) : Prop := AllNames (split '/' path.toList)

instance (path : String) : Decidable (IsPlain path) :=
  inferInstanceAs (Decidable (∀ part ∈ split '/' path.toList, isSilent part = false ∧ part ≠ ['.', '.']))

section
variable {path : String} (plain : IsPlain path)
include plain

theorem IsPlain.relative : isAbsolute path.toList = false := by
  by_contra absolute
  obtain ⟨rest, spelt⟩ : ∃ rest, path.toList = '/' :: rest :=
    List.head?_eq_some_iff.mp (by simpa [isAbsolute] using absolute)
  have first : [] ∈ split '/' path.toList := by
    rw [spelt, split_cons_separator]
    exact List.mem_cons_self
  exact absurd (plain [] first).1 (by decide)

theorem IsPlain.ne_empty : path ≠ "" := by
  rintro rfl
  exact absurd plain (by decide)

end

/-! ### Silent parts -/

theorem dropSilent_of_allNames {parts : List (List Char)} (names : AllNames parts) : dropSilent parts = parts := by
  cases parts with
  | nil => rfl
  | cons part more => exact List.dropWhile_cons_of_neg (by simp [(names part List.mem_cons_self).1])

theorem dropSilentEnd_of_allNames {parts : List (List Char)} (names : AllNames parts) : dropSilentEnd parts = parts := by
  have reversed : dropSilent parts.reverse = parts.reverse :=
    dropSilent_of_allNames fun part inside => names part (List.mem_reverse.mp inside)
  rw [dropSilentEnd, ← dropSilent, reversed, List.reverse_reverse]

theorem filter_dropSilent (parts : List (List Char)) :
    (dropSilent parts).filter (!isSilent ·) = parts.filter (!isSilent ·) := by
  induction parts with
  | nil => rfl
  | cons part more ih =>
    by_cases silent : isSilent part = true
    · rw [dropSilent, List.dropWhile_cons_of_pos silent, List.filter_cons_of_neg (by simp [silent])]
      exact ih
    · rw [dropSilent, List.dropWhile_cons_of_neg silent]

theorem partsAfter?_cons_silent {part : List Char} (silent : isSilent part = true) (c : Component) (more : List Component)
    (parts : List (List Char)) : partsAfter? (c :: more) (part :: parts) = partsAfter? (c :: more) parts := by
  rw [partsAfter?, partsAfter?, dropSilent, List.dropWhile_cons_of_pos silent]
  rfl

theorem partsAfter?_cons_name {part : List Char} (name : ¬ isSilent part = true) (more : List Component)
    (parts : List (List Char)) : partsAfter? (componentOf part :: more) (part :: parts) = partsAfter? more parts := by
  rw [partsAfter?, dropSilent, List.dropWhile_cons_of_neg name]
  exact if_pos rfl

/-! ### What is below -/

/-- Parts begin with components where those of them that say something do. -/
theorem partsAfter?_isSome (wanted : List Component) (parts : List (List Char)) :
    (partsAfter? wanted parts).isSome = wanted.isPrefixOf ((parts.filter (!isSilent ·)).map componentOf) := by
  induction wanted generalizing parts with
  | nil => rfl
  | cons c more ih =>
    rw [partsAfter?, ← filter_dropSilent]
    cases left : dropSilent parts with
    | nil => rfl
    | cons part rest =>
      have name : ¬ isSilent part = true := by
        have kept := List.head?_dropWhile_not isSilent parts
        rw [dropSilent] at left
        simpa [left] using kept
      rw [List.filter_cons_of_pos (by simpa using name), List.map_cons, List.isPrefixOf]
      by_cases same : componentOf part = c
      · simp [same, ih]
      · simp [same, Ne.symm same]

/-- Behind the parts that were asked for, what follows is left, and silent parts before it. -/
theorem partsAfter?_append (lead parts : List (List Char)) :
    ∃ silent, partsAfter? ((lead.filter (!isSilent ·)).map componentOf) (lead ++ parts) = some (silent ++ parts) ∧
      ∀ part ∈ silent, isSilent part = true := by
  induction lead with
  | nil => exact ⟨[], rfl, by simp⟩
  | cons part lead ih =>
    by_cases silent : isSilent part = true
    · rw [List.filter_cons_of_neg (by simp [silent])]
      cases wanted : (lead.filter (!isSilent ·)).map componentOf with
      | nil =>
        have all : ∀ other ∈ lead, isSilent other = true := by simpa using wanted
        exact ⟨part :: lead, rfl, List.forall_mem_cons.mpr ⟨silent, all⟩⟩
      | cons c more =>
        rw [List.cons_append, partsAfter?_cons_silent silent, ← wanted]
        exact ih
    · rw [List.filter_cons_of_pos (by simpa using silent), List.map_cons, List.cons_append, partsAfter?_cons_name silent]
      exact ih

theorem meaning_cons_slash (text : List Char) : meaning ('/' :: text) = meaning text := meaning_append_slash [] text

/-- Something is below a base exactly where the path begins with its components. -/
theorem below?_isSome (base : List Char) {path : List Char} (absolute : isAbsolute path = true) :
    (below? base path).isSome = startsWith path base := by
  obtain ⟨rest, rfl⟩ := List.head?_eq_some_iff.mp (by simpa [isAbsolute] using absolute)
  rw [startsWith, components_absolute absolute, meaning_cons_slash, below?]
  cases components base with
  | nil => rfl
  | cons c named =>
    cases c with
    | root => simpa [List.isPrefixOf, meaning] using partsAfter?_isSome named (split '/' rest)
    | current => rfl
    | parent => rfl
    | name text => rfl

section
variable {base path : List Char} (absolute : isAbsolute base = true) (relative : isAbsolute path = false)
include absolute relative

/-- The parts of a path behind a base are parts of the base and those of the path. -/
theorem split_joined : ∃ lead, split '/' ((joined base path).drop 1) = lead ++ split '/' path ∧
    components base = .root :: (lead.filter (!isSilent ·)).map componentOf := by
  obtain ⟨rest, rfl⟩ := List.head?_eq_some_iff.mp (by simpa [isAbsolute] using absolute)
  rw [joined, relative, if_neg Bool.false_ne_true, components_absolute absolute, meaning_cons_slash]
  by_cases slash : ('/' :: rest).getLast? = some '/'
  · rw [if_pos (.inl slash)]
    obtain ⟨front, spelt⟩ := List.getLast?_eq_some_iff.mp slash
    cases front with
    | nil =>
      obtain rfl : rest = [] := (List.cons.inj spelt).2
      exact ⟨[], rfl, rfl⟩
    | cons first front =>
      obtain ⟨-, rfl⟩ := List.cons.inj spelt
      refine ⟨split '/' front, ?_, ?_⟩
      · rw [← split_append]
        simp
      · rw [List.append_eq, meaning_append_slash]
        exact congrArg (Component.root :: ·) (List.append_nil _)
  · rw [if_neg (by simpa using slash)]
    exact ⟨split '/' rest, split_append '/' rest path, rfl⟩

theorem isAbsolute_joined : isAbsolute (joined base path) = true := by
  obtain ⟨rest, rfl⟩ := List.head?_eq_some_iff.mp (by simpa [isAbsolute] using absolute)
  rw [joined, relative, if_neg Bool.false_ne_true]
  split <;> rfl

end

/-- A path of names behind a base is what is below the base. -/
theorem below?_joined {base : List Char} {path : String} (absolute : isAbsolute base = true) (plain : IsPlain path) :
    below? base (joined base path.toList) = some path.toList := by
  obtain ⟨lead, parts, named⟩ := split_joined absolute plain.relative
  obtain ⟨silent, after, all⟩ := partsAfter?_append lead (split '/' path.toList)
  have left : dropSilent (silent ++ split '/' path.toList) = split '/' path.toList := by
    rw [dropSilent, List.dropWhile_append_of_pos all]
    exact dropSilent_of_allNames plain
  rw [below?, named, parts]
  simp only [after, Option.map_some, left, dropSilentEnd_of_allNames plain, ofParts, intercalate_split]

end GatedRepair.Files
