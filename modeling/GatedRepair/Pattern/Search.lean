import GatedRepair.Pattern.Basic

/-!
# Searching with patterns

A search is given up after a number of steps and done again with tables, which take no more steps than the text and the
pattern are long. Both find what the ways of the pattern say.
-/

/-!
## Patterns with tables

For every part of a pattern a table tells from which places of a text there is a way through that part and all that
follows it. The tables are made from the end of the text to its start, each character once for each part. With them the
preferred way is walked without turning back.
-/

namespace GatedRepair.Pattern

/-- For every number of characters that can be left of a text, whether it is marked. -/
abbrev Marks := Array Bool

def Marks.holds (marks : Marks) (left : Nat) : Bool := marks[left]?.getD false

/-- The marks for up to `most` characters as a rule says. -/
def tabulate (most : Nat) (rule : Nat → Bool) : Marks := Array.ofFn (n := most + 1) fun left => rule left

/-- The marks for up to `most` characters, each from the one before. -/
def scan (first : Bool) (rule : Nat → Bool → Bool) (most : Nat) : Marks :=
  (most.fold (fun left _ (last, marks) =>
    let more := rule left last
    (more, marks.push more)) (first, (#[first] : Marks))).2

/-- A pattern with the tables for a text. -/
inductive Plan where
  /-- A pattern with one way at most. -/
  | single (p : Pattern)
  /-- A run, and the places where it may end. -/
  | run (accepts : Char → Bool) (greedy : Bool) (ends : Marks)
  | seq (first second : Plan)
  /-- Two alternatives, and the places from which the first one will do. -/
  | either (enough : Marks) (first second : Plan)
  | group (name : String) (body : Plan)

/-- The tables of a pattern for a text that is given backwards, and the places from which there is a way to a marked
place. -/
def prepare (back : Array Char) : Pattern → Marks → Plan × Marks
  | .nothing, ends => (.single .nothing, ends)
  | .one accepts, ends =>
    (.single (.one accepts), tabulate back.size fun
      | 0 => false
      | left + 1 => (back[left]?.any accepts) && ends.holds left)
  | .many accepts greedy, ends =>
    (.run accepts greedy ends, scan (ends.holds 0) (fun left last =>
      ends.holds (left + 1) || (back[left]?.any accepts && last)) back.size)
  | .seq first second, ends =>
    let second := prepare back second ends
    let first := prepare back first second.2
    (.seq first.1 second.1, first.2)
  | .either first second, ends =>
    let first := prepare back first ends
    let second := prepare back second ends
    (.either first.2 first.1 second.1, tabulate back.size fun left => first.2.holds left || second.2.holds left)
  | .group name body, ends =>
    let body := prepare back body ends
    (.group name body.1, body.2)
  | .check holds, ends =>
    (.single (.check holds), tabulate back.size fun left =>
      holds back[left]? (if left = 0 then none else back[left - 1]?) && ends.holds left)

/-- The first marked place along a run. -/
def nearest? (accepts : Char → Bool) (ends : Marks) (groups : Groups) :
    Option Char → List Char → Nat → Option Place
  | before, rest, left =>
    if ends.holds left then some ⟨before, rest, left, groups⟩
    else
      match rest with
      | [] => none
      | c :: rest => if accepts c then nearest? accepts ends groups (some c) rest (left - 1) else none

/-- The last marked place along a run, after the best so far. -/
def furthest? (accepts : Char → Bool) (ends : Marks) (groups : Groups) :
    Option Place → Option Char → List Char → Nat → Option Place
  | best, before, rest, left =>
    let best := if ends.holds left then some ⟨before, rest, left, groups⟩ else best
    match rest with
    | [] => best
    | c :: rest => if accepts c then furthest? accepts ends groups best (some c) rest (left - 1) else best

/-- The end of the preferred way. -/
def Plan.walk? : Plan → Place → Option Place
  | .single p, place => (p.ways place).head?
  | .run accepts greedy ends, place =>
    if greedy then furthest? accepts ends place.groups none place.before place.rest place.left
    else nearest? accepts ends place.groups place.before place.rest place.left
  | .seq first second, place => (first.walk? place).bind second.walk?
  | .either enough first second, place => if enough.holds place.left then first.walk? place else second.walk? place
  | .group name body, place => (body.walk? place).map (Place.remember name place)

/-- The first match at a place or after it. -/
def Plan.find? (plan : Plan) (starts : Marks) (before : Option Char) (rest : List Char) (left : Nat) : Option Found :=
  if starts.holds left then (plan.walk? ⟨before, rest, left, []⟩).map (⟨⟨before, rest, left, []⟩, ·⟩)
  else
    match rest with
    | [] => none
    | c :: rest => plan.find? starts (some c) rest (left - 1)

/-- A pattern prepared for a text in which a match may end anywhere. -/
def prepared (p : Pattern) (text : List Char) : Plan × Marks :=
  prepare text.reverse.toArray p (tabulate text.length fun _ => true)

/-!
## What the tables of a pattern say

`prepare_spec` ties the tables to the ways of a pattern: a place is marked when there is a way from it to a marked end, and
the walk from there ends where the first such way does. So `find?_prepared` finds the first match.
-/

theorem holds_tabulate (most : Nat) (rule : Nat → Bool) {left : Nat} (h : left ≤ most) :
    Marks.holds (tabulate most rule) left = rule left := by
  have : left < most + 1 := by omega
  simp [Marks.holds, tabulate, this]

/-- The values that `scan` puts into its table. -/
def scanned (first : Bool) (rule : Nat → Bool → Bool) : Nat → Bool
  | 0 => first
  | left + 1 => rule left (scanned first rule left)

theorem scan_eq (first : Bool) (rule : Nat → Bool → Bool) (most : Nat) :
    scan first rule most = ((List.range (most + 1)).map (scanned first rule)).toArray := by
  have : most.fold (fun left _ (state : Bool × Marks) =>
      (rule left state.1, state.2.push (rule left state.1))) (first, (#[first] : Marks))
      = (scanned first rule most, ((List.range (most + 1)).map (scanned first rule)).toArray) := by
    induction most with
    | zero => simp [scanned]
    | succ most ih =>
      rw [Nat.fold_succ, ih, List.range_succ (n := most + 1)]
      simp [scanned]
  unfold scan
  exact congrArg Prod.snd this

theorem holds_scan (first : Bool) (rule : Nat → Bool → Bool) {most left : Nat} (h : left ≤ most) :
    Marks.holds (scan first rule most) left = scanned first rule left := by
  have : left < most + 1 := by omega
  simp [Marks.holds, scan_eq, this]

/-- The place stands in a text, of which `back` holds the characters backwards. -/
def Place.In (back : Array Char) (place : Place) : Prop :=
  place.left = place.rest.length ∧ ∃ front, back.toList = place.rest.reverse ++ front ∧ place.before = front.head?

namespace Place.In

variable {back : Array Char} {place : Place}

theorem left_le (h : place.In back) : place.left ≤ back.size := by
  obtain ⟨left, front, eq, _⟩ := h
  have := congrArg List.length eq
  simp at this
  omega

theorem before_eq (h : place.In back) : back[place.left]? = place.before := by
  obtain ⟨left, front, eq, before⟩ := h
  rw [← Array.getElem?_toList, eq, left, before, List.getElem?_append_right (by simp)]
  simp [List.head?_eq_getElem?]

theorem after_eq (h : place.In back) :
    (if place.left = 0 then none else back[place.left - 1]?) = place.rest.head? := by
  obtain ⟨left, front, eq, before⟩ := h
  cases rest : place.rest with
  | nil => simp [left, rest]
  | cons c more =>
    rw [rest] at eq left
    simp only [left, List.length_cons, Nat.add_one_ne_zero, if_false, Nat.add_sub_cancel, List.head?_cons]
    rw [← Array.getElem?_toList, eq, List.reverse_cons, List.append_assoc, List.getElem?_append_right (by simp)]
    simp

theorem next (h : place.In back) {c : Char} {rest : List Char} (eq : place.rest = c :: rest) (groups : Groups) :
    Place.In back ⟨some c, rest, place.left - 1, groups⟩ := by
  obtain ⟨left, front, all, _⟩ := h
  refine ⟨by simp [left, eq], c :: front, ?_, rfl⟩
  rw [all, eq]
  simp

theorem of_groups (h : place.In back) (groups : Groups) : Place.In back { place with groups } := h

end Place.In

theorem reached_in {back : Array Char} {accepts : Char → Bool} {groups : Groups} :
    ∀ {before : Option Char} {rest : List Char} {left : Nat} {found : List Place},
      Place.In back ⟨before, rest, left, groups⟩ → (∀ stop ∈ found, stop.In back) →
      ∀ stop ∈ reached accepts groups rest left found, stop.In back
  | _, [], _, _, _, hfound => hfound
  | before, c :: rest, left, found, here, hfound => by
    unfold reached
    split
    · have there := here.next rfl groups
      refine reached_in there fun stop mem => ?_
      rcases List.mem_cons.mp mem with rfl | mem
      · exact there
      · exact hfound stop mem
    · exact hfound

theorem ways_in {back : Array Char} (p : Pattern) {place : Place} (h : place.In back) :
    ∀ stop ∈ p.ways place, stop.In back := by
  induction p generalizing place with
  | nothing => simpa [ways] using h
  | one accepts =>
    intro stop mem
    simp only [ways, Place.step?, Option.mem_toList] at mem
    split at mem
    · simp at mem
    · next c rest eq =>
      split at mem
      · cases mem; exact h.next eq _
      · simp at mem
  | many accepts greedy =>
    have here : Place.In back ⟨place.before, place.rest, place.left, place.groups⟩ := h
    have : ∀ stop ∈ stops accepts place, stop.In back := reached_in here (by simpa using h)
    cases greedy <;> simpa [ways] using this
  | seq first second first_ih second_ih =>
    intro stop mem
    obtain ⟨middle, mem, mem'⟩ := List.mem_flatMap.mp mem
    exact second_ih (first_ih h middle mem) stop mem'
  | either first second first_ih second_ih =>
    intro stop mem
    rcases List.mem_append.mp mem with mem | mem
    · exact first_ih h stop mem
    · exact second_ih h stop mem
  | group name body ih =>
    intro stop mem
    obtain ⟨inner, inside, rfl⟩ := List.mem_map.mp mem
    exact (ih h inner inside).of_groups _
  | check holds =>
    intro stop mem
    simp only [ways] at mem
    split at mem
    · rw [List.mem_singleton.mp mem]; exact h
    · simp at mem

/-- The place is marked. -/
abbrev Place.marked (marks : Marks) (place : Place) : Bool := Marks.holds marks place.left

theorem furthest?_eq (accepts : Char → Bool) (ends : Marks) (groups : Groups) :
    ∀ (before : Option Char) (rest : List Char) (left : Nat) (found : List Place),
      furthest? accepts ends groups (found.find? (Place.marked ends)) before rest left
        = (reached accepts groups rest left (⟨before, rest, left, groups⟩ :: found)).find? (Place.marked ends)
  | before, [], left, found => by
    unfold furthest? reached
    cases eq : Marks.holds ends left <;> simp [List.find?, Place.marked, eq]
  | before, c :: rest, left, found => by
    have := furthest?_eq accepts ends groups (some c) rest (left - 1) (⟨before, c :: rest, left, groups⟩ :: found)
    unfold furthest? reached
    cases eq : Marks.holds ends left <;> simp only [List.find?, Place.marked, eq] at this ⊢ <;> split <;>
      first | exact this | simp [eq]

theorem reached_append (accepts : Char → Bool) (groups : Groups) :
    ∀ (rest : List Char) (left : Nat) (found : List Place),
      reached accepts groups rest left found = reached accepts groups rest left [] ++ found
  | [], _, _ => rfl
  | c :: rest, left, found => by
    unfold reached
    split
    · rw [reached_append _ _ rest (left - 1) (_ :: found), reached_append _ _ rest (left - 1) [_]]
      simp
    · rfl

theorem nearest?_eq (accepts : Char → Bool) (ends : Marks) (groups : Groups) :
    ∀ (before : Option Char) (rest : List Char) (left : Nat),
      nearest? accepts ends groups before rest left
        = (reached accepts groups rest left [⟨before, rest, left, groups⟩]).reverse.find? (Place.marked ends)
  | before, [], left => by
    unfold nearest? reached
    cases eq : Marks.holds ends left <;> simp [Place.marked, eq]
  | before, c :: rest, left => by
    have := nearest?_eq accepts ends groups (some c) rest (left - 1)
    unfold nearest?
    rw [reached_append, List.reverse_append, List.reverse_singleton, List.singleton_append, List.find?_cons]
    cases eq : Marks.holds ends left
    · simp only [Place.marked, eq, Bool.false_eq_true, if_false]
      unfold reached
      split
      · exact this
      · rfl
    · simp [Place.marked, eq]

theorem any_reached (accepts : Char → Bool) (ends : Marks) (groups : Groups) (back : Array Char) :
    ∀ (before : Option Char) (rest : List Char) (left : Nat), Place.In back ⟨before, rest, left, groups⟩ →
      scanned (Marks.holds ends 0) (fun left last => Marks.holds ends (left + 1) || (back[left]?.any accepts && last)) left
        = (reached accepts groups rest left [⟨before, rest, left, groups⟩]).any (Place.marked ends)
  | before, [], left, h => by
    have : left = 0 := h.1
    subst this
    simp [scanned, reached, Place.marked]
  | before, c :: rest, left, h => by
    have size : left = rest.length + 1 := h.1
    subst size
    have after := h.after_eq
    simp only [Nat.add_one_ne_zero, if_false, Nat.add_sub_cancel, List.head?_cons] at after
    have there := any_reached accepts ends groups back (some c) rest rest.length (h.next rfl groups)
    have more : reached accepts groups (c :: rest) (rest.length + 1) [] = if accepts c then
        reached accepts groups rest rest.length [⟨some c, rest, rest.length, groups⟩] else [] := rfl
    rw [scanned, there, after, reached_append _ _ (c :: rest), List.any_append, more]
    cases eq : accepts c <;> simp [Place.marked, Bool.or_comm, eq]

theorem head?_eq_find? {ends : Marks} {stops : List Place} (short : stops.length ≤ 1)
    (some : stops.any (Place.marked ends) = true) : stops.head? = stops.find? (Place.marked ends) := by
  match stops with
  | [] => rfl
  | [stop] => simp at some; simp [some]
  | _ :: _ :: _ => simp at short

theorem find?_flatMap {ends : Marks} {more : Place → List Place} {enough : Place → Bool} {walk : Place → Option Place} :
    ∀ (places : List Place),
      (∀ place ∈ places, enough place = (more place).any (Place.marked ends) ∧
        (enough place = true → walk place = (more place).find? (Place.marked ends))) →
      (places.find? enough).bind walk = (places.flatMap more).find? (Place.marked ends)
  | [], _ => rfl
  | place :: places, h => by
    have here := h place (by simp)
    have there := find?_flatMap places fun other mem => h other (by simp [mem])
    rw [List.flatMap_cons, List.find?_append, List.find?_cons]
    cases eq : enough place
    · have none : (more place).find? (Place.marked ends) = none := by
        rw [List.find?_eq_none]
        intro stop mem
        have := here.1.symm.trans eq
        simp only [List.any_eq_false] at this
        exact this stop mem
      simp [none, there]
    · have found := here.2 eq
      have some : ∃ stop, (more place).find? (Place.marked ends) = some stop := by
        have := here.1.symm.trans eq
        exact Option.isSome_iff_exists.mp (List.find?_isSome.mpr (by simpa using this))
      obtain ⟨stop, some⟩ := some
      simp [found, some]

theorem any_eq_any {α : Type} {xs : List α} {f g : α → Bool} (h : ∀ x ∈ xs, f x = g x) : xs.any f = xs.any g := by
  induction xs with
  | nil => rfl
  | cons x xs ih => rw [List.any_cons, List.any_cons, h x (by simp), ih fun y mem => h y (by simp [mem])]

/-- What the tables say: from which places there is a way to a marked place, and where the first such way ends. -/
theorem prepare_spec {back : Array Char} (p : Pattern) (ends : Marks) {place : Place} (h : place.In back) :
    (Marks.holds (prepare back p ends).2 place.left = (p.ways place).any (Place.marked ends)) ∧
      (Marks.holds (prepare back p ends).2 place.left = true →
        (prepare back p ends).1.walk? place = (p.ways place).find? (Place.marked ends)) := by
  induction p generalizing ends place with
  | nothing => simp [prepare, ways, Plan.walk?]
  | one accepts =>
    have marks : Marks.holds (prepare back (.one accepts) ends).2 place.left
        = ((Pattern.one accepts).ways place).any (Place.marked ends) := by
      rw [prepare, holds_tabulate _ _ h.left_le]
      have after := h.after_eq
      have size := h.1
      simp only [ways, Place.step?]
      cases rest : place.rest with
      | nil => simp [size, rest]
      | cons c more =>
        rw [rest] at size after
        simp only [size, List.length_cons, Nat.add_one_ne_zero, if_false, Nat.add_sub_cancel, List.head?_cons] at after ⊢
        rw [after]
        cases eq : accepts c <;> simp [eq, Place.marked]
    refine ⟨marks, fun some => ?_⟩
    rw [marks] at some
    exact head?_eq_find? (by simp only [ways]; cases place.step? accepts <;> simp) some
  | many accepts greedy =>
    have scan := any_reached accepts ends place.groups back place.before place.rest place.left h
    constructor
    · rw [prepare, holds_scan _ _ h.left_le, scan]
      cases greedy <;> simp [ways, stops]
    · intro _
      have furthest := furthest?_eq accepts ends place.groups place.before place.rest place.left []
      have nearest := nearest?_eq accepts ends place.groups place.before place.rest place.left
      cases greedy
      · simpa [prepare, Plan.walk?, ways, stops] using nearest
      · simpa [prepare, Plan.walk?, ways, stops] using furthest
  | seq first second first_ih second_ih =>
    have inner := first_ih (prepare back second ends).2 h
    have outer := fun middle mem => second_ih ends (ways_in first h middle mem)
    constructor
    · rw [prepare, inner.1, ways, List.any_flatMap]
      exact any_eq_any fun middle mem => (outer middle mem).1
    · intro some
      rw [prepare, Plan.walk?, inner.2 some]
      exact find?_flatMap _ outer
  | either first second first_ih second_ih =>
    have left := first_ih ends h
    have right := second_ih ends h
    have marks : Marks.holds (prepare back (.either first second) ends).2 place.left
        = (((first.either second).ways place).any (Place.marked ends)) := by
      rw [prepare, holds_tabulate _ _ h.left_le, left.1, right.1, ways, List.any_append]
    refine ⟨marks, fun some => ?_⟩
    rw [marks, ways, List.any_append] at some
    rw [prepare, Plan.walk?, ways, List.find?_append]
    split
    · next enough =>
      rw [left.2 enough]
      rw [left.1] at enough
      obtain ⟨stop, found⟩ := Option.isSome_iff_exists.mp (List.find?_isSome.mpr (by simpa using enough))
      simp [found]
    · next enough =>
      rw [left.1] at enough
      have none : (first.ways place).find? (Place.marked ends) = none := by
        rw [List.find?_eq_none]
        simpa using enough
      rw [none, Option.none_or]
      refine right.2 ?_
      rw [right.1]
      simpa [enough] using some
  | group name body ih =>
    have inner := ih ends h
    have marked : Place.marked ends ∘ Place.remember name place = Place.marked ends := rfl
    constructor
    · rw [prepare, inner.1, ways, List.any_map, marked]
    · intro some
      rw [prepare, Plan.walk?, inner.2 some, ways, List.find?_map, marked]
  | check holds =>
    have marks : Marks.holds (prepare back (.check holds) ends).2 place.left
        = ((Pattern.check holds).ways place).any (Place.marked ends) := by
      rw [prepare, holds_tabulate _ _ h.left_le, h.after_eq, h.before_eq, ways]
      split <;> simp_all [Place.marked]
    refine ⟨marks, fun some => ?_⟩
    rw [marks] at some
    exact head?_eq_find? (by simp only [ways]; split <;> simp) some

/-- With the tables of a pattern for a text the first match from a place on is found. -/
theorem find?_prepared (p : Pattern) (text : List Char) (before : Option Char) (rest : List Char) (left : Nat)
    (h : Place.In text.reverse.toArray ⟨before, rest, left, []⟩) :
    (p.prepared text).1.find? (p.prepared text).2 before rest left = p.firstFrom? before rest left := by
  have here : ∀ place : Place, place.In text.reverse.toArray →
      (Marks.holds (p.prepared text).2 place.left = !(p.ways place).isEmpty) ∧
        (Marks.holds (p.prepared text).2 place.left = true →
          (p.prepared text).1.walk? place = (p.ways place).head?) := by
    intro place h
    have spec := prepare_spec p (tabulate text.length fun _ => true) h
    have all : ∀ stop ∈ p.ways place, Place.marked (tabulate text.length fun _ => true) stop = true := by
      intro stop mem
      have := (ways_in p h stop mem).left_le
      exact holds_tabulate _ _ (by simpa using this)
    cases eq : p.ways place with
    | nil => rw [eq] at spec; simpa [prepared] using spec
    | cons stop more =>
      have marked := all stop (by simp [eq])
      rw [eq] at spec
      simpa [prepared, marked] using spec
  induction rest generalizing before left with
  | nil =>
    have spec := here _ h
    unfold Plan.find? firstFrom? matchAt?
    cases eq : p.ways ⟨before, [], left, []⟩ with
    | nil => simp [eq] at spec; simp [spec]
    | cons stop more => simp [eq] at spec; simp [spec]
  | cons c rest ih =>
    have spec := here _ h
    unfold Plan.find? firstFrom? matchAt?
    cases eq : p.ways ⟨before, c :: rest, left, []⟩ with
    | nil => simp [eq] at spec; simpa [spec] using ih _ _ (h.next rfl [])
    | cons stop more => simp [eq] at spec; simp [spec]

theorem start_in (text : List Char) : Place.In text.reverse.toArray ⟨none, text, text.length, []⟩ :=
  ⟨rfl, [], by simp, rfl⟩

/-!
## Finding patterns in texts

A quick attempt comes first. When it takes too many steps, tables are made for the whole text. Both find what the meaning
of the pattern says, and the steps that they take grow no faster than the text: `find?_eq` and `findAll_eq`.
-/

/-- The steps that an attempt may take. -/
def stepsFor (size : Nat) : Nat := 8 * size + 64

/-- The first match in a text. -/
def find? (p : Pattern) (text : List Char) : Option Found :=
  let size := text.length
  match p.findWithin none text size (stepsFor size) with
  | (some found, _) => some found
  | (none, _ + 1) => none
  | (none, 0) =>
    let (plan, starts) := p.prepared text
    plan.find? starts none text size

/-- The pattern matches somewhere in a text. -/
def matches? (p : Pattern) (text : List Char) : Bool := (p.find? text).isSome

/-- All the matches in a text. The pattern matches no empty text. -/
def findAll (p : Pattern) (text : List Char) : List Found :=
  let size := text.length
  let (plan, starts) := p.prepared text
  successive (plan.find? starts) size [] none text size

/-- The quick attempt and the tables find the first match. -/
theorem find?_eq (p : Pattern) (text : List Char) : p.find? text = p.first? text := by
  have attempt := p.findWithin_sound none text text.length (stepsFor text.length)
  unfold find? first?
  simp only
  split
  · next found steps eq => rw [eq] at attempt; exact attempt.of_some.symm
  · next steps eq =>
    rw [eq] at attempt
    rcases attempt.of_none with none | zero
    · exact none.symm
    · simp at zero
  · exact find?_prepared p text none text text.length (start_in text)

theorem firstFrom?_in {back : Array Char} (p : Pattern) {before : Option Char} {rest : List Char} {left : Nat}
    (h : Place.In back ⟨before, rest, left, []⟩) {found : Found} (eq : p.firstFrom? before rest left = some found) :
    found.stop.In back := by
  have here : ∀ {place : Place}, place.In back → p.matchAt? place = some found → found.stop.In back := by
    intro place h eq
    obtain ⟨stop, head, rfl⟩ := Option.map_eq_some_iff.mp eq
    exact ways_in p h stop (List.mem_of_head? head)
  induction rest generalizing before left with
  | nil =>
    unfold firstFrom? at eq
    split at eq
    · next other found => cases eq; exact here h found
    · simp at eq
  | cons c rest ih =>
    unfold firstFrom? at eq
    split at eq
    · next other found => cases eq; exact here h found
    · exact ih (h.next rfl []) eq

/-- The tables find every match. -/
theorem findAll_eq (p : Pattern) (text : List Char) : p.findAll text = p.each text := by
  have from_ : ∀ (most : Nat) (earlier : List Found) (before : Option Char) (rest : List Char) (left : Nat),
      Place.In text.reverse.toArray ⟨before, rest, left, []⟩ →
      successive ((p.prepared text).1.find? (p.prepared text).2) most earlier before rest left
        = successive p.firstFrom? most earlier before rest left := by
    intro most
    induction most with
    | zero => intros; rfl
    | succ most ih =>
      intro earlier before rest left h
      unfold successive
      rw [find?_prepared p text before rest left h]
      split
      · rfl
      · next found eq => exact ih _ _ _ _ ((firstFrom?_in p h eq).of_groups [])
  exact from_ _ _ _ _ _ (start_in text)

/-!
## Building patterns
-/

open GatedRepair.Text

/-- One pattern after another. -/
def all (parts : List Pattern) : Pattern := parts.foldr .seq .nothing

/-- The first of several patterns that fits. -/
def first : List Pattern → Pattern
  | [] => .check fun _ _ => false
  | [last] => last
  | p :: more => .either p (first more)

/-- The pattern, or else nothing. -/
def maybe (p : Pattern) : Pattern := .either p .nothing

/-- One character. -/
def char (c : Char) : Pattern := .one (· == c)

/-- A text as it stands. -/
def text (s : String) : Pattern := s.toList.foldr (fun c p => .seq (char c) p) .nothing

/-- A text of basic Latin letters in any case. -/
def anyCase (s : String) : Pattern :=
  s.toList.foldr (fun c p => .seq (.one fun d => asciiLower d == asciiLower c) p) .nothing

/-- As many accepted characters as possible. -/
def run (accepts : Char → Bool) : Pattern := .many accepts true

/-- As many accepted characters as possible, and one at least. -/
def some1 (accepts : Char → Bool) : Pattern := .seq (.one accepts) (run accepts)

/-- As few accepted characters as possible. -/
def few (accepts : Char → Bool) : Pattern := .many accepts false

/-- As few accepted characters as possible, and one at least. -/
def few1 (accepts : Char → Bool) : Pattern := .seq (.one accepts) (few accepts)

/-- The start of the text. -/
def atStart : Pattern := .check fun before _ => before.isNone

/-- The end of the text. -/
def atEnd : Pattern := .check fun _ after => after.isNone

/-- The start of a line. -/
def atLineStart : Pattern := .check fun before _ => before.isNone || before == some '\n'

/-- The end of a line. -/
def atLineEnd : Pattern := .check fun _ after => after.isNone || after == some '\n'

/-- The edge of a word. -/
def atWordEdge : Pattern :=
  .check fun before after => (before.any isWordChar) != (after.any isWordChar)

def blanks : Pattern := run isBlank

def blanks1 : Pattern := some1 isBlank

def digits : Pattern := some1 isDigit

/-- A character that stays on its line. -/
def inLine (c : Char) : Bool := c != '\n'

def notBlank (c : Char) : Bool := !isBlank c

end GatedRepair.Pattern
