import GatedRepair.Text.Character

/-!
# Patterns of text

A small pattern language in which only single characters repeat. `ways` says what a pattern means: all the ways to
match from a place, the preferred one first. The earlier alternative is preferred, and a run takes as much or as
little as it can. What is found in a text is the first place from which there is a way, with the preferred one.
-/

namespace GatedRepair

/-- A pattern of text. -/
inductive Pattern where
  /-- Nothing. -/
  | nothing
  /-- One character that is accepted. -/
  | one (accepts : Char → Bool)
  /-- Any number of accepted characters, as many as possible or as few as possible. -/
  | many (accepts : Char → Bool) (greedy : Bool)
  | seq (first second : Pattern)
  | either (first second : Pattern)
  /-- What matches is remembered under a name. -/
  | group (name : String) (body : Pattern)
  /-- A condition on the characters before and after. -/
  | check (holds : Option Char → Option Char → Bool)

namespace Pattern

/-- What groups matched: for each the text from its start, and how many characters of it. -/
abbrev Groups := List (String × List Char × Nat)

/-- A place in a text: the character before, the text after and how many characters it has, and the groups that were
matched on the way. -/
structure Place where
  before : Option Char
  rest : List Char
  left : Nat
  groups : Groups

/-- The place at the start of a text. -/
def Place.start (text : List Char) : Place := ⟨none, text, text.length, []⟩

/-- The place after one accepted character. -/
def Place.step? (accepts : Char → Bool) (place : Place) : Option Place :=
  match place.rest with
  | [] => none
  | c :: rest => if accepts c then some ⟨some c, rest, place.left - 1, place.groups⟩ else none

/-- The places after one, two, … more accepted characters, put in front of the places found so far. -/
def reached (accepts : Char → Bool) (groups : Groups) : List Char → Nat → List Place → List Place
  | [], _, found => found
  | c :: rest, left, found =>
    if accepts c then reached accepts groups rest (left - 1) (⟨some c, rest, left - 1, groups⟩ :: found) else found

/-- The places where a run can end, the furthest first. -/
def stops (accepts : Char → Bool) (place : Place) : List Place :=
  reached accepts place.groups place.rest place.left [place]

/-- The place after a group with its match remembered. -/
def Place.remember (name : String) (start stop : Place) : Place :=
  { stop with groups := (name, start.rest, start.left - stop.left) :: stop.groups }

/-- All the ways to match from a place, as the places where they end, the preferred way first. -/
def ways : Pattern → Place → List Place
  | .nothing, place => [place]
  | .one accepts, place => (place.step? accepts).toList
  | .many accepts greedy, place => if greedy then stops accepts place else (stops accepts place).reverse
  | .seq first second, place => (ways first place).flatMap (ways second)
  | .either first second, place => ways first place ++ ways second place
  | .group name body, place => (ways body place).map (Place.remember name place)
  | .check holds, place => if holds place.before place.rest.head? then [place] else []

/-- A match in a text: where it starts and where it ends. -/
structure Found where
  start : Place
  stop : Place

/-- The preferred match at a place. -/
def matchAt? (p : Pattern) (place : Place) : Option Found := (p.ways place).head?.map (⟨place, ·⟩)

/-- The first match at a place or after it, the character before it and the text after it being given. -/
def firstFrom? (p : Pattern) (before : Option Char) (rest : List Char) (left : Nat) : Option Found :=
  match p.matchAt? ⟨before, rest, left, []⟩ with
  | some found => some found
  | none =>
    match rest with
    | [] => none
    | c :: rest => firstFrom? p (some c) rest (left - 1)

/-- The first match in a text. -/
def first? (p : Pattern) (text : List Char) : Option Found := p.firstFrom? none text text.length

/-- What a group matched. -/
def Found.group? (found : Found) (name : String) : Option (List Char) :=
  (found.stop.groups.lookup name).map fun (text, count) => text.take count

/-- Matches behind one another, as a way to find the first says, after those before them, backwards. At most `most` of
them are found. -/
def successive (find : Option Char → List Char → Nat → Option Found) :
    Nat → List Found → Option Char → List Char → Nat → List Found
  | 0, earlier, _, _, _ => earlier.reverse
  | most + 1, earlier, before, rest, left =>
    match find before rest left with
    | none => earlier.reverse
    | some found => successive find most (found :: earlier) found.stop.before found.stop.rest found.stop.left

/-- The matches of a pattern that matches no empty text, each behind the one before. -/
def each (p : Pattern) (text : List Char) : List Found := successive p.firstFrom? text.length [] none text text.length

end Pattern

end GatedRepair

/-!
## Trying a pattern with a limited number of steps

Trying one way after another is quick for most texts and very slow for a few. So the steps are counted, and the attempt
is given up when none are left. `findWithin_sound` says that an attempt which was not given up has found what there is
to find.
-/

namespace GatedRepair.Pattern

/-- What came of an attempt: what was found, and the steps that are left. Nothing found with no steps left says
nothing. -/
abbrev Attempt (α : Type) := Option α × Nat

/-- The attempt was given up, or it has the right answer. -/
def Attempt.Sound {α : Type} (attempt : Attempt α) (answer : Option α) : Prop :=
  attempt.1 = answer ∨ attempt = (none, 0)

/-- The first answer along a list, at the cost of a step for each element. -/
def firstWithin {α β : Type} (next : β → Nat → Attempt α) : List β → Nat → Attempt α
  | [], steps => (none, steps)
  | _ :: _, 0 => (none, 0)
  | x :: xs, steps + 1 =>
    match next x steps with
    | (some answer, left) => (some answer, left)
    | (none, left) => firstWithin next xs left

/-- The first answer that `next` gives at a place where the pattern can end. -/
def tryWithin {α : Type} : Pattern → (Place → Nat → Attempt α) → Place → Nat → Attempt α
  | .nothing, next, place, steps => next place steps
  | .one accepts, next, place, steps =>
    match place.step? accepts with
    | some place => next place steps
    | none => (none, steps)
  | .many accepts greedy, next, place, steps =>
    firstWithin next (if greedy then stops accepts place else (stops accepts place).reverse) steps
  | .seq first second, next, place, steps => tryWithin first (tryWithin second next) place steps
  | .either _ _, _, _, 0 => (none, 0)
  | .either first second, next, place, steps + 1 =>
    match tryWithin first next place steps with
    | (some answer, left) => (some answer, left)
    | (none, 0) => (none, 0)
    | (none, left + 1) => tryWithin second next place left
  | .group name body, next, place, steps => tryWithin body (fun stop => next (place.remember name stop)) place steps
  | .check holds, next, place, steps =>
    if holds place.before place.rest.head? then next place steps else (none, steps)

/-- The preferred match at a place. -/
def matchWithin (p : Pattern) (place : Place) (steps : Nat) : Attempt Found :=
  p.tryWithin (fun stop steps => (some ⟨place, stop⟩, steps)) place steps

/-- The first match at a place or after it, at the cost of a step for each place. -/
def findWithin (p : Pattern) (before : Option Char) (rest : List Char) (left steps : Nat) : Attempt Found :=
  match p.matchWithin ⟨before, rest, left, []⟩ steps with
  | (some found, steps) => (some found, steps)
  | (none, 0) => (none, 0)
  | (none, steps + 1) =>
    match rest with
    | [] => (none, steps + 1)
    | c :: rest => findWithin p (some c) rest (left - 1) steps

theorem Attempt.Sound.of_some {α : Type} {answer : Option α} {a : α} {steps : Nat}
    (h : Attempt.Sound (some a, steps) answer) : answer = some a := by
  rcases h with h | h
  · exact h.symm
  · simp at h

theorem Attempt.Sound.of_none {α : Type} {answer : Option α} {steps : Nat} (h : Attempt.Sound (none, steps) answer) :
    answer = none ∨ steps = 0 := by
  rcases h with h | h
  · exact .inl h.symm
  · exact .inr (by simpa using h)

theorem firstWithin_zero {α β : Type} (next : β → Nat → Attempt α) (xs : List β) : firstWithin next xs 0 = (none, 0) := by
  cases xs <;> rfl

theorem firstWithin_sound {α β : Type} {next : β → Nat → Attempt α} {answer : β → Option α}
    (h : ∀ x steps, (next x steps).Sound (answer x)) (xs : List β) (steps : Nat) :
    (firstWithin next xs steps).Sound (xs.findSome? answer) := by
  induction xs generalizing steps with
  | nil => exact .inl rfl
  | cons x xs ih =>
    cases steps with
    | zero => exact .inr rfl
    | succ steps =>
      have hx := h x steps
      rw [firstWithin, List.findSome?_cons]
      split
      · next a left eq => rw [eq] at hx; rw [hx.of_some]; exact .inl rfl
      · next left eq =>
        rw [eq] at hx
        rcases hx.of_none with none | zero
        · rw [none]; exact ih left
        · rw [zero, firstWithin_zero]; exact .inr rfl

theorem tryWithin_sound {α : Type} (p : Pattern) {next : Place → Nat → Attempt α} {answer : Place → Option α}
    (h : ∀ place steps, (next place steps).Sound (answer place)) (place : Place) (steps : Nat) :
    (p.tryWithin next place steps).Sound ((p.ways place).findSome? answer) := by
  induction p generalizing next answer place steps with
  | nothing =>
    simpa [tryWithin, ways] using h place steps
  | one accepts =>
    unfold tryWithin ways
    cases place.step? accepts with
    | none => exact .inl rfl
    | some stop => simpa using h stop steps
  | many accepts greedy =>
    have := firstWithin_sound h (if greedy then stops accepts place else (stops accepts place).reverse) steps
    cases greedy <;> simpa [tryWithin, ways] using this
  | seq first second first_ih second_ih =>
    have := first_ih (fun middle steps => second_ih h middle steps) place steps
    have flat : ((ways first place).flatMap (ways second)).findSome? answer
        = (ways first place).findSome? fun middle => (ways second middle).findSome? answer := by
      induction ways first place with
      | nil => rfl
      | cons x xs ih =>
        rw [List.flatMap_cons, List.findSome?_append, List.findSome?_cons, ih]
        cases (ways second x).findSome? answer <;> rfl
    simpa [tryWithin, ways, flat] using this
  | either first second first_ih second_ih =>
    cases steps with
    | zero => exact .inr (by simp [tryWithin])
    | succ steps =>
      have left := first_ih h place steps
      rw [tryWithin, ways, List.findSome?_append]
      split
      · next a left' eq => rw [eq] at left; rw [left.of_some]; exact .inl rfl
      · exact .inr rfl
      · next left' eq =>
        rw [eq] at left
        rcases left.of_none with none | zero
        · rw [none]; exact second_ih h place left'
        · simp at zero
  | group name body ih =>
    have := ih (fun stop steps => h (place.remember name stop) steps) place steps
    simpa [tryWithin, ways, List.findSome?_map, Function.comp_def] using this
  | check holds =>
    unfold tryWithin ways
    split
    · simpa using h place steps
    · exact .inl rfl

theorem matchWithin_sound (p : Pattern) (place : Place) (steps : Nat) :
    (p.matchWithin place steps).Sound (p.matchAt? place) := by
  have accepted : ∀ (stop : Place) (steps : Nat),
      Attempt.Sound (some (Found.mk place stop), steps) (some (Found.mk place stop)) := fun _ _ => .inl rfl
  have := p.tryWithin_sound accepted place steps
  have head : (p.ways place).findSome? (fun stop => some (Found.mk place stop)) = p.matchAt? place := by
    unfold matchAt?
    cases p.ways place <;> rfl
  rw [head] at this
  exact this

/-- An attempt that was not given up has found what there is to find. -/
theorem findWithin_sound (p : Pattern) (before : Option Char) (rest : List Char) (left steps : Nat) :
    (p.findWithin before rest left steps).Sound (p.firstFrom? before rest left) := by
  induction rest generalizing before left steps with
  | nil =>
    have here := p.matchWithin_sound ⟨before, [], left, []⟩ steps
    rw [findWithin, firstFrom?]
    split
    · next found steps eq => rw [eq] at here; rw [here.of_some]; exact .inl rfl
    · exact .inr rfl
    · next steps eq =>
      rw [eq] at here
      rcases here.of_none with none | zero
      · rw [none]; exact .inl rfl
      · simp at zero
  | cons c rest ih =>
    have here := p.matchWithin_sound ⟨before, c :: rest, left, []⟩ steps
    rw [findWithin, firstFrom?]
    split
    · next found steps eq => rw [eq] at here; rw [here.of_some]; exact .inl rfl
    · exact .inr rfl
    · next steps eq =>
      rw [eq] at here
      rcases here.of_none with none | zero
      · rw [none]; exact ih (some c) (left - 1) steps
      · simp at zero

end GatedRepair.Pattern
