import GatedRepair.Pattern.Search

/-!
# The preferred way through a text

What a pattern finds at the start of a text follows from the preferred way through it (`Prefers`), which is put together from
those through the parts of the pattern. That there is no way at all can be seen from the characters of the text: a pattern that
takes a character which the text lacks matches nowhere in it (`first?_lacking`).
-/

namespace GatedRepair.Pattern

/-! ## Places -/

/-- A place in a text, given by what stands before and after it. -/
def Place.of (before : Option Char) (rest : List Char) (groups : Groups) : Place := ⟨before, rest, rest.length, groups⟩

section
variable {before : Option Char} {rest : List Char} {groups : Groups}

@[simp] theorem Place.rest_of : (Place.of before rest groups).rest = rest := rfl

theorem Place.remember_of (name : String) (start stop : Option Char) (taken rest : List Char) (groups more : Groups) :
    Place.remember name (.of start (taken ++ rest) groups) (.of stop rest more) =
      .of stop rest ((name, taken ++ rest, taken.length) :: more) := by
  simp [Place.remember, Place.of]

@[simp] theorem Found.group?_cons {start : Place} {name other : String} {text : List Char} {count : Nat} :
    Found.group? ⟨start, .of before rest ((other, text, count) :: groups)⟩ name =
      if name = other then some (text.take count) else Found.group? ⟨start, .of before rest groups⟩ name := by
  by_cases same : name = other
  · simp [Found.group?, Place.of, same]
  · have apart : (name == other) = false := beq_eq_false_iff_ne.mpr same
    simp [Found.group?, Place.of, List.lookup_cons, same, apart]

/-! ## Runs -/

/-- The places along a run, the nearest first. -/
def trail (accepts : Char → Bool) (groups : Groups) : Option Char → List Char → List Place
  | before, [] => [.of before [] groups]
  | before, c :: rest => .of before (c :: rest) groups :: if accepts c then trail accepts groups (some c) rest else []

theorem reached_trail (accepts : Char → Bool) (groups : Groups) (before : Option Char) (rest : List Char) (found : List Place) :
    reached accepts groups rest rest.length (.of before rest groups :: found) =
      (trail accepts groups before rest).reverse ++ found := by
  induction rest generalizing before found with
  | nil => simp [reached, trail]
  | cons c rest ih =>
    unfold reached trail
    split
    · have here := ih (some c) (.of before (c :: rest) groups :: found)
      simpa [Place.of] using here
    · simp

theorem ways_many (accepts : Char → Bool) (greedy : Bool) :
    (many accepts greedy).ways (.of before rest groups) =
      if greedy then (trail accepts groups before rest).reverse else trail accepts groups before rest := by
  have stops_eq : stops accepts (.of before rest groups) = (trail accepts groups before rest).reverse := by
    have along := reached_trail accepts groups before rest []
    rwa [List.append_nil] at along
  rw [ways, stops_eq]
  cases greedy <;> simp

/-- A run over accepted characters goes by the places in front of them, and goes on behind them. -/
theorem trail_split {accepts : Char → Bool} {taken : List Char} (accepted : ∀ c ∈ taken, accepts c = true)
    (before : Option Char) (rest : List Char) :
    ∃ early, trail accepts groups before (taken ++ rest) = early ++ trail accepts groups (taken.getLast?.or before) rest ∧
      ∀ place ∈ early, ∃ front back other, taken = front ++ back ∧ back ≠ [] ∧ place = .of other (back ++ rest) groups := by
  induction taken generalizing before with
  | nil => exact ⟨[], rfl, by simp⟩
  | cons c taken ih =>
    obtain ⟨first, more⟩ := List.forall_mem_cons.mp accepted
    obtain ⟨early, along, earlier⟩ := ih more (some c)
    refine ⟨.of before (c :: taken ++ rest) groups :: early, ?_, ?_⟩
    · rw [List.cons_append, trail, if_pos first, along, List.getLast?_cons]
      cases taken.getLast? <;> rfl
    · intro place member
      rcases List.mem_cons.mp member with rfl | member
      · exact ⟨[], c :: taken, before, rfl, List.cons_ne_nil c taken, rfl⟩
      · obtain ⟨front, back, other, rfl, some, rfl⟩ := earlier place member
        exact ⟨c :: front, back, other, rfl, some, rfl⟩

/-- A run over accepted characters goes by the places in front of them and comes to the place behind them. -/
theorem trail_append {accepts : Char → Bool} {taken : List Char} (accepted : ∀ c ∈ taken, accepts c = true)
    (before : Option Char) (rest : List Char) :
    ∃ early late, trail accepts groups before (taken ++ rest) = early ++ .of (taken.getLast?.or before) rest groups :: late ∧
      (∀ place ∈ early, ∃ front back other, taken = front ++ back ∧ back ≠ [] ∧ place = .of other (back ++ rest) groups) ∧
      ((∀ c, rest.head? = some c → accepts c = false) → late = []) := by
  obtain ⟨early, along, earlier⟩ := trail_split accepted before rest
  cases rest with
  | nil => exact ⟨early, [], along, earlier, fun _ => rfl⟩
  | cons c rest =>
    refine ⟨early, if accepts c then trail accepts groups (some c) rest else [], along, earlier, fun stops => ?_⟩
    rw [stops c rfl]
    rfl

/-- A run stops behind accepted characters. -/
theorem mem_trail {accepts : Char → Bool} {place : Place} (member : place ∈ trail accepts groups before rest) :
    ∃ taken left other, rest = taken ++ left ∧ (∀ c ∈ taken, accepts c = true) ∧ place = .of other left groups := by
  induction rest generalizing before with
  | nil => exact ⟨[], [], before, rfl, by simp, List.mem_singleton.mp member⟩
  | cons c rest ih =>
    rcases List.mem_cons.mp member with rfl | member
    · exact ⟨[], c :: rest, before, rfl, by simp, rfl⟩
    · split at member
      · next accepted =>
        obtain ⟨taken, left, other, rfl, each, rfl⟩ := ih member
        exact ⟨c :: taken, left, other, rfl, by simpa [accepted] using each, rfl⟩
      · cases member

end

/-! ## The preferred way -/

/-- The preferred way from one place ends at another. -/
def Prefers (p : Pattern) (place stop : Place) : Prop := (p.ways place).head? = some stop

section
variable {p q : Pattern} {parts : List Pattern} {place middle stop : Place} {before after : Option Char}
  {taken rest : List Char} {groups more : Groups} {accepts : Char → Bool}

theorem Prefers.seq_later {early late : List Place} (first : p.ways place = early ++ middle :: late)
    (stuck : ∀ other ∈ early, q.ways other = []) (second : Prefers q middle stop) : Prefers (.seq p q) place stop := by
  have nothing : early.flatMap q.ways = [] := List.flatMap_eq_nil_iff.mpr stuck
  unfold Prefers at second ⊢
  rw [ways, first, List.flatMap_append, nothing, List.nil_append, List.flatMap_cons, List.head?_append, second]
  rfl

theorem Prefers.seq (first : Prefers p place middle) (second : Prefers q middle stop) : Prefers (.seq p q) place stop := by
  obtain ⟨late, ways_eq⟩ := List.head?_eq_some_iff.mp first
  have stuck : ∀ other ∈ ([] : List Place), q.ways other = [] := by simp
  exact .seq_later ways_eq stuck second

theorem Prefers.cons (first : Prefers p place middle) (second : Prefers (all parts) middle stop) :
    Prefers (all (p :: parts)) place stop :=
  first.seq second

theorem prefers_nil : Prefers (all []) place place := rfl

theorem Prefers.either_left (first : Prefers p place stop) : Prefers (.either p q) place stop := by
  unfold Prefers at first ⊢
  rw [ways, List.head?_append, first]
  rfl

theorem Prefers.either_right (none : p.ways place = []) (second : Prefers q place stop) : Prefers (.either p q) place stop := by
  unfold Prefers at second ⊢
  rw [ways, none, List.nil_append, second]

theorem Prefers.group (name : String) (inside : Prefers p (.of before (taken ++ rest) groups) (.of after rest more)) :
    Prefers (.group name p) (.of before (taken ++ rest) groups) (.of after rest ((name, taken ++ rest, taken.length) :: more)) := by
  unfold Prefers at inside ⊢
  rw [ways, List.head?_map, inside, Option.map_some, Place.remember_of]

theorem prefers_one {c : Char} (accepted : accepts c = true) :
    Prefers (.one accepts) (.of before (c :: rest) groups) (.of (some c) rest groups) := by
  simp [Prefers, ways, Place.step?, Place.of, accepted]

theorem prefers_char (c : Char) : Prefers (char c) (.of before (c :: rest) groups) (.of (some c) rest groups) :=
  prefers_one (beq_self_eq_true c)

theorem prefers_text (s : String) :
    Prefers (text s) (.of before (s.toList ++ rest) groups) (.of (s.toList.getLast?.or before) rest groups) := by
  unfold text
  generalize s.toList = chars
  induction chars generalizing before with
  | nil => rfl
  | cons c chars ih =>
    rw [List.foldr_cons, List.getLast?_cons]
    refine (prefers_char c).seq ?_
    have next := @ih (some c)
    cases last : chars.getLast? <;> simpa [last] using next

theorem prefers_run (accepted : ∀ c ∈ taken, accepts c = true) (stops : ∀ c, rest.head? = some c → accepts c = false) :
    Prefers (run accepts) (.of before (taken ++ rest) groups) (.of (taken.getLast?.or before) rest groups) := by
  obtain ⟨early, late, along, -, ends⟩ := @trail_append groups accepts taken accepted before rest
  rw [ends stops] at along
  rw [Prefers, run, ways_many, if_pos rfl, along, List.reverse_append]
  rfl

theorem prefers_one_run {others : Char → Bool} {c : Char} (first : accepts c = true) (accepted : ∀ d ∈ taken, others d = true)
    (stops : ∀ d, rest.head? = some d → others d = false) :
    Prefers (.seq (.one accepts) (run others)) (.of before (c :: (taken ++ rest)) groups)
      (.of ((c :: taken).getLast?.or before) rest groups) := by
  have next : Prefers (run others) (.of (some c) (taken ++ rest) groups) _ := prefers_run accepted stops
  rw [List.getLast?_cons]
  refine (prefers_one first).seq ?_
  cases last : taken.getLast? <;> simpa [last] using next

theorem prefers_some1 (any : taken ≠ []) (accepted : ∀ c ∈ taken, accepts c = true)
    (stops : ∀ c, rest.head? = some c → accepts c = false) :
    Prefers (some1 accepts) (.of before (taken ++ rest) groups) (.of (taken.getLast?.or before) rest groups) := by
  obtain ⟨c, taken, rfl⟩ := List.exists_cons_of_ne_nil any
  obtain ⟨first, others⟩ := List.forall_mem_cons.mp accepted
  exact prefers_one_run first others stops

/-- A remembered run takes no more than is needed for the rest to go on. -/
theorem Prefers.cons_few {name : String} (accepted : ∀ c ∈ taken, accepts c = true)
    (stuck : ∀ front back other more, taken = front ++ back → back ≠ [] → (all parts).ways (.of other (back ++ rest) more) = [])
    (second : Prefers (all parts) (.of (taken.getLast?.or before) rest ((name, taken ++ rest, taken.length) :: groups)) stop) :
    Prefers (all (.group name (few accepts) :: parts)) (.of before (taken ++ rest) groups) stop := by
  obtain ⟨early, late, along, earlier, -⟩ := @trail_append groups accepts taken accepted before rest
  have ways_eq : (Pattern.group name (few accepts)).ways (.of before (taken ++ rest) groups) =
      early.map (Place.remember name (.of before (taken ++ rest) groups)) ++
        .of (taken.getLast?.or before) rest ((name, taken ++ rest, taken.length) :: groups) ::
          late.map (Place.remember name (.of before (taken ++ rest) groups)) := by
    rw [ways, few, ways_many, along]
    simp [Place.remember_of]
  refine .seq_later ways_eq (fun place member => ?_) second
  obtain ⟨shorter, inside, rfl⟩ := List.mem_map.mp member
  obtain ⟨front, back, other, split, some, rfl⟩ := earlier shorter inside
  exact stuck front back other _ split some

theorem prefers_atStart : Prefers atStart (.of none rest groups) (.of none rest groups) := rfl

theorem prefers_atEnd : Prefers atEnd (.of before [] groups) (.of before [] groups) := rfl

theorem first?_of_prefers {text : List Char} (preferred : Prefers p (.of none text []) stop) :
    p.first? text = some ⟨.of none text [], stop⟩ := by
  have here : p.matchAt? ⟨none, text, text.length, []⟩ = some ⟨.of none text [], stop⟩ := by
    rw [matchAt?]
    exact (congrArg (Option.map _) preferred).trans rfl
  unfold first? firstFrom?
  rw [here]

end

/-! ## No way at all -/

theorem reached_suffix {accepts : Char → Bool} {groups : Groups} {rest : List Char} {left : Nat} {found : List Place}
    {stop : Place} (member : stop ∈ reached accepts groups rest left found) : stop ∈ found ∨ stop.rest <:+ rest := by
  induction rest generalizing left found with
  | nil => exact .inl member
  | cons c rest ih =>
    unfold reached at member
    split at member
    · rcases ih member with earlier | further
      · rcases List.mem_cons.mp earlier with rfl | earlier
        · exact .inr (List.suffix_cons c rest)
        · exact .inl earlier
      · exact .inr (further.trans (List.suffix_cons c rest))
    · exact .inl member

/-- A way goes on in the text. -/
theorem rest_suffix {p : Pattern} {place stop : Place} (member : stop ∈ p.ways place) : stop.rest <:+ place.rest := by
  induction p generalizing place stop with
  | nothing =>
    obtain rfl := List.mem_singleton.mp member
    exact List.suffix_rfl
  | one accepts =>
    unfold ways Place.step? at member
    split at member
    · cases member
    · next c rest text =>
      split at member
      · obtain rfl := List.mem_singleton.mp member
        rw [text]
        exact List.suffix_cons c rest
      · cases member
  | many accepts greedy =>
    have along : stop ∈ stops accepts place := by
      cases greedy with
      | true => exact member
      | false => exact List.mem_reverse.mp member
    rcases reached_suffix along with here | further
    · obtain rfl := List.mem_singleton.mp here
      exact List.suffix_rfl
    · exact further
  | seq first second first_ih second_ih =>
    obtain ⟨middle, before, after⟩ := List.mem_flatMap.mp member
    exact (second_ih after).trans (first_ih before)
  | either first second first_ih second_ih =>
    rcases List.mem_append.mp member with left | right
    · exact first_ih left
    · exact second_ih right
  | group name body ih =>
    obtain ⟨inner, inside, rfl⟩ := List.mem_map.mp member
    have further : inner.rest <:+ place.rest := ih inside
    exact further
  | check holds =>
    unfold ways at member
    split at member
    · obtain rfl := List.mem_singleton.mp member
      exact List.suffix_rfl
    · cases member

/-- Every way through a pattern takes a character that is none of the given ones. -/
def lacking (letters : List Char) : Pattern → Bool
  | .one accepts => letters.all (!accepts ·)
  | .seq first second => lacking letters first || lacking letters second
  | .either first second => lacking letters first && lacking letters second
  | .group _ body => lacking letters body
  | .nothing | .many _ _ | .check _ => false

theorem ways_lacking {letters : List Char} {p : Pattern} (lacks : p.lacking letters = true) {place : Place}
    (within : ∀ c ∈ place.rest, c ∈ letters) : p.ways place = [] := by
  induction p generalizing place with
  | nothing => cases lacks
  | many accepts greedy => cases lacks
  | check holds => cases lacks
  | one accepts =>
    unfold ways Place.step?
    split
    · rfl
    · next c rest text =>
      have foreign := List.all_eq_true.mp lacks c (within c (by simp [text]))
      rw [if_neg (by simpa using foreign)]
      rfl
  | seq first second first_ih second_ih =>
    rcases Bool.or_eq_true_iff.mp lacks with lacks | lacks
    · rw [ways, first_ih lacks within]
      rfl
    · refine List.flatMap_eq_nil_iff.mpr fun middle member => second_ih lacks fun c inside => ?_
      exact within c ((rest_suffix member).subset inside)
  | either first second first_ih second_ih =>
    obtain ⟨left, right⟩ := Bool.and_eq_true_iff.mp lacks
    rw [ways, first_ih left within, second_ih right within]
    rfl
  | group name body ih =>
    rw [ways, ih lacks within]
    rfl

/-- In a text of the given characters nothing is found that takes others. -/
theorem first?_lacking {letters : List Char} {p : Pattern} (lacks : p.lacking letters = true) {text : List Char}
    (within : ∀ c ∈ text, c ∈ letters) : p.first? text = none := by
  have nowhere : ∀ (rest : List Char) (before : Option Char) (left : Nat), (∀ c ∈ rest, c ∈ letters) →
      p.firstFrom? before rest left = none := by
    intro rest
    induction rest with
    | nil =>
      intro before left within
      rw [firstFrom?, matchAt?, ways_lacking lacks within]
      rfl
    | cons c rest ih =>
      intro before left within
      rw [firstFrom?, matchAt?, ways_lacking lacks within]
      exact ih (some c) (left - 1) fun d inside => within d (List.mem_cons_of_mem c inside)
  exact nowhere text none text.length within

end GatedRepair.Pattern
