import GatedRepair.Proofs.Pattern.Preferred

/-!
# The texts that a pattern takes

Every way through a pattern takes a text that the pattern allows between what stands before and after it
(`takes_of_mem_ways`). So a pattern matches nowhere in a text of which it allows no part (`first?_eq_none`), and one that
begins at the start of the text has to allow a part there (`Starts.first?_eq_none`).
-/

namespace GatedRepair.Pattern

open GatedRepair.Text

/-- The pattern allows a text between the character before it and the text after it. -/
def Takes : Pattern → Option Char → List Char → List Char → Prop
  | .nothing, _, text, _ => text = []
  | .one accepts, _, text, _ => ∃ c, accepts c = true ∧ text = [c]
  | .many accepts _, _, text, _ => ∀ c ∈ text, accepts c = true
  | .seq first second, before, text, rest =>
    ∃ front back, text = front ++ back ∧ first.Takes before front (back ++ rest) ∧
      second.Takes (front.getLast?.or before) back rest
  | .either first second, before, text, rest => first.Takes before text rest ∨ second.Takes before text rest
  | .group _ body, before, text, rest => body.Takes before text rest
  | .check holds, before, text, rest => text = [] ∧ holds before rest.head? = true

section
variable {p q : Pattern} {parts : List Pattern} {before : Option Char} {text rest : List Char} {accepts : Char → Bool}

theorem takes_cons : (all (p :: parts)).Takes before text rest ↔
    ∃ front back, text = front ++ back ∧ p.Takes before front (back ++ rest) ∧
      (all parts).Takes (front.getLast?.or before) back rest := Iff.rfl

/-- What the later parts take stands at the end. -/
theorem takes_drop (n : Nat) (takes : (all parts).Takes before text rest) :
    ∃ front back, text = front ++ back ∧ (all (parts.drop n)).Takes (front.getLast?.or before) back rest := by
  induction n generalizing parts before text with
  | zero => exact ⟨[], text, rfl, takes⟩
  | succ n ih =>
    cases parts with
    | nil => exact ⟨[], text, rfl, takes⟩
    | cons p parts =>
      obtain ⟨first, others, rfl, -, takes⟩ := takes_cons.mp takes
      obtain ⟨front, back, rfl, takes⟩ := ih takes
      exact ⟨first ++ front, back, by simp, by rwa [List.getLast?_append, Option.or_assoc]⟩

theorem takes_nil : (all []).Takes before text rest ↔ text = [] := Iff.rfl

theorem takes_atStart : atStart.Takes before text rest ↔ text = [] ∧ before = none := by
  simp [atStart, Takes]

theorem takes_atEnd : atEnd.Takes before text rest ↔ text = [] ∧ rest = [] := by
  simp [atEnd, Takes]

theorem takes_group {name : String} : (group name p).Takes before text rest ↔ p.Takes before text rest := Iff.rfl

theorem takes_char {c : Char} : (char c).Takes before text rest ↔ text = [c] := by
  simp [char, Takes]

theorem takes_some1 : (some1 accepts).Takes before text rest ↔ text ≠ [] ∧ ∀ c ∈ text, accepts c = true := by
  constructor
  · rintro ⟨front, back, rfl, ⟨c, first, rfl⟩, others⟩
    exact ⟨by simp, List.forall_mem_cons.mpr ⟨first, others⟩⟩
  · rintro ⟨any, each⟩
    obtain ⟨c, more, rfl⟩ := List.exists_cons_of_ne_nil any
    obtain ⟨first, others⟩ := List.forall_mem_cons.mp each
    exact ⟨[c], more, rfl, ⟨c, first, rfl⟩, others⟩

theorem takes_text {s : String} : (Pattern.text s).Takes before text rest ↔ text = s.toList := by
  unfold Pattern.text
  generalize s.toList = chars
  induction chars generalizing before text with
  | nil => rfl
  | cons c chars ih =>
    constructor
    · rintro ⟨front, back, rfl, first, others⟩
      rw [takes_char.mp first, ih.mp others]
      rfl
    · rintro rfl
      exact ⟨[c], chars, rfl, takes_char.mpr rfl, ih.mpr rfl⟩

/-- A text that is taken in any case is the word, but for its case. -/
theorem lower_of_takes_anyCase {s : String} (takes : (anyCase s).Takes before text rest) :
    text.map asciiLower = s.toList.map asciiLower := by
  unfold anyCase at takes
  generalize s.toList = chars at takes ⊢
  induction chars generalizing before text with
  | nil => exact congrArg (List.map asciiLower) takes
  | cons c chars ih =>
    obtain ⟨front, back, rfl, ⟨d, same, rfl⟩, others⟩ := takes
    have here : asciiLower d = asciiLower c := beq_iff_eq.mp same
    rw [List.map_append, ih others, List.map_singleton, here]
    rfl

theorem exists_of_takes_first {ps : List Pattern} (takes : (first ps).Takes before text rest) :
    ∃ p ∈ ps, p.Takes before text rest := by
  induction ps with
  | nil => exact absurd takes.2 Bool.false_ne_true
  | cons p ps ih =>
    cases ps with
    | nil => exact ⟨p, by simp, takes⟩
    | cons q ps =>
      rcases takes with here | later
      · exact ⟨p, by simp, here⟩
      · obtain ⟨found, member, takes⟩ := ih later
        exact ⟨found, List.mem_cons_of_mem p member, takes⟩

theorem takes_maybe : (maybe p).Takes before text rest ↔ p.Takes before text rest ∨ text = [] := Iff.rfl

/-- A text is cut in one way behind the characters of a class. -/
theorem cut_unique {front front' back back' : List Char} (same : front ++ back = front' ++ back')
    (inside : ∀ c ∈ front, accepts c = true) (inside' : ∀ c ∈ front', accepts c = true)
    (stops : ∀ c, back.head? = some c → accepts c = false) (stops' : ∀ c, back'.head? = some c → accepts c = false) :
    front = front' ∧ back = back' := by
  induction front generalizing front' with
  | nil =>
    cases front' with
    | nil => exact ⟨rfl, same⟩
    | cons c front' =>
      have first : back.head? = some c := congrArg List.head? same
      exact absurd (inside' c (by simp)) (by simp [stops c first])
  | cons c front ih =>
    obtain ⟨accepted, others⟩ := List.forall_mem_cons.mp inside
    cases front' with
    | nil =>
      have first : back'.head? = some c := congrArg List.head? same.symm
      exact absurd accepted (by simp [stops' c first])
    | cons d front' =>
      obtain ⟨rfl, others_same⟩ := List.cons.inj same
      obtain ⟨rfl, rfl⟩ := ih others_same others fun e member => inside' e (List.mem_cons_of_mem c member)
      exact ⟨rfl, rfl⟩

/-! ## Every way takes a text -/

theorem mem_reached {groups : Groups} {left : Nat} {found : List Place} {stop : Place}
    (member : stop ∈ reached accepts groups rest left found) :
    stop ∈ found ∨ ∃ c more, rest = c :: (more ++ stop.rest) ∧ (∀ d ∈ c :: more, accepts d = true) ∧
      stop.before = (c :: more).getLast? := by
  induction rest generalizing left found with
  | nil => exact .inl member
  | cons c rest ih =>
    unfold reached at member
    split at member
    · next accepted =>
      rcases ih member with earlier | ⟨d, more, rfl, each, ends⟩
      · rcases List.mem_cons.mp earlier with rfl | earlier
        · exact .inr ⟨c, [], rfl, by simpa using accepted, rfl⟩
        · exact .inl earlier
      · refine .inr ⟨c, d :: more, rfl, List.forall_mem_cons.mpr ⟨accepted, each⟩, ?_⟩
        rw [ends, List.getLast?_cons_cons]
    · exact .inl member

/-- A way through a pattern takes a text that the pattern allows. -/
theorem takes_of_mem_ways {place stop : Place} (member : stop ∈ p.ways place) :
    ∃ taken, place.rest = taken ++ stop.rest ∧ p.Takes place.before taken stop.rest ∧
      stop.before = taken.getLast?.or place.before := by
  induction p generalizing place stop with
  | nothing =>
    obtain rfl := List.mem_singleton.mp member
    exact ⟨[], rfl, rfl, rfl⟩
  | one accepts =>
    unfold ways Place.step? at member
    split at member
    · cases member
    · next c rest text =>
      split at member
      · next accepted =>
        obtain rfl := List.mem_singleton.mp member
        exact ⟨[c], text, ⟨c, accepted, rfl⟩, rfl⟩
      · cases member
  | many accepts greedy =>
    have along : stop ∈ stops accepts place := by
      cases greedy with
      | true => exact member
      | false => exact List.mem_reverse.mp member
    rcases mem_reached along with here | ⟨c, more, text, each, ends⟩
    · obtain rfl := List.mem_singleton.mp here
      exact ⟨[], rfl, by simp [Takes], rfl⟩
    · refine ⟨c :: more, text, each, ?_⟩
      rw [ends, List.getLast?_cons]
      rfl
  | seq first second first_ih second_ih =>
    obtain ⟨middle, early, late⟩ := List.mem_flatMap.mp member
    obtain ⟨front, split, takes, ends⟩ := first_ih early
    obtain ⟨back, split', takes', ends'⟩ := second_ih late
    refine ⟨front ++ back, by rw [split, split', List.append_assoc], ⟨front, back, rfl, split' ▸ takes, ends ▸ takes'⟩, ?_⟩
    rw [ends', ends, List.getLast?_append, Option.or_assoc]
  | either first second first_ih second_ih =>
    rcases List.mem_append.mp member with left | right
    · obtain ⟨taken, split, takes, ends⟩ := first_ih left
      exact ⟨taken, split, .inl takes, ends⟩
    · obtain ⟨taken, split, takes, ends⟩ := second_ih right
      exact ⟨taken, split, .inr takes, ends⟩
  | group name body ih =>
    obtain ⟨inner, inside, rfl⟩ := List.mem_map.mp member
    obtain ⟨taken, split, takes, ends⟩ := ih inside
    exact ⟨taken, split, takes, ends⟩
  | check holds =>
    unfold ways at member
    split at member
    · next holding =>
      obtain rfl := List.mem_singleton.mp member
      exact ⟨[], rfl, ⟨rfl, holding⟩, rfl⟩
    · cases member

/-- A pattern that allows no part of a text is not found in it. -/
theorem first?_eq_none (refuses : ∀ front taken back, text = front ++ (taken ++ back) → ¬ p.Takes front.getLast? taken back) :
    p.first? text = none := by
  have nowhere : ∀ (back front : List Char) (left : Nat), text = front ++ back →
      p.firstFrom? front.getLast? back left = none := by
    intro back
    induction back with
    | nil =>
      intro front left split
      have stuck : p.ways ⟨front.getLast?, [], left, []⟩ = [] := by
        refine List.eq_nil_iff_forall_not_mem.mpr fun stop member => ?_
        obtain ⟨taken, here, takes, -⟩ := takes_of_mem_ways member
        exact refuses front taken stop.rest (split.trans (congrArg _ here)) takes
      rw [firstFrom?, matchAt?, stuck]
      rfl
    | cons c back ih =>
      intro front left split
      have stuck : p.ways ⟨front.getLast?, c :: back, left, []⟩ = [] := by
        refine List.eq_nil_iff_forall_not_mem.mpr fun stop member => ?_
        obtain ⟨taken, here, takes, -⟩ := takes_of_mem_ways member
        exact refuses front taken stop.rest (split.trans (congrArg _ here)) takes
      rw [firstFrom?, matchAt?, stuck]
      have next := ih (front ++ [c]) (left - 1) (by simp [split])
      rwa [List.getLast?_concat] at next
  exact nowhere text [] text.length rfl

/-! ## Patterns that begin at the start -/

/-- The pattern allows a text at the start only. -/
def Starts (p : Pattern) : Prop := ∀ before text rest, p.Takes before text rest → before = none

theorem starts_atStart : Starts atStart := fun _ _ _ takes => (takes_atStart.mp takes).2

theorem Starts.cons (starts : Starts p) : Starts (all (p :: parts)) :=
  fun _ _ _ ⟨_, _, _, takes, _⟩ => starts _ _ _ takes

theorem Starts.first?_eq_none (starts : Starts p) (refuses : ∀ taken back, text = taken ++ back → ¬ p.Takes none taken back) :
    p.first? text = none := by
  refine Pattern.first?_eq_none fun front taken back split takes => ?_
  obtain rfl : front = [] := List.getLast?_eq_none_iff.mp (starts _ _ _ takes)
  exact refuses taken back split takes

end

/-!
## The first match and where it is

A search passes over a front in which no match begins (`firstFrom?_append`), and takes the preferred way from the first place
that has one (`firstFrom?_of_prefers`). The preferred ways here are those of runs that give back what the rest needs.
-/

section
variable {p q : Pattern} {parts : List Pattern} {place middle stop : Place} {before after : Option Char}
  {text taken front back rest : List Char} {groups more : Groups} {accepts : Char → Bool}

/-! ### The search -/

theorem matchAt?_of_prefers (preferred : Prefers p place stop) : p.matchAt? place = some ⟨place, stop⟩ := by
  rw [matchAt?, preferred]
  rfl

theorem matchAt?_eq_none (stuck : p.ways place = []) : p.matchAt? place = none := by
  rw [matchAt?, stuck]
  rfl

/-- From a place with a way the preferred one is taken. -/
theorem firstFrom?_of_prefers (preferred : Prefers p (.of before text []) stop) :
    p.firstFrom? before text text.length = some ⟨.of before text [], stop⟩ := by
  have here : p.matchAt? ⟨before, text, text.length, []⟩ = some ⟨.of before text [], stop⟩ := matchAt?_of_prefers preferred
  unfold firstFrom?
  rw [here]

theorem firstFrom?_cons {c : Char} (stuck : p.ways (.of before (c :: text) []) = []) :
    p.firstFrom? before (c :: text) (c :: text).length = p.firstFrom? (some c) text text.length := by
  have here : p.matchAt? ⟨before, c :: text, (c :: text).length, []⟩ = none := matchAt?_eq_none stuck
  rw [firstFrom?, here]
  rfl

theorem firstFrom?_nil (stuck : p.ways (.of before [] []) = []) : p.firstFrom? before [] 0 = none := by
  have here : p.matchAt? ⟨before, [], 0, []⟩ = none := matchAt?_eq_none stuck
  rw [firstFrom?, here]

/-- A front in which no match begins is passed over. -/
theorem firstFrom?_append
    (stuck : ∀ early late, front = early ++ late → late ≠ [] → p.ways (.of (early.getLast?.or before) (late ++ back) []) = []) :
    p.firstFrom? before (front ++ back) (front ++ back).length = p.firstFrom? (front.getLast?.or before) back back.length := by
  induction front generalizing before with
  | nil => rfl
  | cons c front ih =>
    have here : p.ways (.of before (c :: (front ++ back)) []) = [] := stuck [] (c :: front) rfl (List.cons_ne_nil c front)
    rw [List.cons_append, firstFrom?_cons here, ih]
    · rw [List.getLast?_cons]
      cases front.getLast? <;> rfl
    · intro early late split some
      have next := stuck (c :: early) late (congrArg _ split) some
      rw [List.getLast?_cons] at next
      cases last : early.getLast? <;> simpa [last] using next

theorem firstFrom?_eq_none (stuck : ∀ early late, text = early ++ late → p.ways (.of (early.getLast?.or before) late []) = []) :
    p.firstFrom? before text text.length = none := by
  have passed := @firstFrom?_append p before text [] fun early late split _ => by
    rw [List.append_nil]
    exact stuck early late split
  rw [List.append_nil] at passed
  rw [passed]
  exact firstFrom?_nil (stuck text [] (List.append_nil text).symm)

/-- Behind the only match nothing more is found. -/
theorem each_eq_singleton {found : Found} (some : text ≠ []) (first : p.first? text = Option.some found)
    (later : p.firstFrom? found.stop.before found.stop.rest found.stop.left = none) : p.each text = [found] := by
  obtain ⟨c, rest, rfl⟩ := List.exists_cons_of_ne_nil some
  have once : p.each (c :: rest) = successive p.firstFrom? rest.length [found] found.stop.before found.stop.rest found.stop.left := by
    unfold first? at first
    rw [each, List.length_cons, successive, ← List.length_cons, first]
  rw [once]
  cases rest.length with
  | zero => rfl
  | succ most => rw [successive, later]; rfl

/-! ### The preferred way -/

theorem exists_prefers (member : stop ∈ p.ways place) : ∃ stop ∈ p.ways place, Prefers p place stop := by
  cases ways_eq : p.ways place with
  | nil =>
    rw [ways_eq] at member
    cases member
  | cons first others => exact ⟨first, List.mem_cons_self, by rw [Prefers, ways_eq]; rfl⟩

/-- A text of the letters of a word, in whatever case. -/
theorem prefers_anyCase {s : String} (same : text.map asciiLower = s.toList.map asciiLower) :
    Prefers (anyCase s) (.of before (text ++ rest) groups) (.of (text.getLast?.or before) rest groups) := by
  unfold anyCase
  generalize s.toList = chars at same
  induction chars generalizing before text with
  | nil =>
    obtain rfl := List.map_eq_nil_iff.mp same
    rfl
  | cons c chars ih =>
    obtain ⟨d, others, rfl, here, more⟩ := List.map_eq_cons_iff.mp same
    rw [List.foldr_cons, List.getLast?_cons]
    have accepted : (asciiLower d == asciiLower c) = true := beq_iff_eq.mpr here
    refine .seq (prefers_one accepted) ?_
    have next := @ih (some d) others more
    cases last : others.getLast? <;> simpa [last] using next

/-- A run gives back the characters behind which the rest cannot go on. -/
theorem Prefers.cons_run_back (accepted : ∀ c ∈ taken, accepts c = true)
    (stuck : ∀ front back other, rest = front ++ back → front ≠ [] → (∀ c ∈ front, accepts c = true) →
      (all parts).ways (.of other back groups) = [])
    (second : Prefers (all parts) (.of (taken.getLast?.or before) rest groups) stop) :
    Prefers (all (run accepts :: parts)) (.of before (taken ++ rest) groups) stop := by
  obtain ⟨early, along, -⟩ := @trail_split groups accepts taken accepted before rest
  obtain ⟨late, here, further⟩ : ∃ late, trail accepts groups (taken.getLast?.or before) rest =
      .of (taken.getLast?.or before) rest groups :: late ∧
        ∀ place ∈ late, ∃ front back other, rest = front ++ back ∧ front ≠ [] ∧ (∀ c ∈ front, accepts c = true) ∧
          place = .of other back groups := by
    cases rest with
    | nil => exact ⟨[], rfl, by simp⟩
    | cons c rest =>
      refine ⟨_, rfl, fun place member => ?_⟩
      split at member
      · next first =>
        obtain ⟨front, back, other, rfl, others, rfl⟩ := mem_trail member
        exact ⟨c :: front, back, other, rfl, List.cons_ne_nil c front, List.forall_mem_cons.mpr ⟨first, others⟩, rfl⟩
      · cases member
  have ways_eq : (run accepts).ways (.of before (taken ++ rest) groups) =
      late.reverse ++ .of (taken.getLast?.or before) rest groups :: early.reverse := by
    rw [run, ways_many, if_pos rfl, along, here, List.reverse_append, List.reverse_cons, List.append_assoc]
    rfl
  refine .seq_later ways_eq (fun place member => ?_) second
  obtain ⟨front, back, other, split, some, each, rfl⟩ := further place (List.mem_reverse.mp member)
  exact stuck front back other split some each

/-- A remembered run of one character at least takes no more than is needed for the rest to go on. -/
theorem Prefers.cons_few1 {name : String} (any : taken ≠ []) (accepted : ∀ c ∈ taken, accepts c = true)
    (stuck : ∀ front back other more, taken = front ++ back → front ≠ [] → back ≠ [] →
      (all parts).ways (.of other (back ++ rest) more) = [])
    (second : Prefers (all parts) (.of taken.getLast? rest ((name, taken ++ rest, taken.length) :: groups)) stop) :
    Prefers (all (.group name (few1 accepts) :: parts)) (.of before (taken ++ rest) groups) stop := by
  obtain ⟨c, taken, rfl⟩ := List.exists_cons_of_ne_nil any
  obtain ⟨first, others⟩ := List.forall_mem_cons.mp accepted
  obtain ⟨early, late, along, earlier, -⟩ := @trail_append groups accepts taken others (some c) rest
  have last : (c :: taken).getLast? = taken.getLast?.or (some c) := by
    rw [List.getLast?_cons]
    cases taken.getLast? <;> rfl
  have one : (few1 accepts).ways (.of before (c :: taken ++ rest) groups) = trail accepts groups (some c) (taken ++ rest) := by
    have next : (Pattern.one accepts).ways (.of before (c :: (taken ++ rest)) groups) = [.of (some c) (taken ++ rest) groups] := by
      simp [ways, Place.step?, Place.of, first]
    rw [few1, ways, List.cons_append, next, List.flatMap_singleton, few, ways_many, if_neg Bool.false_ne_true]
  have ways_eq : (Pattern.group name (few1 accepts)).ways (.of before (c :: taken ++ rest) groups) =
      early.map (Place.remember name (.of before (c :: taken ++ rest) groups)) ++
        .of (c :: taken).getLast? rest ((name, c :: taken ++ rest, (c :: taken).length) :: groups) ::
          late.map (Place.remember name (.of before (c :: taken ++ rest) groups)) := by
    rw [ways, one, along, List.map_append, List.map_cons, Place.remember_of, last]
  refine .seq_later ways_eq (fun place member => ?_) second
  obtain ⟨shorter, inside, rfl⟩ := List.mem_map.mp member
  obtain ⟨front, back, other, rfl, some, rfl⟩ := earlier shorter inside
  exact stuck (c :: front) back other _ rfl (List.cons_ne_nil c front) some

end

end GatedRepair.Pattern
