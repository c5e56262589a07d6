import GatedRepair.Fix.Consensus
import Mathlib.Algebra.Order.Ring.Unbundled.Rat
import Mathlib.Data.List.Induction

/-!
# Who wins

One scan with a strict comparison finds the first of the greatest elements (`firstGreatest_of_chosen`). The labels of the
usable candidates are scanned so for the one that most of them bear, and the usable candidates, or those that bear this
label, for the most confident one. The outcome is told by the list of all candidates alone (`selected_iff_wins`): who wins,
with how many others, and what is said where nobody does.
-/

namespace GatedRepair.Consensus

/-! ## The first of the greatest -/

section
variable {α β : Type} [LinearOrder β] {among : α → Prop} {value : α → β} {elements : List α} {x y : α}

/-- An element of a class that no other one of the class in the list exceeds, and that exceeds all those before it. -/
structure FirstGreatest (among : α → Prop) (value : α → β) (elements : List α) (x : α) : Prop where
  fits : among x
  stands : ∃ front back, elements = front ++ x :: back ∧ (∀ y ∈ front, among y → value y < value x) ∧
    ∀ y ∈ back, among y → value y ≤ value x

/-- Of two places in a list one is before the other, unless they are the same. -/
theorem cut_cases {front back front' back' : List α} (same : front ++ x :: back = front' ++ y :: back') :
    x = y ∨ x ∈ front' ∨ y ∈ front := by
  rcases List.append_eq_append_iff.mp same with ⟨between, longer, rest⟩ | ⟨between, longer, rest⟩
  · cases between with
    | nil => exact .inl (List.cons.inj rest).1
    | cons first more =>
      obtain ⟨rfl, -⟩ := List.cons.inj rest
      exact .inr (.inl (by simp [longer]))
  · cases between with
    | nil => exact .inl (List.cons.inj rest).1.symm
    | cons first more =>
      obtain ⟨rfl, -⟩ := List.cons.inj rest
      exact .inr (.inr (by simp [longer]))

namespace FirstGreatest

theorem mem (first : FirstGreatest among value elements x) : x ∈ elements := by
  obtain ⟨front, back, rfl, -⟩ := first.stands
  simp

theorem le (first : FirstGreatest among value elements x) (member : y ∈ elements) (fits : among y) : value y ≤ value x := by
  obtain ⟨front, back, rfl, before, after⟩ := first.stands
  rcases List.mem_append.mp member with earlier | later
  · exact le_of_lt (before y earlier fits)
  · rcases List.mem_cons.mp later with rfl | later
    · exact le_rfl
    · exact after y later fits

theorem unique (first : FirstGreatest among value elements x) (other : FirstGreatest among value elements y) : x = y := by
  obtain ⟨front, back, cut, before, -⟩ := first.stands
  obtain ⟨front', back', cut', before', -⟩ := other.stands
  rcases cut_cases (cut.symm.trans cut') with same | earlier | earlier
  · exact same
  · exact absurd (before' x earlier first.fits) (not_lt.mpr (first.le other.mem other.fits))
  · exact absurd (before y earlier other.fits) (not_lt.mpr (other.le first.mem first.fits))

theorem congr {among' : α → Prop} (first : FirstGreatest among value elements x) (same : ∀ y, among' y ↔ among y) :
    FirstGreatest among' value elements x := by
  obtain ⟨front, back, cut, before, after⟩ := first.stands
  exact ⟨(same x).mpr first.fits, front, back, cut, fun y inside fits => before y inside ((same y).mp fits),
    fun y inside fits => after y inside ((same y).mp fits)⟩

/-- What a filter leaves is a class of the whole list. -/
theorem of_filter {keep : α → Bool} (first : FirstGreatest (fun _ => True) value (elements.filter keep) x) :
    FirstGreatest (fun y => keep y = true) value elements x := by
  obtain ⟨kept, kept', cut, before, after⟩ := first.stands
  obtain ⟨front, rest, rfl, rfl, cut'⟩ := List.filter_eq_append_iff.mp cut
  obtain ⟨passed, back, rfl, dropped, fits, rfl⟩ := List.filter_eq_cons_iff.mp cut'
  refine ⟨fits, front ++ passed, back, by simp, fun y inside keeps => ?_, fun y inside keeps => ?_⟩
  · rcases List.mem_append.mp inside with earlier | between
    · exact before y (List.mem_filter.mpr ⟨earlier, keeps⟩) trivial
    · exact absurd keeps (dropped y between)
  · exact after y (List.mem_filter.mpr ⟨inside, keeps⟩) trivial

theorem of_map {γ : Type} {image : γ → α} {sources : List γ}
    (first : FirstGreatest (fun _ => True) value (sources.map image) x) :
    ∃ source, image source = x ∧ FirstGreatest (fun _ => True) (fun s => value (image s)) sources source := by
  obtain ⟨front, back, cut, before, after⟩ := first.stands
  obtain ⟨earlier, rest, rfl, rfl, cut'⟩ := List.map_eq_append_iff.mp cut
  obtain ⟨source, later, rfl, rfl, rfl⟩ := List.map_eq_cons_iff.mp cut'
  exact ⟨source, rfl, trivial, earlier, later, rfl, fun s inside _ => before _ (List.mem_map_of_mem inside) trivial,
    fun s inside _ => after _ (List.mem_map_of_mem inside) trivial⟩

end FirstGreatest

variable {exceeds : α → α → Bool}

theorem firstGreatest?_concat (elements : List α) (last : α) :
    firstGreatest? exceeds (elements ++ [last]) =
      match firstGreatest? exceeds elements with
      | none => some last
      | some best => if exceeds last best then some last else some best := by
  rw [firstGreatest?, List.foldl_append]
  rfl

theorem firstGreatest?_eq_none_iff : firstGreatest? exceeds elements = none ↔ elements = [] := by
  constructor
  · induction elements using List.reverseRecOn with
    | nil => exact fun _ => rfl
    | append_singleton elements last ih =>
      rw [firstGreatest?_concat]
      split
      · exact nofun
      · split <;> exact nofun
  · rintro rfl
    rfl

/-- A scan that lets only a greater element take the place of the best one so far finds the first of the greatest. -/
theorem firstGreatest_of_chosen (compares : ∀ x y, exceeds x y = true ↔ value y < value x)
    (chosen : firstGreatest? exceeds elements = some x) : FirstGreatest (fun _ => True) value elements x := by
  induction elements using List.reverseRecOn generalizing x with
  | nil => cases chosen
  | append_singleton elements last ih =>
    rw [firstGreatest?_concat] at chosen
    split at chosen
    · next none =>
      obtain rfl := Option.some.inj chosen
      obtain rfl := firstGreatest?_eq_none_iff.mp none
      exact ⟨trivial, [], [], rfl, by simp, by simp⟩
    · next best found =>
      have so_far := ih found
      split at chosen
      · next greater =>
        obtain rfl := Option.some.inj chosen
        exact ⟨trivial, elements, [], rfl,
          fun y inside _ => lt_of_le_of_lt (so_far.le inside trivial) ((compares _ _).mp greater), by simp⟩
      · next notGreater =>
        obtain rfl := Option.some.inj chosen
        obtain ⟨front, back, rfl, before, after⟩ := so_far.stands
        refine ⟨trivial, front, back ++ [last], by simp, before, fun y inside _ => ?_⟩
        rcases List.mem_append.mp inside with earlier | final
        · exact after y earlier trivial
        · obtain rfl := List.mem_singleton.mp final
          exact not_lt.mp fun greater => notGreater ((compares _ _).mpr greater)

end

/-! ## The label of the majority -/

section
variable {candidates : List Candidate} {label : String} {winner c : Candidate}

/-- The number of usable candidates that bear a label. -/
def support (candidates : List Candidate) (label : String) : Nat :=
  candidates.countP fun c => c.isUsable && c.approach == label

/-- The label that most usable candidates bear; of several such labels, the one whose first bearer comes first. -/
structure MajorityLabel (candidates : List Candidate) (label : String) : Prop where
  borne : ∃ c ∈ candidates, c.isUsable = true ∧ c.approach = label
  most : ∀ other, support candidates other ≤ support candidates label
  first : ∀ other, other ≠ label → support candidates other = support candidates label →
    ∃ front bearer back, candidates = front ++ bearer :: back ∧ bearer.isUsable = true ∧ bearer.approach = label ∧
      ∀ c ∈ front, c.isUsable = true → c.approach ≠ other

theorem bearers_filter (candidates : List Candidate) (label : String) :
    bearers (candidates.filter Candidate.isUsable) label = support candidates label := by
  rw [bearers, support, List.filter_filter, List.countP_eq_length_filter]
  simp only [Bool.and_comm]

theorem support_pos_iff : 0 < support candidates label ↔ ∃ c ∈ candidates, c.isUsable = true ∧ c.approach = label := by
  simp [support, List.countP_pos_iff]

/-- The label of the first usable candidate whose label has the most bearers. -/
theorem MajorityLabel.of_bearer {bearer : Candidate} (first : FirstGreatest (fun c => c.isUsable = true)
    (fun c => support candidates c.approach) candidates bearer) : MajorityLabel candidates bearer.approach := by
  refine ⟨⟨bearer, first.mem, first.fits, rfl⟩, fun other => ?_, fun other _ even => ?_⟩
  · by_cases borne : 0 < support candidates other
    · obtain ⟨c, inside, usable, rfl⟩ := support_pos_iff.mp borne
      exact first.le inside usable
    · omega
  · obtain ⟨front, back, cut, before, -⟩ := first.stands
    refine ⟨front, bearer, back, cut, first.fits, rfl, fun c inside usable same => ?_⟩
    have fewer := before c inside usable
    rw [same, even] at fewer
    exact lt_irrefl _ fewer

theorem MajorityLabel.unique {other : String} (one : MajorityLabel candidates label) (two : MajorityLabel candidates other) :
    label = other := by
  by_contra different
  have even : support candidates label = support candidates other := le_antisymm (two.most label) (one.most other)
  obtain ⟨front, b, back, cut, usable, bears, before⟩ := one.first other (Ne.symm different) even.symm
  obtain ⟨front', b', back', cut', usable', bears', before'⟩ := two.first label different even
  rcases cut_cases (cut.symm.trans cut') with rfl | earlier | earlier
  · exact different (bears.symm.trans bears')
  · exact before' b earlier usable bears
  · exact before b' earlier usable' bears'

theorem majorityLabel_of_majority? (chosen : majority? (candidates.filter Candidate.isUsable) = some label) :
    MajorityLabel candidates label := by
  have first : FirstGreatest (fun _ => True) (support candidates)
      ((candidates.filter Candidate.isUsable).map (·.approach)) label := by
    refine firstGreatest_of_chosen (fun x y => ?_) chosen
    rw [decide_eq_true_eq, bearers_filter, bearers_filter]
  obtain ⟨bearer, rfl, before⟩ := first.of_map
  exact .of_bearer before.of_filter

/-! ## The winner -/

/-- The candidate that a policy lets win: the first of the most confident ones among the usable candidates, or among
those that bear the label of the majority. -/
def Wins (policy : Policy) (candidates : List Candidate) (winner : Candidate) : Prop :=
  match policy with
  | .highestConfidence => FirstGreatest (fun c => c.isUsable = true) (·.confidence.toRat) candidates winner
  | .majorityApproach => MajorityLabel candidates winner.approach ∧
      FirstGreatest (fun c => c.isUsable = true ∧ c.approach = winner.approach) (·.confidence.toRat) candidates winner

theorem Wins.mem {policy : Policy} (wins : Wins policy candidates winner) :
    winner ∈ candidates ∧ winner.isUsable = true := by
  cases policy with
  | highestConfidence => exact ⟨FirstGreatest.mem wins, wins.fits⟩
  | majorityApproach => exact ⟨wins.2.mem, wins.2.fits.1⟩

theorem Wins.unique {policy : Policy} (wins : Wins policy candidates winner) (other : Wins policy candidates c) :
    winner = c := by
  cases policy with
  | highestConfidence => exact FirstGreatest.unique wins other
  | majorityApproach =>
    obtain ⟨label, first⟩ := wins
    obtain ⟨label', first'⟩ := other
    rw [label'.unique label] at first'
    exact first.unique first'

theorem mostConfident_filter {keep : Candidate → Bool} (chosen : mostConfident? (candidates.filter keep) = some winner) :
    FirstGreatest (fun c => keep c = true) (·.confidence.toRat) candidates winner :=
  (firstGreatest_of_chosen (fun _ _ => decide_eq_true_iff) chosen).of_filter

theorem wins_of_mostConfident? {policy : Policy}
    (chosen : mostConfident? (eligible policy (candidates.filter Candidate.isUsable)) = some winner) :
    Wins policy candidates winner := by
  cases policy with
  | highestConfidence => exact mostConfident_filter chosen
  | majorityApproach =>
    rw [eligible, List.filter_filter] at chosen
    have first := mostConfident_filter chosen
    have label : majority? (candidates.filter Candidate.isUsable) = some winner.approach := by
      have fits := first.fits
      simp only [Bool.and_eq_true, beq_iff_eq] at fits
      exact fits.1.symm
    refine ⟨majorityLabel_of_majority? label, first.congr fun c => ?_⟩
    simp only [label, Bool.and_eq_true, beq_iff_eq, Option.some.injEq]
    exact and_comm

/-- Nobody can win only where nobody is usable. -/
theorem eligible_eq_nil {policy : Policy} {usable : List Candidate} (none : eligible policy usable = []) : usable = [] := by
  cases policy with
  | highestConfidence => exact none
  | majorityApproach =>
    by_contra some
    cases chosen : majority? usable with
    | none => exact some (List.map_eq_nil_iff.mp (firstGreatest?_eq_none_iff.mp chosen))
    | some label =>
      have borne : label ∈ usable.map (·.approach) :=
        (firstGreatest_of_chosen (fun _ _ => decide_eq_true_iff) chosen).mem
      obtain ⟨c, inside, rfl⟩ := List.mem_map.mp borne
      have kept : c ∈ eligible .majorityApproach usable := List.mem_filter.mpr ⟨inside, by simp [chosen]⟩
      rw [none] at kept
      cases kept

end

/-! ## The outcome -/

section
variable {candidates : List Candidate} {policy : Policy}

theorem wins_of_selected {winner : Candidate} {agreement : Nat}
    (selected : select policy candidates = .selected winner agreement) :
    Wins policy candidates winner ∧ agreement = support candidates winner.approach := by
  unfold select at selected
  simp only at selected
  split at selected
  · next chosen =>
    obtain ⟨rfl, rfl⟩ := Consensus.selected.inj selected
    exact ⟨wins_of_mostConfident? chosen, bearers_filter candidates _⟩
  · cases selected

/-- Where nobody is usable, everybody is rejected, one after the other. -/
theorem map_rejection? (none : ∀ c ∈ candidates, c.isUsable = false) :
    (candidates.filterMap Candidate.rejection?).map some = candidates.map Candidate.rejection? := by
  induction candidates with
  | nil => rfl
  | cons c more ih =>
    obtain ⟨unusable, rest⟩ := List.forall_mem_cons.mp none
    have rejected : c.rejection?.isSome = true := by rw [c.rejection?_isSome, unusable]; rfl
    obtain ⟨reason, found⟩ := Option.isSome_iff_exists.mp rejected
    rw [List.filterMap_cons_some found, List.map_cons, List.map_cons, ih rest, found]

theorem rejections_of_failed {reasons : List String} (failed : select policy candidates = .failed reasons) :
    (∀ c ∈ candidates, c.isUsable = false) ∧ reasons.map some = candidates.map Candidate.rejection? := by
  unfold select at failed
  simp only at failed
  split at failed
  · cases failed
  · next chosen =>
    obtain rfl := Consensus.failed.inj failed
    have none : ∀ c ∈ candidates, c.isUsable = false := by
      have nobody := eligible_eq_nil (firstGreatest?_eq_none_iff.mp chosen)
      simpa [List.filter_eq_nil_iff] using nobody
    exact ⟨none, map_rejection? none⟩

/-- A list of candidates with unusable ones put in anywhere. -/
inductive Padded : List Candidate → List Candidate → Prop
  | nil : Padded [] []
  | keep {short long : List Candidate} (c : Candidate) (padded : Padded short long) : Padded (c :: short) (c :: long)
  | insert {short long : List Candidate} (c : Candidate) (unusable : c.isUsable = false) (padded : Padded short long) :
      Padded short (c :: long)

theorem Padded.filter {others : List Candidate} (padded : Padded candidates others) :
    others.filter Candidate.isUsable = candidates.filter Candidate.isUsable := by
  induction padded with
  | nil => rfl
  | keep c _ ih => rw [List.filter_cons, List.filter_cons, ih]
  | insert c unusable _ ih => rw [List.filter_cons_of_neg (by simp [unusable]), ih]

/-- A selection depends on the usable candidates only. -/
theorem selected_congr {others : List Candidate}
    (same : others.filter Candidate.isUsable = candidates.filter Candidate.isUsable) {winner : Candidate} {agreement : Nat}
    (selected : select policy candidates = .selected winner agreement) :
    select policy others = .selected winner agreement := by
  unfold select at selected ⊢
  simp only [same] at selected ⊢
  split at selected
  · exact selected
  · cases selected

/-- A selection is of the candidate that wins by the policy, together with the number of the usable candidates that bear its
label, and there is one exactly where some candidate is usable. Else there is one reason for each candidate, in order. The
winner is one of the candidates, agrees with itself at least, and neither it nor the agreement depends on unusable
candidates, wherever they stand. -/
theorem selected_iff_wins (policy : Policy) (candidates : List Candidate) :
    (∀ winner agreement, select policy candidates = .selected winner agreement ↔
      Wins policy candidates winner ∧ agreement = support candidates winner.approach) ∧
    ((∃ winner agreement, select policy candidates = .selected winner agreement) ↔
      ∃ c ∈ candidates, c.isUsable = true) ∧
    (∀ reasons, select policy candidates = .failed reasons ↔
      (∀ c ∈ candidates, c.isUsable = false) ∧ reasons.map some = candidates.map Candidate.rejection?) ∧
    (∀ winner, Wins policy candidates winner →
      winner ∈ candidates ∧ winner.isUsable = true ∧ 1 ≤ support candidates winner.approach) ∧
    ∀ others, Padded candidates others → ∀ winner agreement,
      select policy others = .selected winner agreement ↔ select policy candidates = .selected winner agreement := by
  have exists_iff : (∃ winner agreement, select policy candidates = .selected winner agreement) ↔
      ∃ c ∈ candidates, c.isUsable = true := by
    constructor
    · rintro ⟨winner, agreement, selected⟩
      exact ⟨winner, (wins_of_selected selected).1.mem⟩
    · rintro ⟨c, inside, usable⟩
      cases outcome : select policy candidates with
      | selected winner agreement => exact ⟨winner, agreement, rfl⟩
      | failed reasons =>
        have unusable := (rejections_of_failed outcome).1 c inside
        rw [usable] at unusable
        cases unusable
  refine ⟨fun winner agreement => ⟨wins_of_selected, ?_⟩, exists_iff, fun reasons => ⟨rejections_of_failed, ?_⟩,
    fun winner wins => ?_, fun others padded winner agreement => ?_⟩
  · rintro ⟨wins, rfl⟩
    obtain ⟨other, agreement, selected⟩ := exists_iff.mpr ⟨winner, wins.mem⟩
    obtain ⟨wins', rfl⟩ := wins_of_selected selected
    rw [selected, wins'.unique wins]
  · rintro ⟨none, told⟩
    cases outcome : select policy candidates with
    | selected winner agreement =>
      have wins := (wins_of_selected outcome).1.mem
      rw [none winner wins.1] at wins
      cases wins.2
    | failed others =>
      have told' := (rejections_of_failed outcome).2
      rw [(List.map_inj_right fun _ _ => Option.some.inj).mp (told'.trans told.symm)]
  · obtain ⟨inside, usable⟩ := wins.mem
    exact ⟨inside, usable, support_pos_iff.mpr ⟨winner, inside, usable, rfl⟩⟩
  · exact ⟨selected_congr padded.filter.symm, selected_congr padded.filter⟩

end

/-- A candidate with an empty line of code. -/
def coded (strategy : Strategy) (approach : String) (confidence : Number.Binary64) : Candidate :=
  { strategy, approach, extracted := some ⟨"", .fenced, confidence⟩, confidence, error := none }

/-- Two candidates that share a label outvote one that is more confident, and one that timed out does not count, although it
stands in front of them under their label. -/
theorem shared_label_outvotes_confidence :
    let lone := coded .conservative "rewrite loop" ⟨false, 7, -3⟩
    let weak := coded .creative "add guard" ⟨false, 5, -3⟩
    let strong := coded .specialized "add guard" ⟨false, 6, -3⟩
    let late : Candidate := ⟨.creative, "add guard", none, ⟨false, 0, -1074⟩, some (.timeout 30)⟩
    Padded [lone, weak, strong] [lone, late, weak, strong] ∧
      select .highestConfidence [lone, weak, strong] = .selected lone 1 ∧
      select .majorityApproach [lone, late, weak, strong] = .selected strong 2 := by
  intro lone weak strong late
  have padded : Padded [lone, weak, strong] [lone, late, weak, strong] :=
    .keep _ (.insert _ rfl (.keep _ (.keep _ .nil)))
  refine ⟨padded, by decide +kernel, ?_⟩
  rw [(selected_iff_wins .majorityApproach [lone, weak, strong]).2.2.2.2 _ padded]
  decide +kernel

end GatedRepair.Consensus
