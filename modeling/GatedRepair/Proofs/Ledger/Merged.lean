import GatedRepair.Proofs.Ledger.Merge

/-!
# All that a merge does

What a merge makes of a ledger with distinct identifiers is said once for each defect, with all that stays as it was
(`Merged`), and a merge is the only thing of which this can be said (`merge_eq_iff`). Whatever the ledger, every identifier
that is reported counts once (`merge_counts_reports`).
-/

namespace GatedRepair.Ledger

/-- A report tells something new about a defect. -/
def News (d report : Defect) : Prop :=
  d.message ≠ report.message ∨ d.severity ≠ report.severity ∨ d.column ≠ report.column

instance (d report : Defect) : Decidable (News d report) := inferInstanceAs (Decidable (_ ∨ _ ∨ _))

/-- What becomes of a ledger when a collection is folded into it. Of several reports about one identifier only the first
is heard. -/
structure Merged (before : Ledger) (incoming : List Defect) (scope : List DefectKind) (now : Timestamp) (after : Ledger)
    (counts : MergeCounts) : Prop where
  order : ids after = ids before ++ (ids incoming).eraseDups.filter (· ∉ ids before)
  distinct : (ids after).Nodup
  new : ∀ f, get? incoming f.id = some f → f.id ∉ ids before →
    get? after f.id = some { f with status := .unfixed, createdAt := now, updatedAt := now }
  told : ∀ d ∈ before, ∀ f, get? incoming d.id = some f → d.status ≠ .fixed →
    get? after d.id = some
      { d with message := f.message, severity := f.severity, column := f.column
               updatedAt := if News d f then now else d.updatedAt }
  reopened : ∀ d ∈ before, ∀ f, get? incoming d.id = some f → d.status = .fixed →
    get? after d.id = some
      { d with message := f.message, severity := f.severity, column := f.column
               status := .unfixed, resolution := none, regressions := min (d.regressions + 1) (Number.bound32 - 1), updatedAt := now }
  resolved : ∀ d ∈ before, d.id ∉ ids incoming → d.status = .unfixed → d.kind ∈ scope →
    get? after d.id = some { d with status := .fixed, resolution := some .inferred, updatedAt := now }
  kept : ∀ d ∈ before, d.id ∉ ids incoming → ¬ (d.status = .unfixed ∧ d.kind ∈ scope) → get? after d.id = some d
  added_count : counts.added = ((ids incoming).eraseDups.filter (· ∉ ids before)).length
  refreshed_count : counts.refreshed =
    (before.filter fun d => d.status ≠ .fixed ∧ (get? incoming d.id).any fun f => News d f).length
  reopened_count : counts.reopened = (before.filter fun d => d.status = .fixed ∧ d.id ∈ ids incoming).length
  resolved_count : counts.resolved =
    (before.filter fun d => d.id ∉ ids incoming ∧ d.status = .unfixed ∧ d.kind ∈ scope).length
  reports : counts.added + counts.refreshed + counts.reopened + counts.unchanged = (ids incoming).eraseDups.length

/-! ## Reports -/

theorem eraseDups_filter (keep : String → Bool) (names : List String) :
    (names.filter keep).eraseDups = names.eraseDups.filter keep := by
  match names with
  | [] => rfl
  | name :: more =>
    have fewer : (more.filter fun other => !other == name).length ≤ more.length := List.length_filter_le _ _
    have others := eraseDups_filter keep (more.filter fun other => !other == name)
    rw [List.eraseDups_cons]
    by_cases kept : keep name = true
    · rw [List.filter_cons_of_pos kept, List.filter_cons_of_pos kept, List.eraseDups_cons, ← others, List.filter_comm]
    · have absent : (more.filter keep).filter (fun other => !other == name) = more.filter keep := by
        refine List.filter_eq_self.mpr fun other inside => ?_
        have differs : other ≠ name := by
          rintro rfl
          exact kept (List.mem_filter.mp inside).2
        simpa using differs
      rw [List.filter_cons_of_neg kept, List.filter_cons_of_neg kept, ← others, List.filter_comm, absent]
termination_by names.length

/-- The first reports stand in the order in which their identifiers first occur. -/
theorem ids_firsts (incoming : List Defect) : ids (firsts incoming) = (ids incoming).eraseDups := by
  induction incoming with
  | nil => rfl
  | cons d more ih =>
    have others : ids ((firsts more).filter (·.id ≠ d.id)) = (ids (firsts more)).filter fun other => !other == d.id := by
      simp only [ids, List.filter_map]
      congr 2
      funext e
      simp [beq_eq_decide]
    calc ids (firsts (d :: more))
        = d.id :: ids ((firsts more).filter (·.id ≠ d.id)) := rfl
      _ = d.id :: ((ids more).eraseDups.filter fun other => !other == d.id) := by rw [others, ih]
      _ = d.id :: ((ids more).filter fun other => !other == d.id).eraseDups := by rw [eraseDups_filter]
      _ = (ids (d :: more)).eraseDups := List.eraseDups_cons.symm

theorem ids_unknown (ledger : Ledger) (incoming : List Defect) :
    ids (unknown ledger (firsts incoming)) = (ids incoming).eraseDups.filter (· ∉ ids ledger) := by
  rw [← ids_firsts]
  simp only [ids, unknown, List.filter_map]
  congr 2
  funext f
  rw [Bool.eq_iff_iff]
  simp

theorem ids_merge (ledger : Ledger) (incoming : List Defect) (scope : List DefectKind) (now : Timestamp) :
    ids (ledger.merge incoming scope now).1 = ids ledger ++ (ids incoming).eraseDups.filter (· ∉ ids ledger) := by
  rw [ids_merge_append, ids_unknown]

section
variable (incoming : List Defect) (scope : List DefectKind) (now : Timestamp)

theorem ids_merge_known {ledger : Ledger} (known : ∀ id ∈ ids incoming, id ∈ ids ledger) :
    ids (ledger.merge incoming scope now).1 = ids ledger := by
  have nothing : unknown ledger (firsts incoming) = [] := by
    refine List.eq_nil_iff_forall_not_mem.mpr fun f new => ?_
    obtain ⟨member, absent⟩ := mem_unknown.mp new
    exact absent (known f.id (List.mem_map_of_mem (mem_of_mem_firsts member)))
  rw [ids_merge_append, nothing]
  exact List.append_nil _

theorem ids_merge_congr (ledger : Ledger) {incoming' : List Defect}
    (same : (ids incoming).eraseDups = (ids incoming').eraseDups) (scope' : List DefectKind) (later : Timestamp) :
    ids (ledger.merge incoming scope now).1 = ids (ledger.merge incoming' scope' later).1 := by
  rw [ids_merge, ids_merge, same]

end

/-! ## Every reported identifier counts once -/

/-- A known defect was found in the reports. -/
def Effect.isReport : Effect → Bool
  | .unchanged | .refreshed | .reopened => true
  | .untouched | .resolved => false

theorem miss_unreported (scope : List DefectKind) (now : Timestamp) (d : Defect) :
    (miss scope now d).2.isReport = false := by
  unfold miss; split <;> rfl

theorem receive_reported (now : Timestamp) (d f : Defect) : (receive now d f).2.isReport = true := by
  unfold receive
  split
  · rfl
  · simp only
    split <;> rfl

/-- Where no identifier stands twice, leaving one out makes the list shorter by one. -/
theorem length_filter_id {fresh : List Defect} (distinct : (ids fresh).Nodup) {f : Defect} (member : f ∈ fresh) :
    (fresh.filter (·.id ≠ f.id)).length + 1 = fresh.length := by
  have erased : (ids fresh).erase f.id = ids (fresh.filter (·.id ≠ f.id)) := by
    rw [distinct.erase_eq_filter]
    simp only [ids, List.filter_map]
    congr 2
    funext e
    simp [bne, beq_eq_decide]
  have named : f.id ∈ ids fresh := List.mem_map_of_mem member
  have shorter := List.length_erase_of_mem named
  rw [erased] at shorter
  simp only [ids, List.length_map] at shorter
  have positive := List.length_pos_of_mem member
  omega

theorem unknown_cons (d : Defect) (more : Ledger) (fresh : List Defect) :
    unknown (d :: more) fresh = (unknown more fresh).filter (·.id ≠ d.id) := by
  unfold unknown
  rw [List.filter_filter]
  congr 1
  funext f
  simp [beq_eq_decide, eq_comm]

/-- Each report is about a known defect or opens a new one. -/
theorem reports_split {fresh : List Defect} (distinct : (ids fresh).Nodup) (scope : List DefectKind) (now : Timestamp)
    (ledger : Ledger) :
    (unknown ledger fresh).length + ((reconcile fresh scope now ledger).filter (·.2.isReport)).length = fresh.length := by
  induction ledger with
  | nil => simp [unknown, reconcile]
  | cons d more ih =>
    have apart : (ids (unknown more fresh)).Nodup := distinct.sublist (List.filter_sublist.map _)
    rw [unknown_cons, reconcile]
    split
    · next silent =>
      -- Nobody tells of the defect.
      rw [List.filter_cons_of_neg (by simp [miss_unreported]), List.filter_eq_self.mpr, ih]
      intro f unknown
      have other := List.find?_eq_none.mp silent f (mem_unknown.mp unknown).1
      simpa using other
    · next f found =>
      have same : f.id = d.id := by simpa using List.find?_some found
      split
      · next again =>
        -- The report is about a later defect with the same identifier.
        rw [List.filter_cons_of_neg (by simp [Effect.isReport]), List.filter_eq_self.mpr, ih]
        intro g unknown
        have fresh := (mem_unknown.mp unknown).2
        obtain ⟨e, later, known⟩ := List.any_eq_true.mp again
        have other : g.id ≠ d.id := by
          rintro this
          exact fresh (List.mem_map.mpr ⟨e, later, by simpa [this] using known⟩)
        simpa using other
      · next last =>
        have here : f ∈ unknown more fresh := by
          refine mem_unknown.mpr ⟨List.mem_of_find?_eq_some found, fun known => last ?_⟩
          obtain ⟨e, later, id⟩ := List.mem_map.mp known
          exact List.any_eq_true.mpr ⟨e, later, by simp [id, same]⟩
        have one := length_filter_id apart here
        have counted : (receive now d f).2.isReport = true := receive_reported now d f
        rw [List.filter_cons, if_pos counted, ← same, List.length_cons]
        omega

theorem count_reports (known : List (Defect × Effect)) :
    (known.filter (·.2.isReport)).length = (known.filter (·.2 == .refreshed)).length +
      (known.filter (·.2 == .reopened)).length + (known.filter (·.2 == .unchanged)).length := by
  induction known with
  | nil => rfl
  | cons first more ih =>
    obtain ⟨d, effect⟩ := first
    have step : ∀ keep : Defect × Effect → Bool,
        (((d, effect) :: more).filter keep).length = (more.filter keep).length + if keep (d, effect) then 1 else 0 := by
      intro keep
      rw [List.filter_cons]
      split <;> rfl
    rw [step, step, step, step, ih]
    cases effect <;> simp only [Effect.isReport] <;> simp <;> omega

/-- Whatever the ledger, the reported identifiers are counted once each. -/
theorem merge_counts_reports (ledger : Ledger) (incoming : List Defect) (scope : List DefectKind) (now : Timestamp) :
    (ledger.merge incoming scope now).2.added + (ledger.merge incoming scope now).2.refreshed +
      (ledger.merge incoming scope now).2.reopened + (ledger.merge incoming scope now).2.unchanged =
      (ids incoming).eraseDups.length := by
  have split := reports_split (nodup_firsts incoming) scope now ledger
  rw [count_reports] at split
  rw [← ids_firsts, ids, List.length_map, ← split]
  simp only [merge, List.length_map]
  omega

/-! ## Each known defect -/

theorem differs_iff (d f : Defect) : differs d f = true ↔ News d f := by
  simp [differs, News, or_assoc]

theorem refresh_eq (now : Timestamp) (d f : Defect) : refresh now d f =
    { d with message := f.message, severity := f.severity, column := f.column
             updatedAt := if News d f then now else d.updatedAt } := by
  unfold refresh
  by_cases news : News d f
  · rw [if_pos ((differs_iff d f).mpr news), if_pos news]
  · rw [if_neg fun differs => news ((differs_iff d f).mp differs), if_neg news]
    simp only [News, not_or, not_not] at news
    obtain ⟨message, severity, column⟩ := news
    rw [← message, ← severity, ← column]

section
variable {incoming : List Defect} (scope : List DefectKind) (now : Timestamp) {d f : Defect}

theorem settled_told (found : get? incoming d.id = some f) : settled incoming scope now d = receive now d f := by
  unfold settled
  rw [show incoming.find? (·.id == d.id) = some f from found]

theorem settled_silent (silent : d.id ∉ ids incoming) : settled incoming scope now d = miss scope now d := by
  unfold settled
  rw [show incoming.find? (·.id == d.id) = none from get?_eq_none_iff.mpr silent]

theorem receive_unfixed (unfixed : d.status ≠ .fixed) :
    receive now d f = (refresh now d f, if News d f then .refreshed else .unchanged) := by
  unfold receive
  split
  · next fixed => exact absurd fixed unfixed
  · simp only [differs_iff]

theorem receive_fixed (fixed : d.status = .fixed) : receive now d f =
    ({ refresh now d f with
        status := .unfixed, resolution := none, updatedAt := now, regressions := min (d.regressions + 1) (Number.bound32 - 1) },
      .reopened) := by
  unfold receive
  rw [fixed]
  rfl

theorem miss_eq : miss scope now d =
    if d.status = .unfixed ∧ d.kind ∈ scope then
      ({ d with status := .fixed, resolution := some .inferred, updatedAt := now }, .resolved)
    else (d, .untouched) := by
  simp [miss, Defect.isOpen]

/-- What a merge counts for a known defect. -/
theorem settled_effect : (settled incoming scope now d).2 =
    match get? incoming d.id with
    | some f => if d.status = .fixed then .reopened else if News d f then .refreshed else .unchanged
    | none => if d.status = .unfixed ∧ d.kind ∈ scope then .resolved else .untouched := by
  split
  · next f found =>
    rw [settled_told scope now found]
    by_cases fixed : d.status = .fixed
    · rw [receive_fixed now fixed, if_pos fixed]
    · rw [receive_unfixed now fixed, if_neg fixed]
  · next silent =>
    rw [settled_silent scope now (get?_eq_none_iff.mp silent), miss_eq]
    split <;> rfl

theorem mem_ids_of_get? (found : get? incoming d.id = some f) : d.id ∈ ids incoming :=
  mem_ids_iff.mpr (by simp [found])

end

/-! ## The whole ledger -/

section
variable {ledger : Ledger} (incoming : List Defect) (scope : List DefectKind) (now : Timestamp)

theorem count_effect (distinct : (ids ledger).Nodup) (effect : Effect) :
    ((reconcile (firsts incoming) scope now ledger).filter (·.2 == effect)).length =
      (ledger.filter fun d => (settled incoming scope now d).2 == effect).length := by
  rw [reconcile_eq_map _ _ _ distinct, List.filter_map, List.length_map]
  congr 2
  funext d
  simp [settled_firsts]

theorem merged_merge (distinct : (ids ledger).Nodup) :
    Merged ledger incoming scope now (ledger.merge incoming scope now).1 (ledger.merge incoming scope now).2 := by
  have known : ∀ d ∈ ledger, get? (ledger.merge incoming scope now).1 d.id = some (settled incoming scope now d).1 := by
    intro d member
    rw [get?_merge incoming scope now distinct, get?_of_mem distinct member]
  refine ⟨ids_merge ledger incoming scope now, nodup_merge incoming scope now distinct, ?new, ?told, ?reopened, ?resolved,
    ?kept, ?added, ?refreshedCount, ?reopenedCount, ?resolvedCount, merge_counts_reports ledger incoming scope now⟩
  case new =>
    intro f found unknown
    rw [get?_merge incoming scope now distinct, get?_eq_none_iff.mpr unknown]
    simp only [show incoming.find? (·.id == f.id) = some f from found]
    rfl
  case told =>
    intro d member f found unfixed
    rw [known d member, settled_told scope now found, receive_unfixed now unfixed, refresh_eq]
  case reopened =>
    intro d member f found fixed
    rw [known d member, settled_told scope now found, receive_fixed now fixed, refresh_eq]
  case resolved =>
    intro d member silent isOpen inScope
    rw [known d member, settled_silent scope now silent, miss_eq, if_pos ⟨isOpen, inScope⟩]
  case kept =>
    intro d member silent closed
    rw [known d member, settled_silent scope now silent, miss_eq, if_neg closed]
  case added => rw [← ids_unknown, ids, merge, List.length_map, List.length_map]
  all_goals
    simp only [merge, count_effect incoming scope now distinct]
    refine congrArg List.length (List.filter_congr fun d _ => ?_)
    rw [settled_effect]
    have silent : d.id ∉ ids incoming ↔ get? incoming d.id = none := get?_eq_none_iff.symm
    cases found : get? incoming d.id with
    | none =>
      have absent : d.id ∉ ids incoming := silent.mpr found
      by_cases closed : d.status = .unfixed ∧ d.kind ∈ scope <;> simp [closed, absent]
    | some f =>
      have there : d.id ∈ ids incoming := mem_ids_of_get? found
      by_cases fixed : d.status = .fixed <;> by_cases news : News d f <;> simp [fixed, news, there]

/-- Ledgers with the same distinct identifiers are the same if the same is found in them. -/
theorem eq_of_get?_eq {one other : Ledger} (distinct : (ids one).Nodup) (same : ids one = ids other)
    (found : ∀ id ∈ ids one, get? one id = get? other id) : one = other := by
  have each : ∀ d ∈ one, ∀ e ∈ other, d.id = e.id → d = e := by
    intro d member e member' id
    have both := found d.id (List.mem_map_of_mem member)
    rw [get?_of_mem distinct member, id, get?_of_mem (same ▸ distinct) member'] at both
    exact Option.some.inj both
  clear found distinct
  induction one generalizing other with
  | nil => simpa [ids] using same.symm
  | cons d more ih =>
    cases other with
    | nil => simp [ids] at same
    | cons e rest =>
      obtain ⟨id, same⟩ := List.cons.inj same
      rw [each d List.mem_cons_self e List.mem_cons_self id,
        ih same fun d member e member' => each d (List.mem_cons_of_mem _ member) e (List.mem_cons_of_mem _ member')]

variable {incoming scope now}

/-- Only one ledger and one row of counts can come of a merge. -/
theorem Merged.unique {before one other : Ledger} {counts counts' : MergeCounts} (left : Merged before incoming scope now one counts)
    (right : Merged before incoming scope now other counts') : one = other ∧ counts = counts' := by
  refine ⟨eq_of_get?_eq left.distinct (left.order.trans right.order.symm) ?_, ?_⟩
  · intro id found
    rw [left.order] at found
    rcases List.mem_append.mp found with known | new
    · obtain ⟨d, member, rfl⟩ := List.mem_map.mp known
      cases found : get? incoming d.id with
      | some f =>
        by_cases fixed : d.status = .fixed
        · rw [left.reopened d member f found fixed, right.reopened d member f found fixed]
        · rw [left.told d member f found fixed, right.told d member f found fixed]
      | none =>
        have silent := get?_eq_none_iff.mp found
        by_cases missed : d.status = .unfixed ∧ d.kind ∈ scope
        · rw [left.resolved d member silent missed.1 missed.2, right.resolved d member silent missed.1 missed.2]
        · rw [left.kept d member silent missed, right.kept d member silent missed]
    · obtain ⟨reported, unknown⟩ := List.mem_filter.mp new
      obtain ⟨f, found⟩ := Option.isSome_iff_exists.mp (mem_ids_iff.mp (List.mem_eraseDups.mp reported))
      obtain ⟨-, rfl⟩ := get?_eq_some found
      have unknown : f.id ∉ ids before := by simpa using unknown
      rw [left.new f found unknown, right.new f found unknown]
  · obtain ⟨added, refreshed, reopened, resolved, unchanged⟩ := counts
    obtain ⟨added', refreshed', reopened', resolved', unchanged'⟩ := counts'
    have first := left.added_count.trans right.added_count.symm
    have second := left.refreshed_count.trans right.refreshed_count.symm
    have third := left.reopened_count.trans right.reopened_count.symm
    have fourth := left.resolved_count.trans right.resolved_count.symm
    have all := left.reports.trans right.reports.symm
    simp only at first second third fourth all
    have fifth : unchanged = unchanged' := by omega
    rw [first, second, third, fourth, fifth]

variable (incoming scope now)

/-- A merge into a ledger with distinct identifiers does what `Merged` says, and nothing else could be said to. -/
theorem merge_eq_iff (distinct : (ids ledger).Nodup) (after : Ledger) (counts : MergeCounts) :
    ledger.merge incoming scope now = (after, counts) ↔ Merged ledger incoming scope now after counts := by
  constructor
  · intro made
    have merged := merged_merge incoming scope now distinct
    rw [made] at merged
    exact merged
  · intro merged
    obtain ⟨ledgers, counts⟩ := (merged_merge incoming scope now distinct).unique merged
    exact Prod.ext ledgers counts

end

/-- One defect of each fate: a fixed one is reported again, a blocked one with another message, an open one as it is known,
another open one is missed, one whose tool did not run is left alone, and a new one is reported twice. -/
theorem one_defect_of_each_fate :
    let known := fun name => Defect.new .typeCheck .high (some name) (some 1) "old" .epoch
    let other := Defect.new .staticAnalysis .low (some "e.py") (some 1) "old" .epoch
    let ledger := [{ known "a.ts" with status := .fixed, resolution := some .verified },
      { known "b.ts" with status := .blocked }, known "c.ts", known "d.ts", other]
    let incoming := [known "f.ts", { known "b.ts" with message := "new" }, known "a.ts", known "c.ts",
      { known "f.ts" with message := "late" }]
    ∃ after, merge ledger incoming [.typeCheck] .epoch = (after, ⟨1, 1, 1, 1, 1⟩) ∧
      after.map (·.status) = [.unfixed, .blocked, .unfixed, .fixed, .unfixed, .unfixed] ∧
      (ids ledger).Nodup ∧ Merged ledger incoming [.typeCheck] .epoch after ⟨1, 1, 1, 1, 1⟩ := by
  intro known other ledger incoming
  have distinct : (ids ledger).Nodup := by decide +kernel
  have made : merge ledger incoming [.typeCheck] .epoch =
      ((merge ledger incoming [.typeCheck] .epoch).1, ⟨1, 1, 1, 1, 1⟩) := by decide +kernel
  exact ⟨_, made, by decide +kernel, distinct, (merge_eq_iff incoming [.typeCheck] .epoch distinct _ _).mp made⟩

/-!
## The same reports again

A defect that was received or missed has nothing more to expect from the same reports, and neither has one that they
opened. So folding them in a second time changes nothing in any ledger, and only counts them (`merge_merge`).
-/

/-- What a merge counts for a known defect when the same reports come again. -/
def Effect.again (effect : Effect) : Effect := if effect.isReport then .unchanged else .untouched

/-! ### One defect -/

section
variable (scope : List DefectKind) (now later : Timestamp) (d f : Defect)

theorem miss_again : miss scope later (miss scope now d).1 = ((miss scope now d).1, .untouched) := by
  rw [miss_eq scope now]
  split
  · rw [miss_eq, if_neg fun missed => nomatch missed.1]
  · next closed => rw [miss_eq, if_neg closed]

theorem not_news_receive : ¬ News (receive now d f).1 f := by
  by_cases fixed : d.status = .fixed
  · rw [receive_fixed now fixed, refresh_eq]
    simp [News]
  · rw [receive_unfixed now fixed, refresh_eq]
    simp [News]

theorem receive_not_fixed : (receive now d f).1.status ≠ .fixed := by
  rw [receive_status]
  split <;> decide

variable {d f} in
theorem receive_same (unfixed : d.status ≠ .fixed) (same : ¬ News d f) : receive now d f = (d, .unchanged) := by
  have unmoved : refresh now d f = d := by
    unfold refresh
    rw [if_neg fun differs => same ((differs_iff d f).mp differs)]
  rw [receive_unfixed now unfixed, unmoved, if_neg same]

theorem receive_again : receive later (receive now d f).1 f = ((receive now d f).1, .unchanged) :=
  receive_same later (receive_not_fixed now d f) (not_news_receive now d f)

end

/-! ### The whole ledger -/

section
variable (fresh : List Defect) (scope : List DefectKind) (now later : Timestamp)

/-- The known defects rest, whatever new ones stand behind them. -/
theorem reconcile_again {ledger new : Ledger} (apart : ∀ d ∈ ledger, d.id ∉ ids new) :
    reconcile fresh scope later ((reconcile fresh scope now ledger).map Prod.fst ++ new) =
      (reconcile fresh scope now ledger).map (fun known => (known.1, known.2.again)) ++ reconcile fresh scope later new := by
  induction ledger with
  | nil => rfl
  | cons d more ih =>
    have rest := ih fun e member => apart e (List.mem_cons_of_mem _ member)
    have behind : ((reconcile fresh scope now more).map Prod.fst ++ new).any (·.id == d.id) = more.any (·.id == d.id) := by
      have new : d.id ∉ ids new := apart d List.mem_cons_self
      rw [List.any_append, any_id, any_id, any_id, ids_reconcile]
      simp [new]
    rw [reconcile]
    simp only [List.map_cons, List.cons_append]
    rw [reconcile, rest]
    congr 1
    cases found : fresh.find? (·.id == d.id) with
    | none =>
      have unreported := miss_unreported scope now d
      simp only [miss_id, found, miss_again, Effect.again, unreported, Bool.false_eq_true, if_false]
    | some f =>
      simp only
      by_cases again : more.any (·.id == d.id) = true
      · simp only [again, if_true, found, behind, Effect.again, Effect.isReport, Bool.false_eq_true, if_false]
      · have reported := receive_reported now d f
        simp only [again, receive_id, found, behind, receive_again, Effect.again, reported, Bool.false_eq_true, if_false,
          if_true]

/-- Defects that the reports opened rest, too. -/
theorem reconcile_opened {reports : List Defect} (distinct : (ids reports).Nodup)
    (known : ∀ f ∈ reports, fresh.find? (·.id == f.id) = some f) :
    reconcile fresh scope later (reports.map (opened now)) = (reports.map (opened now)).map fun d => (d, .unchanged) := by
  induction reports with
  | nil => rfl
  | cons f more ih =>
    obtain ⟨first, distinct⟩ := List.nodup_cons.mp distinct
    have alone : (more.map (opened now)).any (·.id == f.id) = false := by
      have same : ids (more.map (opened now)) = ids more := by simp [ids, Function.comp_def, opened]
      rw [any_id, same]
      simpa [ids] using first
    have id : (opened now f).id = f.id := rfl
    have same : ¬ News (opened now f) f := by simp [News, opened]
    have rests : receive later (opened now f) f = (opened now f, .unchanged) :=
      receive_same later (by simp [opened]) same
    rw [List.map_cons, reconcile, List.map_cons, ih distinct fun g member => known g (List.mem_cons_of_mem _ member)]
    congr 1
    simp only [id, known f List.mem_cons_self, alone, rests, Bool.false_eq_true, if_false]

end

theorem find?_of_mem_firsts {incoming : List Defect} {f : Defect} (member : f ∈ firsts incoming) :
    (firsts incoming).find? (·.id == f.id) = some f := get?_of_mem (nodup_firsts incoming) member

section
variable (ledger : Ledger) (incoming : List Defect) (scope : List DefectKind) (now later : Timestamp)

/-- What a merge knows of a ledger into which the same reports were folded before. -/
theorem reconcile_merge : reconcile (firsts incoming) scope later (ledger.merge incoming scope now).1 =
    (reconcile (firsts incoming) scope now ledger).map (fun known => (known.1, known.2.again)) ++
      ((unknown ledger (firsts incoming)).map (opened now)).map fun d => (d, .unchanged) := by
  have same : ids ((unknown ledger (firsts incoming)).map (opened now)) = ids (unknown ledger (firsts incoming)) := by
    simp [ids, Function.comp_def, opened]
  have apart : ∀ d ∈ ledger, d.id ∉ ids ((unknown ledger (firsts incoming)).map (opened now)) := by
    rw [same]
    intro d member new
    obtain ⟨f, unknown, id⟩ := List.mem_map.mp new
    exact (mem_unknown.mp unknown).2 (List.mem_map.mpr ⟨d, member, id.symm⟩)
  have distinct : (ids (unknown ledger (firsts incoming))).Nodup :=
    (nodup_firsts incoming).sublist (List.filter_sublist.map _)
  simp only [merge]
  rw [reconcile_again _ _ _ _ apart, reconcile_opened _ _ _ _ distinct fun f unknown =>
    find?_of_mem_firsts (mem_unknown.mp unknown).1]

theorem unknown_merge : unknown (ledger.merge incoming scope now).1 (firsts incoming) = [] := by
  rw [unknown, List.filter_eq_nil_iff]
  intro f member
  have there : f.id ∈ ids (ledger.merge incoming scope now).1 :=
    (mem_ids_merge incoming scope now ledger f.id).mpr (.inr (List.mem_map_of_mem (mem_of_mem_firsts member)))
  rw [any_id]
  simpa using there

/-- Folding the same reports in again, at any time, changes nothing in any ledger, and counts each reported identifier as
one that was known. -/
theorem merge_merge : merge (ledger.merge incoming scope now).1 incoming scope later =
    ((ledger.merge incoming scope now).1, ⟨0, 0, 0, 0, (ids incoming).eraseDups.length⟩) := by
  have again := reconcile_merge ledger incoming scope now later
  have none := unknown_merge ledger incoming scope now
  have counted := merge_counts_reports (ledger.merge incoming scope now).1 incoming scope later
  have quiet : ∀ effect, effect ≠ .untouched → effect ≠ .unchanged →
      ((reconcile (firsts incoming) scope later (ledger.merge incoming scope now).1).filter (·.2 == effect)).length = 0 := by
    intro effect touched changed
    rw [again, List.length_eq_zero_iff, List.filter_eq_nil_iff]
    intro known member
    rcases List.mem_append.mp member with old | new
    · obtain ⟨before, -, rfl⟩ := List.mem_map.mp old
      unfold Effect.again
      split
      · simpa using changed.symm
      · simpa using touched.symm
    · obtain ⟨d, -, rfl⟩ := List.mem_map.mp new
      simpa using changed.symm
  have refreshed := quiet .refreshed (by decide) (by decide)
  have reopened := quiet .reopened (by decide) (by decide)
  have resolved := quiet .resolved (by decide) (by decide)
  have unmoved : (merge (ledger.merge incoming scope now).1 incoming scope later).1 = (ledger.merge incoming scope now).1 := by
    conv_lhs => rw [merge]
    simp only [none, again, List.map_append, List.map_map, List.map_nil, List.append_nil]
    rfl
  refine Prod.ext unmoved ?_
  conv_lhs => rw [merge]
  rw [merge] at counted
  simp only [none, refreshed, reopened, resolved, List.map_nil, List.length_nil, Nat.zero_add] at counted ⊢
  rw [counted]

end

end GatedRepair.Ledger
