import GatedRepair.Proofs.Ledger.Merged

/-!
# Kinds of tools, one at a time

What one kind of tool reports, and what its silence proves, does not concern the defects of another kind (`Apart`). So it is
the same to fold the collections of two kinds in together or one after the other, and the other way round only the new
defects change places (`merge_apart`).
-/

namespace GatedRepair.Ledger

/-- Counts taken together. -/
def MergeCounts.add (one other : MergeCounts) : MergeCounts where
  added := one.added + other.added
  refreshed := one.refreshed + other.refreshed
  reopened := one.reopened + other.reopened
  resolved := one.resolved + other.resolved
  unchanged := one.unchanged + other.unchanged

/-- Reports and a scope do not concern a defect. -/
def Ignores (incoming : List Defect) (scope : List DefectKind) (d : Defect) : Prop :=
  d.id ∉ ids incoming ∧ d.kind ∉ scope

/-- Two collections with their scopes stay apart in a ledger: none of them concerns what the other one reports, and every
known defect is of concern to one of them at most. -/
structure Apart (ledger : Ledger) (incoming : List Defect) (scope : List DefectKind) (incoming' : List Defect)
    (scope' : List DefectKind) : Prop where
  first : ∀ f ∈ incoming, Ignores incoming' scope' f
  second : ∀ f ∈ incoming', Ignores incoming scope f
  known : ∀ d ∈ ledger, Ignores incoming scope d ∨ Ignores incoming' scope' d

theorem Apart.swap {ledger : Ledger} {incoming incoming' : List Defect} {scope scope' : List DefectKind}
    (apart : Apart ledger incoming scope incoming' scope') : Apart ledger incoming' scope' incoming scope :=
  ⟨apart.second, apart.first, fun d member => (apart.known d member).symm⟩

/-! ## One defect -/

section
variable {incoming incoming' : List Defect} {scope scope' : List DefectKind} (now : Timestamp) {d : Defect}

theorem Ignores.settled (ignores : Ignores incoming scope d) : settled incoming scope now d = (d, .untouched) := by
  rw [settled_silent scope now ignores.1, miss_eq, if_neg fun missed => ignores.2 missed.2]

theorem settled_congr (same : get? incoming d.id = get? incoming' d.id) (kinds : d.kind ∈ scope ↔ d.kind ∈ scope') :
    settled incoming scope now d = settled incoming' scope' now d := by
  cases found : get? incoming' d.id with
  | some f => rw [settled_told scope now (same.trans found), settled_told scope' now found]
  | none =>
    rw [settled_silent scope now (get?_eq_none_iff.mp (same.trans found)),
      settled_silent scope' now (get?_eq_none_iff.mp found), miss_eq, miss_eq]
    simp only [kinds]

theorem get?_append (incoming incoming' : List Defect) (id : String) :
    get? (incoming ++ incoming') id = (get? incoming id).or (get? incoming' id) := List.find?_append

/-- What becomes of a defect that one collection at most concerns: the other one may come before or after, or along with it. -/
theorem settled_apart (alone : Ignores incoming scope d ∨ Ignores incoming' scope' d) {both : List DefectKind}
    (union : ∀ k, k ∈ both ↔ k ∈ scope ∨ k ∈ scope') :
    Ledger.settled incoming' scope' now (Ledger.settled incoming scope now d).1 =
        ((Ledger.settled (incoming ++ incoming') both now d).1, (Ledger.settled incoming' scope' now d).2) ∧
      ((Ledger.settled (incoming ++ incoming') both now d).2 = (Ledger.settled incoming scope now d).2 ∧
          (Ledger.settled incoming' scope' now d).2 = .untouched ∨
        (Ledger.settled (incoming ++ incoming') both now d).2 = (Ledger.settled incoming' scope' now d).2 ∧
          (Ledger.settled incoming scope now d).2 = .untouched) := by
  rcases alone with ignores | ignores
  · have silent : get? incoming d.id = none := get?_eq_none_iff.mpr ignores.1
    have together : Ledger.settled (incoming ++ incoming') both now d = Ledger.settled incoming' scope' now d :=
      settled_congr now (by rw [get?_append, silent, Option.none_or]) (by simp [union, ignores.2])
    rw [together, ignores.settled now]
    exact ⟨rfl, .inr ⟨rfl, rfl⟩⟩
  · have silent : get? incoming' d.id = none := get?_eq_none_iff.mpr ignores.1
    have together : Ledger.settled (incoming ++ incoming') both now d = Ledger.settled incoming scope now d :=
      settled_congr now (by rw [get?_append, silent, Option.or_none]) (by simp [union, ignores.2])
    have still : Ignores incoming' scope' (Ledger.settled incoming scope now d).1 := by
      obtain ⟨id, kind, -⟩ := settled_identity incoming scope now d
      exact ⟨id.symm ▸ ignores.1, kind.symm ▸ ignores.2⟩
    rw [together, still.settled now, ignores.settled now]
    exact ⟨rfl, .inl ⟨rfl, rfl⟩⟩

end

/-! ## New defects -/

/-- The defects that a merge adds. -/
def newcomers (ledger : Ledger) (incoming : List Defect) (now : Timestamp) : Ledger :=
  (unknown ledger (firsts incoming)).map (opened now)

section
variable {ledger : Ledger} {incoming incoming' : List Defect} {scope scope' : List DefectKind} (now : Timestamp)

theorem ignores_newcomers (foreign : ∀ f ∈ incoming, Ignores incoming' scope' f) {d : Defect}
    (new : d ∈ newcomers ledger incoming now) : Ignores incoming' scope' d := by
  obtain ⟨f, unknown, rfl⟩ := List.mem_map.mp new
  exact foreign f (mem_of_mem_firsts (mem_unknown.mp unknown).1)

/-- Reports about different identifiers are folded apart. -/
theorem firsts_append (disjoint : ∀ f ∈ incoming', f.id ∉ ids incoming) :
    firsts (incoming ++ incoming') = firsts incoming ++ firsts incoming' := by
  induction incoming with
  | nil => rfl
  | cons d more ih =>
    have others : ∀ f ∈ incoming', f.id ∉ ids more := fun f member later =>
      disjoint f member (List.mem_cons_of_mem _ later)
    have kept : (firsts incoming').filter (·.id ≠ d.id) = firsts incoming' := by
      refine List.filter_eq_self.mpr fun f member => ?_
      have other : f.id ≠ d.id := fun same =>
        disjoint f (mem_of_mem_firsts member) (List.mem_cons.mpr (.inl same))
      simpa using other
    rw [List.cons_append, firsts, ih others, List.filter_append, kept, firsts, List.cons_append]

theorem newcomers_append (disjoint : ∀ f ∈ incoming', f.id ∉ ids incoming) :
    newcomers ledger (incoming ++ incoming') now = newcomers ledger incoming now ++ newcomers ledger incoming' now := by
  rw [newcomers, firsts_append disjoint, unknown, List.filter_append, List.map_append]
  rfl

theorem newcomers_merge (disjoint : ∀ f ∈ incoming', f.id ∉ ids incoming) :
    newcomers (ledger.merge incoming scope now).1 incoming' now = newcomers ledger incoming' now := by
  unfold newcomers unknown
  refine congrArg (List.map (opened now)) (List.filter_congr fun f member => ?_)
  have unreported := disjoint f (mem_of_mem_firsts member)
  rw [Bool.eq_iff_iff]
  simpa [ids, unreported] using not_congr ((mem_ids_merge incoming scope now ledger f.id).trans (or_iff_left unreported))

end

/-! ## The whole ledger -/

/-- Where each member that passes a test passes exactly one of two others, their counts add up. -/
theorem length_filter_add {α : Type} {test one other : α → Bool} {l : List α}
    (split : ∀ a ∈ l, test a = one a ∧ other a = false ∨ test a = other a ∧ one a = false) :
    (l.filter test).length = (l.filter one).length + (l.filter other).length := by
  induction l with
  | nil => rfl
  | cons a more ih =>
    have rest := ih fun b member => split b (List.mem_cons_of_mem _ member)
    rcases split a List.mem_cons_self with ⟨same, not⟩ | ⟨same, not⟩ <;>
      simp only [List.filter_cons, same, not, Bool.false_eq_true, if_false] <;> split <;>
        simp only [List.length_cons, rest] <;> omega

section
variable {ledger : Ledger} {incoming incoming' : List Defect} {scope scope' both : List DefectKind} (now : Timestamp)

/-- Two merges that stay apart settle the known defects as one would, and add first the one's new defects and then the
other's. -/
theorem merge_twice (distinct : (ids ledger).Nodup) (apart : Apart ledger incoming scope incoming' scope')
    (union : ∀ k, k ∈ both ↔ k ∈ scope ∨ k ∈ scope') :
    (merge (ledger.merge incoming scope now).1 incoming' scope' now).1 =
      ledger.map (fun d => (settled (incoming ++ incoming') both now d).1) ++ newcomers ledger incoming now ++
        newcomers ledger incoming' now := by
  have known : (ledger.map fun d => (settled incoming scope now d).1).map (fun d => (settled incoming' scope' now d).1) =
      ledger.map fun d => (settled (incoming ++ incoming') both now d).1 := by
    rw [List.map_map]
    refine List.map_congr_left fun d member => ?_
    simp only [Function.comp_apply, (settled_apart now (apart.known d member) union).1]
  have added : (newcomers ledger incoming now).map (fun d => (settled incoming' scope' now d).1) =
      newcomers ledger incoming now := by
    refine (List.map_congr_left fun d member => ?_).trans (List.map_id _)
    rw [(ignores_newcomers now apart.first member).settled now, id]
  calc (merge (ledger.merge incoming scope now).1 incoming' scope' now).1
      = (ledger.merge incoming scope now).1.map (fun d => (settled incoming' scope' now d).1) ++
          newcomers (ledger.merge incoming scope now).1 incoming' now :=
        merge_eq incoming' scope' now (nodup_merge incoming scope now distinct)
    _ = (ledger.map (fun d => (settled incoming scope now d).1) ++ newcomers ledger incoming now).map
          (fun d => (settled incoming' scope' now d).1) ++ newcomers ledger incoming' now := by
        rw [newcomers_merge now fun f member => (apart.second f member).1, merge_eq incoming scope now distinct]
        rfl
    _ = _ := by rw [List.map_append, known, added]

/-- The known defects with an effect are those with that effect in the one merge or in the other. -/
theorem count_twice (distinct : (ids ledger).Nodup) (apart : Apart ledger incoming scope incoming' scope')
    (union : ∀ k, k ∈ both ↔ k ∈ scope ∨ k ∈ scope') (effect : Effect) (touched : effect ≠ .untouched) :
    ((reconcile (firsts (incoming ++ incoming')) both now ledger).filter (·.2 == effect)).length =
      ((reconcile (firsts incoming) scope now ledger).filter (·.2 == effect)).length +
        ((reconcile (firsts incoming') scope' now (ledger.merge incoming scope now).1).filter (·.2 == effect)).length := by
  rw [count_effect _ _ now distinct, count_effect _ _ now distinct,
    count_effect _ _ now (nodup_merge incoming scope now distinct), merge_eq incoming scope now distinct]
  have new : ((unknown ledger (firsts incoming)).map (opened now)).filter
      (fun d => (settled incoming' scope' now d).2 == effect) = [] := by
    refine List.filter_eq_nil_iff.mpr fun d member => ?_
    rw [(ignores_newcomers now apart.first member).settled now]
    simpa using touched.symm
  rw [List.filter_append, new, List.append_nil, List.filter_map, List.length_map]
  refine length_filter_add fun d member => ?_
  obtain ⟨after, effects⟩ := settled_apart now (apart.known d member) union
  have none : (Effect.untouched == effect) = false := by simpa using touched.symm
  simp only [Function.comp_def, after]
  rcases effects with ⟨same, other⟩ | ⟨same, other⟩
  · exact .inl ⟨by rw [same], by rw [other, none]⟩
  · exact .inr ⟨by rw [same], by rw [other, none]⟩

/-- The counts of two merges that stay apart add up to those of one. -/
theorem counts_twice (distinct : (ids ledger).Nodup) (apart : Apart ledger incoming scope incoming' scope')
    (union : ∀ k, k ∈ both ↔ k ∈ scope ∨ k ∈ scope') :
    (ledger.merge (incoming ++ incoming') both now).2 =
      (ledger.merge incoming scope now).2.add (merge (ledger.merge incoming scope now).1 incoming' scope' now).2 := by
  have disjoint : ∀ f ∈ incoming', f.id ∉ ids incoming := fun f member => (apart.second f member).1
  have added : (newcomers ledger (incoming ++ incoming') now).length = (newcomers ledger incoming now).length +
      (newcomers (ledger.merge incoming scope now).1 incoming' now).length := by
    rw [newcomers_merge now disjoint, newcomers_append now disjoint, List.length_append]
  have refreshed := count_twice now distinct apart union .refreshed (by decide)
  have reopened := count_twice now distinct apart union .reopened (by decide)
  have resolved := count_twice now distinct apart union .resolved (by decide)
  have unchanged := count_twice now distinct apart union .unchanged (by decide)
  unfold newcomers at added
  simp only [merge] at added refreshed reopened resolved unchanged ⊢
  rw [added, refreshed, reopened, resolved, unchanged]
  rfl

end

/-- Collections of two kinds stay apart if no identifier stands for defects of two kinds. -/
theorem apart_of_kinds {ledger : Ledger} {incoming incoming' : List Defect} {scope scope' : List DefectKind}
    {kind kind' : DefectKind} (differ : kind ≠ kind') (all : ∀ f ∈ incoming, f.kind = kind)
    (all' : ∀ f ∈ incoming', f.kind = kind') (within : ∀ k ∈ scope, k = kind) (within' : ∀ k ∈ scope', k = kind')
    (telling : ∀ d ∈ ledger ++ incoming ++ incoming', ∀ e ∈ ledger ++ incoming ++ incoming', d.id = e.id → d.kind = e.kind) :
    Apart ledger incoming scope incoming' scope' := by
  -- A defect of another kind is not reported, and its kind is not in scope.
  have ignored : ∀ {reports : List Defect} {kinds : List DefectKind} {k : DefectKind},
      reports ⊆ ledger ++ incoming ++ incoming' → (∀ f ∈ reports, f.kind = k) → (∀ j ∈ kinds, j = k) →
      ∀ d ∈ ledger ++ incoming ++ incoming', d.kind ≠ k → Ignores reports kinds d := by
    intro reports kinds k inside all within d member other
    refine ⟨fun reported => ?_, fun inScope => other (within _ inScope)⟩
    obtain ⟨f, told, same⟩ := List.mem_map.mp reported
    exact other ((telling d member f (inside told) same.symm).trans (all f told))
  have first := ignored (fun f member => by simp [member]) all within
  have second := ignored (fun f member => by simp [member]) all' within'
  refine ⟨fun f member => ?_, fun f member => ?_, fun d member => ?_⟩
  · exact second f (by simp [member]) (all f member ▸ differ)
  · exact first f (by simp [member]) (all' f member ▸ differ.symm)
  · by_cases one : d.kind = kind
    · exact .inr (second d (by simp [member]) (one ▸ differ))
    · exact .inl (first d (by simp [member]) one)

/-- Collections of two kinds can be folded in one after the other or together: the ledger is the same and the counts add up.
The other way round the known defects are the same, and only the new ones change places. -/
theorem merge_apart {ledger : Ledger} (distinct : (ids ledger).Nodup) {incoming incoming' : List Defect}
    {scope scope' both : List DefectKind} {kind kind' : DefectKind} (differ : kind ≠ kind')
    (all : ∀ f ∈ incoming, f.kind = kind) (all' : ∀ f ∈ incoming', f.kind = kind') (within : ∀ k ∈ scope, k = kind)
    (within' : ∀ k ∈ scope', k = kind') (union : ∀ k, k ∈ both ↔ k ∈ scope ∨ k ∈ scope')
    (telling : ∀ d ∈ ledger ++ incoming ++ incoming', ∀ e ∈ ledger ++ incoming ++ incoming', d.id = e.id → d.kind = e.kind)
    (now : Timestamp) :
    let one := ledger.merge incoming scope now
    let other := ledger.merge incoming' scope' now
    (merge one.1 incoming' scope' now).1 = (ledger.merge (incoming ++ incoming') both now).1 ∧
      (ledger.merge (incoming ++ incoming') both now).2 = one.2.add (merge one.1 incoming' scope' now).2 ∧
      ∃ known new new', ids known = ids ledger ∧ (merge one.1 incoming' scope' now).1 = known ++ new ++ new' ∧
        (merge other.1 incoming scope now).1 = known ++ new' ++ new := by
  intro one other
  have apart := apart_of_kinds differ all all' within within' telling
  have disjoint : ∀ f ∈ incoming', f.id ∉ ids incoming := fun f member => (apart.second f member).1
  have twice := merge_twice now distinct apart union
  have union' : ∀ k, k ∈ both ↔ k ∈ scope' ∨ k ∈ scope := fun k => (union k).trans or_comm
  have swapped := merge_twice now distinct apart.swap union'
  refine ⟨?_, counts_twice now distinct apart union, ledger.map (fun d => (settled (incoming ++ incoming') both now d).1),
    newcomers ledger incoming now, newcomers ledger incoming' now, by simp [ids, Function.comp_def], twice, ?_⟩
  · rw [twice, merge_eq _ both now distinct, List.append_assoc, ← newcomers_append now disjoint]
    rfl
  · rw [swapped]
    have same : ∀ d ∈ ledger, settled (incoming' ++ incoming) both now d = settled (incoming ++ incoming') both now d := by
      intro d member
      refine settled_congr now ?_ Iff.rfl
      rw [get?_append, get?_append]
      rcases apart.known d member with ⟨silent, -⟩ | ⟨silent, -⟩
      · rw [get?_eq_none_iff.mpr silent, Option.or_none, Option.none_or]
      · rw [get?_eq_none_iff.mpr silent, Option.or_none, Option.none_or]
    rw [List.map_congr_left fun d member => congrArg Prod.fst (same d member)]

/-- A type checker reports a known error and a new one and is silent about a third; an analyser reports one that counted as
fixed, and a new one. -/
theorem two_tools_in_turn :
    let check := fun name => Defect.new .typeCheck .high (some name) (some 1) "wrong" .epoch
    let lint := fun name => Defect.new .staticAnalysis .low (some name) (some 1) "wrong" .epoch
    let ledger := [check "a.ts", { lint "e.py" with status := .fixed, resolution := some .verified }, check "d.ts"]
    let checked := [check "f.ts", check "a.ts"]
    let linted := [lint "g.py", lint "e.py"]
    let both := merge ledger (checked ++ linted) [.typeCheck, .staticAnalysis] .epoch
    let one := merge ledger checked [.typeCheck] .epoch
    let other := merge ledger linted [.staticAnalysis] .epoch
    both.2 = ⟨2, 0, 1, 1, 1⟩ ∧ both.1.map (·.status) = [.unfixed, .unfixed, .fixed, .unfixed, .unfixed] ∧
      (merge one.1 linted [.staticAnalysis] .epoch).1 = both.1 ∧
      both.2 = one.2.add (merge one.1 linted [.staticAnalysis] .epoch).2 ∧
      ∃ known new new', ids known = ids ledger ∧ (merge one.1 linted [.staticAnalysis] .epoch).1 = known ++ new ++ new' ∧
        (merge other.1 checked [.typeCheck] .epoch).1 = known ++ new' ++ new := by
  intro check lint ledger checked linted both one other
  have distinct : (ids ledger).Nodup := by decide +kernel
  have telling : ∀ d ∈ ledger ++ checked ++ linted, ∀ e ∈ ledger ++ checked ++ linted, d.id = e.id → d.kind = e.kind := by
    decide +kernel
  exact ⟨by decide +kernel, by decide +kernel,
    merge_apart distinct (by decide) (by decide +kernel) (by decide +kernel) (List.forall_mem_singleton.mpr rfl)
      (List.forall_mem_singleton.mpr rfl) (by simp) telling .epoch⟩

end GatedRepair.Ledger
