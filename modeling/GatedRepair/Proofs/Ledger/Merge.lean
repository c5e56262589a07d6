import GatedRepair.Ledger
import Mathlib.Data.List.Nodup

/-!
# What a merge makes of each defect

In a ledger whose identifiers are distinct, a merge treats every defect on its own: a known one is received or missed
(`settled`), an unknown one is opened, and what is found under an identifier afterwards depends on nothing else
(`get?_merge`).
-/

namespace GatedRepair.Ledger

/-- The identifiers of a ledger, in order. -/
def ids (ledger : Ledger) : List String := ledger.map (·.id)

theorem get?_eq_some {ledger : Ledger} {id : String} {d : Defect} (found : ledger.get? id = some d) :
    d ∈ ledger ∧ d.id = id :=
  ⟨List.mem_of_find?_eq_some found, by simpa using List.find?_some found⟩

theorem get?_eq_none_iff {ledger : Ledger} {id : String} : ledger.get? id = none ↔ id ∉ ids ledger := by
  simp [get?, ids]

/-- Under distinct identifiers a defect is found by its own. -/
theorem get?_of_mem {ledger : Ledger} (distinct : (ids ledger).Nodup) {d : Defect} (member : d ∈ ledger) :
    ledger.get? d.id = some d := by
  induction ledger with
  | nil => simp at member
  | cons first more ih =>
    obtain ⟨fresh, distinct⟩ := List.nodup_cons.mp distinct
    rcases List.mem_cons.mp member with rfl | later
    · simp [get?]
    · have other : first.id ≠ d.id := by
        intro same
        exact fresh (List.mem_map.mpr ⟨d, later, same.symm⟩)
      simpa [get?, other] using ih distinct later

/-! ## Reports -/

theorem find?_filter_id {keep : Defect → Bool} {id : String} (kept : ∀ d : Defect, d.id = id → keep d = true)
    (defects : List Defect) : (defects.filter keep).find? (·.id == id) = defects.find? (·.id == id) := by
  rw [List.find?_filter]
  congr 1
  funext d
  by_cases same : d.id = id
  · simp [same, kept d same]
  · simp [same]

/-- Folding repeated reports keeps the first one about each identifier. -/
theorem find?_firsts (incoming : List Defect) (id : String) :
    (firsts incoming).find? (·.id == id) = incoming.find? (·.id == id) := by
  induction incoming with
  | nil => rfl
  | cons d more ih =>
    by_cases same : d.id = id
    · simp [firsts, same]
    · have others : ∀ e : Defect, e.id = id → decide (e.id ≠ d.id) = true := by
        rintro e rfl
        simpa using Ne.symm same
      simp only [firsts, List.find?_cons, find?_filter_id others, ih]

theorem mem_of_mem_firsts {incoming : List Defect} {d : Defect} (member : d ∈ firsts incoming) : d ∈ incoming := by
  induction incoming with
  | nil => exact member
  | cons first more ih =>
    rcases List.mem_cons.mp member with rfl | later
    · exact List.mem_cons_self
    · exact List.mem_cons_of_mem _ (ih (List.mem_of_mem_filter later))

theorem nodup_firsts (incoming : List Defect) : (ids (firsts incoming)).Nodup := by
  induction incoming with
  | nil => exact List.nodup_nil
  | cons d more ih =>
    refine List.nodup_cons.mpr ⟨?_, ih.sublist (List.filter_sublist.map _)⟩
    intro member
    obtain ⟨e, kept, same⟩ := List.mem_map.mp member
    simp [same] at kept

/-! ## Known and unknown defects -/

/-- What becomes of a known defect. -/
def settled (incoming : List Defect) (scope : List DefectKind) (now : Timestamp) (d : Defect) : Defect × Effect :=
  match incoming.find? (·.id == d.id) with
  | none => miss scope now d
  | some f => receive now d f

section
variable (incoming : List Defect) (scope : List DefectKind) (now : Timestamp)

theorem refresh_keeps (current fresh : Defect) :
    refresh now current fresh =
      { current with message := (refresh now current fresh).message, severity := (refresh now current fresh).severity,
                     column := (refresh now current fresh).column, updatedAt := (refresh now current fresh).updatedAt } := by
  unfold refresh; split <;> rfl

theorem refresh_status (current fresh : Defect) : (refresh now current fresh).status = current.status := by
  rw [refresh_keeps]

theorem receive_status (current fresh : Defect) :
    (receive now current fresh).1.status = if current.status = .blocked then .blocked else .unfixed := by
  unfold receive
  cases h : current.status <;> simp [refresh_status, h]

theorem miss_status (current : Defect) :
    (miss scope now current).1.status =
      if current.status = .unfixed ∧ current.kind ∈ scope then .fixed else current.status := by
  unfold miss
  by_cases h : current.status = .unfixed ∧ current.kind ∈ scope
  · simp [h, Defect.isOpen]
  · have closed : ¬ (current.isOpen && scope.contains current.kind) = true := by simpa [Defect.isOpen] using h
    rw [if_neg closed, if_neg h]

theorem settled_status (d : Defect) :
    (settled incoming scope now d).1.status =
      if (incoming.find? (·.id == d.id)).isSome then (if d.status = .blocked then .blocked else .unfixed)
      else if d.status = .unfixed ∧ d.kind ∈ scope then .fixed else d.status := by
  unfold settled
  cases found : incoming.find? (·.id == d.id) with
  | none => simp [miss_status]
  | some f => simp [receive_status]

theorem settled_identity (d : Defect) :
    (settled incoming scope now d).1.id = d.id ∧ (settled incoming scope now d).1.kind = d.kind ∧
      (settled incoming scope now d).1.createdAt = d.createdAt := by
  unfold settled
  split
  · unfold miss; split <;> exact ⟨rfl, rfl, rfl⟩
  · unfold receive; split <;> simp only <;> rw [refresh_keeps] <;> exact ⟨rfl, rfl, rfl⟩

@[simp] theorem settled_id (d : Defect) : (settled incoming scope now d).1.id = d.id :=
  (settled_identity incoming scope now d).1

theorem settled_firsts (d : Defect) : settled (firsts incoming) scope now d = settled incoming scope now d := by
  simp only [settled, find?_firsts]

/-- Where no identifier stands twice, every known defect is settled on its own. -/
theorem reconcile_eq_map {ledger : Ledger} (distinct : (ids ledger).Nodup) :
    reconcile incoming scope now ledger = ledger.map (settled incoming scope now) := by
  induction ledger with
  | nil => rfl
  | cons d more ih =>
    obtain ⟨fresh, distinct⟩ := List.nodup_cons.mp distinct
    have alone : more.any (·.id == d.id) = false := by
      rw [List.any_eq_false]
      intro e member same
      exact fresh (List.mem_map.mpr ⟨e, member, by simpa using same⟩)
    simp only [reconcile, List.map_cons, ih distinct, alone, settled]
    rfl

theorem merge_eq {ledger : Ledger} (distinct : (ids ledger).Nodup) :
    (ledger.merge incoming scope now).1 =
      ledger.map (fun d => (settled incoming scope now d).1) ++ (unknown ledger (firsts incoming)).map (opened now) := by
  simp only [merge, reconcile_eq_map _ scope now distinct, List.map_map, List.append_cancel_right_eq]
  exact List.map_congr_left fun d _ => congrArg Prod.fst (settled_firsts incoming scope now d)

theorem mem_unknown {ledger : Ledger} {fresh : List Defect} {f : Defect} :
    f ∈ unknown ledger fresh ↔ f ∈ fresh ∧ f.id ∉ ids ledger := by
  simp [unknown, ids]

/-- What is found under an identifier after a merge: the known defect as it is settled, or else the first report. -/
theorem get?_merge {ledger : Ledger} (distinct : (ids ledger).Nodup) (id : String) :
    (ledger.merge incoming scope now).1.get? id =
      match ledger.get? id with
      | some d => some (settled incoming scope now d).1
      | none => (incoming.find? (·.id == id)).map (opened now) := by
  rw [merge_eq incoming scope now distinct]
  have known : (ledger.map fun d => (settled incoming scope now d).1).find? (·.id == id) =
      (ledger.get? id).map fun d => (settled incoming scope now d).1 := by
    simp only [get?, List.find?_map, Function.comp_def, settled_id]
  have new : ((unknown ledger (firsts incoming)).map (opened now)).find? (·.id == id) =
      ((unknown ledger (firsts incoming)).find? (·.id == id)).map (opened now) := by
    simp [List.find?_map, Function.comp_def, opened]
  unfold get? at known ⊢
  rw [List.find?_append, known, new]
  cases found : ledger.find? (·.id == id) with
  | some d => rfl
  | none =>
    have absent : ∀ f : Defect, f.id = id → (!ledger.any (·.id == f.id)) = true := by
      rintro f rfl
      rw [Bool.not_eq_true', List.any_eq_false]
      simpa using found
    simp only [Option.map_none, Option.none_or, unknown, find?_filter_id absent, find?_firsts]

theorem mem_ids_iff {ledger : Ledger} {id : String} : id ∈ ids ledger ↔ (ledger.get? id).isSome := by
  rw [Option.isSome_iff_ne_none, ne_eq, get?_eq_none_iff, not_not]

/-! ## Identifiers -/

theorem any_id (ledger : Ledger) (id : String) : ledger.any (·.id == id) = decide (id ∈ ids ledger) := by
  rw [Bool.eq_iff_iff]
  simp [ids]

theorem miss_id (d : Defect) : (miss scope now d).1.id = d.id := by
  unfold miss; split <;> rfl

theorem receive_id (d f : Defect) : (receive now d f).1.id = d.id := by
  unfold receive; split <;> simp only <;> rw [refresh_keeps]

theorem ids_reconcile (ledger : Ledger) : ids ((reconcile incoming scope now ledger).map Prod.fst) = ids ledger := by
  induction ledger with
  | nil => rfl
  | cons d more ih =>
    rw [reconcile, List.map_cons, ids, ids, List.map_cons, List.map_cons, ← ids, ← ids, ih]
    congr 1
    split
    · exact miss_id scope now d
    · split
      · rfl
      · exact receive_id now d _

theorem ids_merge_append (ledger : Ledger) :
    ids (ledger.merge incoming scope now).1 = ids ledger ++ ids (unknown ledger (firsts incoming)) := by
  have new : ids ((unknown ledger (firsts incoming)).map (opened now)) = ids (unknown ledger (firsts incoming)) := by
    simp [ids, Function.comp_def, opened]
  rw [← new, ← ids_reconcile (firsts incoming) scope now ledger]
  simp [merge, ids]

theorem mem_ids_firsts (id : String) : id ∈ ids (firsts incoming) ↔ id ∈ ids incoming := by
  rw [mem_ids_iff, mem_ids_iff, get?, find?_firsts, get?]

theorem mem_ids_merge (ledger : Ledger) (id : String) :
    id ∈ ids (ledger.merge incoming scope now).1 ↔ id ∈ ids ledger ∨ id ∈ ids incoming := by
  rw [ids_merge_append, List.mem_append, ← mem_ids_firsts incoming id]
  refine or_congr_right' fun absent => ⟨fun new => ?_, fun reported => ?_⟩
  · obtain ⟨f, unknown, rfl⟩ := List.mem_map.mp new
    exact List.mem_map_of_mem (mem_unknown.mp unknown).1
  · obtain ⟨f, member, rfl⟩ := List.mem_map.mp reported
    exact List.mem_map_of_mem (mem_unknown.mpr ⟨member, absent⟩)

theorem nodup_merge {ledger : Ledger} (distinct : (ids ledger).Nodup) :
    (ids (ledger.merge incoming scope now).1).Nodup := by
  rw [ids_merge_append, List.nodup_append]
  refine ⟨distinct, (nodup_firsts incoming).sublist (List.filter_sublist.map _), ?_⟩
  rintro id member _ reported rfl
  obtain ⟨f, unknown, rfl⟩ := List.mem_map.mp reported
  exact (mem_unknown.mp unknown).2 member

theorem added_merge (ledger : Ledger) :
    (ledger.merge incoming scope now).2.added = (unknown ledger (firsts incoming)).length := by
  simp [merge]

end

end GatedRepair.Ledger
