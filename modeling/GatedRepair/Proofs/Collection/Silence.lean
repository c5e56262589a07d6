import GatedRepair.Proofs.Ledger.Merge
import GatedRepair.Repair

/-!
# What silence proves

An open defect that no output tells of is taken for fixed when, and only when, its kind of tool is vouched for: some
tool of the kind ran, and all of them ran cleanly (`fixed_iff_silent`). Neither the identifiers nor the states of the
ledger depend on the order of the outputs.
-/

namespace GatedRepair.Collection

attribute [local instance] Classical.propDecidable

section
variable (tables : Tables) (root : String) (canonical : String → Option String) (now : Timestamp)

/-- The defects that the text of an output tells of. -/
def reading (output : ProducerOutput) : List Defect :=
  (Diagnostic.normalize tables output.kind output.text now).map (·.relativeTo root canonical)

/-- A tool that ran to its end and succeeded, or told of something, or left nothing but a blank text and no verdict. -/
def RanCleanly (output : ProducerOutput) : Prop :=
  output.failure = none ∧
    (output.exitOk = some true ∨ reading tables root canonical now output ≠ [] ∨
      output.exitOk = none ∧ Text.allBlank output.text.toList = true)

/-- Some tool of a kind ran, and all of them ran cleanly. -/
def Vouched (outputs : List ProducerOutput) (kind : DefectKind) : Prop :=
  (∃ output ∈ outputs, output.kind = kind) ∧
    ∀ output ∈ outputs, output.kind = kind → RanCleanly tables root canonical now output

/-- An output of a tool that ran to its end tells of a defect with an identifier. -/
def Told (outputs : List ProducerOutput) (id : String) : Prop :=
  ∃ output ∈ outputs, output.failure = none ∧ ∃ f ∈ reading tables root canonical now output, f.id = id

theorem examine_kind (output : ProducerOutput) : (examine tables root canonical now output).run.kind = output.kind := by
  unfold examine; split <;> rfl

theorem examine_defects (output : ProducerOutput) :
    (examine tables root canonical now output).defects =
      if output.failure = none then reading tables root canonical now output else [] := by
  unfold examine
  cases h : output.failure <;> simp [reading]

theorem examine_clean_iff (output : ProducerOutput) :
    (examine tables root canonical now output).run.clean = true ↔ RanCleanly tables root canonical now output := by
  unfold examine RanCleanly
  cases h : output.failure with
  | some reason => simp
  | none =>
    simp only [true_and, reading, isClean]
    cases output.exitOk with
    | none => simp
    | some verdict => cases verdict <;> simp

theorem mem_scope_iff (outputs : List ProducerOutput) (kind : DefectKind) :
    kind ∈ (ofOutputs tables root canonical now outputs).scope ↔ Vouched tables root canonical now outputs kind := by
  have listed : kind ∈ DefectKind.all := by cases kind <;> decide
  have vouch : ∀ output, (¬ output.kind = kind ∨ (examine tables root canonical now output).run.clean = true) ↔
      (output.kind = kind → RanCleanly tables root canonical now output) := by
    intro output
    rw [examine_clean_iff, imp_iff_not_or]
  simp [ofOutputs, scopeOf, listed, Vouched, examine_kind, vouch]

/-- The identifiers collected are those that are told. -/
theorem mem_ids_defects_iff (outputs : List ProducerOutput) (id : String) :
    id ∈ Ledger.ids (ofOutputs tables root canonical now outputs).defects ↔
      Told tables root canonical now outputs id := by
  simp only [Ledger.ids, ofOutputs, List.flatMap_map, examine_defects, List.mem_map, List.mem_flatMap, Told]
  constructor
  · rintro ⟨f, ⟨output, member, told⟩, same⟩
    by_cases ended : output.failure = none
    · rw [if_pos ended] at told
      exact ⟨output, member, ended, f, told, same⟩
    · simp [ended] at told
  · rintro ⟨output, member, ended, f, told, same⟩
    exact ⟨f, ⟨output, member, by rwa [if_pos ended]⟩, same⟩

variable {tables root canonical now}

theorem Vouched.perm {left right : List ProducerOutput} (perm : left.Perm right) {kind : DefectKind} :
    Vouched tables root canonical now left kind ↔ Vouched tables root canonical now right kind := by
  simp only [Vouched, perm.mem_iff]

theorem Told.perm {left right : List ProducerOutput} (perm : left.Perm right) {id : String} :
    Told tables root canonical now left id ↔ Told tables root canonical now right id := by
  simp only [Told, perm.mem_iff]

end

/-! ## Marks -/

/-- The identifier begins with the mark of the kind. -/
def Marked (kind : DefectKind) (id : String) : Prop := kind.mark.toList ++ ['-'] <+: id.toList

theorem marked_defectId (kind : DefectKind) (file : Option String) (line : Option Nat) (anchor : String) :
    Marked kind (defectId kind file line anchor) := by
  unfold Marked defectId
  rw [String.toList_ofList]
  split <;> simp only [List.append_assoc, List.prefix_append_right_inj, List.prefix_append]

theorem Marked.unique {left right : DefectKind} {id : String} (first : Marked left id) (second : Marked right id) :
    left = right := by
  have comparable := List.prefix_or_prefix_of_prefix first second
  revert comparable
  cases left <;> cases right <;> simp [DefectKind.mark]

/-- What a text tells of bears the mark of the tool's kind. -/
theorem marked_reading {tables : Tables} {root : String} {canonical : String → Option String} {now : Timestamp}
    {output : ProducerOutput} {f : Defect} (told : f ∈ reading tables root canonical now output) :
    Marked output.kind f.id := by
  simp only [reading, Diagnostic.normalize, List.map_map, List.mem_map, Function.comp_apply] at told
  obtain ⟨d, -, rfl⟩ := told
  have kind : (Diagnostic.toDefect output.kind now d).kind = output.kind := rfl
  have mark : Marked output.kind (Diagnostic.toDefect output.kind now d).id := marked_defectId _ _ _ _
  unfold Defect.relativeTo
  split
  · exact mark
  · split
    · split
      · exact marked_defectId _ _ _ _
      · exact mark
    · exact mark

end GatedRepair.Collection

namespace GatedRepair.Ledger

open Collection
attribute [local instance] Classical.propDecidable

/-- The ledger after the outputs of some tools are taken in. -/
def absorb (ledger : Ledger) (tables : Tables) (root : String) (canonical : String → Option String) (now : Timestamp)
    (outputs : List ProducerOutput) : Ledger :=
  let collection := Collection.ofOutputs tables root canonical now outputs
  (ledger.merge collection.defects collection.scope now).1

variable {tables : Tables} {root : String} {canonical : String → Option String} {now : Timestamp}

/-- The state in which a defect with an identifier is found after outputs are taken in. -/
theorem status_absorb {ledger : Ledger} (distinct : (ids ledger).Nodup) (outputs : List ProducerOutput) (id : String) :
    ((ledger.absorb tables root canonical now outputs).get? id).map (·.status) =
      match ledger.get? id with
      | none => if Told tables root canonical now outputs id then some .unfixed else none
      | some d =>
        if Told tables root canonical now outputs id then some (if d.status = .blocked then .blocked else .unfixed)
        else if d.status = .unfixed ∧ Vouched tables root canonical now outputs d.kind then some .fixed
        else some d.status := by
  have told := mem_ids_defects_iff tables root canonical now outputs id
  rw [ids, List.mem_map] at told
  unfold absorb
  rw [get?_merge _ _ _ distinct]
  cases found : ledger.get? id with
  | none =>
    by_cases it : Told tables root canonical now outputs id
    · obtain ⟨f, member, same⟩ := told.mpr it
      have reported : ((ofOutputs tables root canonical now outputs).defects.find? (·.id == id)).isSome := by
        rw [List.find?_isSome]
        exact ⟨f, member, by simpa using same⟩
      obtain ⟨f', found'⟩ := Option.isSome_iff_exists.mp reported
      simp [found', it, opened]
    · have silent : (ofOutputs tables root canonical now outputs).defects.find? (·.id == id) = none := by
        rw [List.find?_eq_none]
        intro f member same
        exact it (told.mp ⟨f, member, by simpa using same⟩)
      simp [silent, it]
  | some d =>
    obtain ⟨-, rfl⟩ := get?_eq_some found
    have reported : ((ofOutputs tables root canonical now outputs).defects.find? (·.id == d.id)).isSome ↔
        Told tables root canonical now outputs d.id := by
      rw [List.find?_isSome, ← told]
      simp only [beq_iff_eq]
    simp only [Option.map_some, settled_status, reported, mem_scope_iff]
    split_ifs <;> rfl

/-- An open defect is taken for fixed exactly when its kind of tool is vouched for and no output tells of the defect.
For an identifier with the mark of the defect's kind it makes no difference whether texts of tools that did not run to
their end are looked at too. The order of the outputs changes neither the identifiers nor the states. A repository
takes outputs in like this, with the standard tables. -/
theorem fixed_iff_silent {ledger : Ledger} (distinct : (ids ledger).Nodup) (outputs : List ProducerOutput) :
    (∀ d ∈ ledger, d.isOpen = true →
      ((((ledger.absorb tables root canonical now outputs).get? d.id).map (·.status) = some .fixed ↔
        Vouched tables root canonical now outputs d.kind ∧ ¬ Told tables root canonical now outputs d.id) ∧
      (Marked d.kind d.id →
        (((ledger.absorb tables root canonical now outputs).get? d.id).map (·.status) = some .fixed ↔
          Vouched tables root canonical now outputs d.kind ∧
            ∀ output ∈ outputs, ∀ f ∈ reading tables root canonical now output, f.id ≠ d.id)))) ∧
    (∀ others : List ProducerOutput, outputs.Perm others →
      (∀ id, id ∈ ids (ledger.absorb tables root canonical now outputs) ↔
        id ∈ ids (ledger.absorb tables root canonical now others)) ∧
      ∀ id, ((ledger.absorb tables root canonical now outputs).get? id).map (·.status) =
        ((ledger.absorb tables root canonical now others).get? id).map (·.status)) ∧
    ∀ (r : Repair) (disk : Files.Disk), r.ledger = ledger →
      (r.ingest outputs now disk).2.1.ledger =
        ledger.absorb .standard r.root (fun path => (disk.tree.canonical path).toOption) now outputs := by
  have status := @status_absorb tables root canonical now ledger distinct
  have order : ∀ others : List ProducerOutput, outputs.Perm others → ∀ id,
      ((ledger.absorb tables root canonical now outputs).get? id).map (·.status) =
        ((ledger.absorb tables root canonical now others).get? id).map (·.status) := by
    intro others perm id
    simp only [status, Told.perm perm, Vouched.perm perm]
  have exact_iff : ∀ d ∈ ledger, d.isOpen = true →
      (((ledger.absorb tables root canonical now outputs).get? d.id).map (·.status) = some .fixed ↔
        Vouched tables root canonical now outputs d.kind ∧ ¬ Told tables root canonical now outputs d.id) := by
    intro d member isOpen
    rw [Defect.isOpen_iff] at isOpen
    rw [status, get?_of_mem distinct member]
    by_cases told : Told tables root canonical now outputs d.id <;>
      by_cases vouched : Vouched tables root canonical now outputs d.kind <;> simp [told, vouched, isOpen]
  refine ⟨fun d member isOpen => ⟨exact_iff d member isOpen, ?_⟩, fun others perm => ⟨?_, order others perm⟩, ?_⟩
  · intro marked
    rw [exact_iff d member isOpen]
    refine and_congr_right fun vouched => ⟨?_, ?_⟩
    · intro untold output inside f told same
      -- A text that tells of the defect comes from a tool of its kind, and those all ran to their end.
      have kind : output.kind = d.kind := (marked_reading told).unique (same ▸ marked)
      exact untold ⟨output, inside, (vouched.2 output inside kind).1, f, told, same⟩
    · rintro silent ⟨output, inside, -, f, told, same⟩
      exact silent output inside f told same
  · intro id
    rw [mem_ids_iff, mem_ids_iff, ← Option.isSome_map (f := (·.status)), order others perm id, Option.isSome_map]
  · rintro r disk rfl
    unfold Repair.ingest Repair.saving
    simp only
    split <;> rfl

/-- An open defect without a place. -/
def placeless (id : String) (kind : DefectKind) : Defect :=
  { id, kind, severity := .high, file := none, line := none, column := none, rule := none, message := "", status := .unfixed,
    attempts := 0, createdAt := .epoch, updatedAt := .epoch, fix := none, resolution := none, regressions := 0,
    lastFailure := none }

/-- Two tools run well and tell of other defects, a third one breaks off: the defect of the first kind counts as fixed, and
that of the second kind stays as it was. -/
theorem silence_of_a_broken_run_proves_nothing :
    let ledger := [placeless "ts-b" .typeCheck, placeless "lint-c" .staticAnalysis]
    let compiler : ProducerOutput := ⟨"tsc", .typeCheck, "a.ts(1,2): error TS1: m\n", some false, none⟩
    let linter : ProducerOutput := ⟨"eslint", .staticAnalysis, "a.js:1:2: m [Error/r]\n", some false, none⟩
    let broken : ProducerOutput := ⟨"ruff", .staticAnalysis, "b.py:3:1: F401 unused\n", none, some "timed out"⟩
    let after := absorb ledger .standard "/repo" (fun _ => none) .epoch [compiler, linter, broken]
    (ids ledger).Nodup ∧ (get? after "ts-b").map (·.status) = some .fixed ∧
      (get? after "lint-c").map (·.status) ≠ some .fixed := by
  intro ledger compiler linter broken after
  have distinct : (ids ledger).Nodup := by decide
  have verdicts := (@fixed_iff_silent .standard "/repo" (fun _ => none) .epoch ledger distinct [compiler, linter, broken]).1
  refine ⟨distinct, ?fixed, ?left⟩
  case fixed =>
    refine (verdicts (placeless "ts-b" .typeCheck) (by simp [ledger]) rfl).1.mpr ⟨⟨?ran, ?well⟩, ?untold⟩
    case ran => exact ⟨compiler, List.mem_cons_self, rfl⟩
    case well =>
      intro output member kind
      simp only [List.mem_cons, List.not_mem_nil, or_false] at member
      rcases member with rfl | rfl | rfl
      · exact ⟨rfl, .inr (.inl (by decide +kernel))⟩
      · cases kind
      · cases kind
    case untold =>
      rintro ⟨output, member, ended, f, told, same⟩
      have inside : f.id ∈ ids (reading .standard "/repo" (fun _ => none) .epoch output) := List.mem_map_of_mem told
      simp only [List.mem_cons, List.not_mem_nil, or_false] at member
      rw [same] at inside
      rcases member with rfl | rfl | rfl
      · exact absurd inside (by decide +kernel)
      · exact absurd inside (by decide +kernel)
      · cases ended
  case left =>
    intro fixed
    have vouched := ((verdicts (placeless "lint-c" .staticAnalysis) (by simp [ledger]) rfl).1.mp fixed).1
    have ended := (vouched.2 broken (by simp) rfl).1
    cases ended

end GatedRepair.Ledger
