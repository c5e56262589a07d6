import GatedRepair.Proofs.Defect.Identity
import GatedRepair.Proofs.Files.Contained
import GatedRepair.Proofs.Ledger.Merged
import GatedRepair.Proofs.Ledger.Sound
import GatedRepair.Proofs.State.Records
import Mathlib.Data.List.Forall2

/-!
# What is collected, however it is spelt

Whatever is collected can be stored, and it makes no difference to the records whether tools name files by absolute or by
relative paths (`Collection.absolute_spelling_adds_nothing`).
-/

/-!
## The numbers in what is collected

The rows for tools read lines and columns as numbers of 64 bits only. So a document can hold whatever is collected
(`Collection.storable_defects`).
-/

namespace GatedRepair

open Number

theorem Number.ofDigits?_lt {bound n : Nat} {text : List Char} (positive : 0 < bound) (read : ofDigits? bound text = some n) :
    n < bound := by
  have folded : ∀ (digits : List Char) (start : Option Nat), (∀ v, start = some v → v < bound) →
      ∀ v, digits.foldl (extend? 10 bound digit?) start = some v → v < bound := by
    intro digits
    induction digits with
    | nil => exact fun start small => small
    | cons c more ih =>
      refine fun start small => ih _ fun v extended => ?_
      unfold extend? at extended
      split at extended
      · split at extended
        · next fits => exact Option.some.inj extended ▸ fits
        · cases extended
      · cases extended
  unfold ofDigits? at read
  split at read
  · cases read
  · exact folded text (some 0) (fun v same => Option.some.inj same ▸ positive) n read

/-- The line and the column are numbers of 64 bits. -/
structure Diagnostic.Small (d : Diagnostic) : Prop where
  line : ∀ n, d.line = some n → n < bound64
  column : ∀ n, d.column = some n → n < bound64

namespace Row

/-- A row reads numbers of 64 bits only. -/
def Small (row : Row) : Prop := ∀ line d, row.read line = some (.diagnostic d) → d.Small

theorem numberOf_lt {found : Pattern.Found} {name : String} {n : Nat} (read : numberOf found name = some n) :
    n < bound64 := by
  obtain ⟨text, -, value⟩ := Option.bind_eq_some_iff.mp read
  exact ofDigits?_lt (by decide) value

theorem small_ofPattern {meaning : Pattern.Found → Option LineMeaning}
    (small : ∀ found d, meaning found = some (.diagnostic d) → d.Small) (name : String) (pattern : Pattern) :
    (ofPattern name pattern meaning).Small := by
  intro line d read
  obtain ⟨found, -, meant⟩ := Option.bind_eq_some_iff.mp read
  exact small found d meant

theorem small_located (found : Pattern.Found) (d : Diagnostic) (meant : located found = some (.diagnostic d)) : d.Small := by
  obtain rfl := LineMeaning.diagnostic.inj (Option.some.inj meant)
  exact ⟨fun n read => numberOf_lt read, fun n read => numberOf_lt read⟩

theorem small_coded (found : Pattern.Found) (d : Diagnostic) (meant : coded found = some (.diagnostic d)) : d.Small := by
  obtain ⟨code, -, same⟩ := Option.map_eq_some_iff.mp meant
  obtain rfl := LineMeaning.diagnostic.inj same
  exact ⟨fun n read => numberOf_lt read, fun n read => numberOf_lt read⟩

theorem small_headed (found : Pattern.Found) (d : Diagnostic) (meant : headed found = some (.diagnostic d)) : d.Small := by
  obtain ⟨file, -, same⟩ := Option.map_eq_some_iff.mp meant
  cases same

theorem small_failedTest (found : Pattern.Found) (d : Diagnostic) (meant : failedTest found = some (.diagnostic d)) :
    d.Small := by
  obtain ⟨test, -, same⟩ := Option.map_eq_some_iff.mp meant
  obtain rfl := LineMeaning.diagnostic.inj same
  refine ⟨?_, ?_⟩
  · rintro n ⟨⟩
  · rintro n ⟨⟩

theorem small_ending (name : String) (pattern : Pattern) : (ending name pattern).Small :=
  small_ofPattern (fun found d meant => by cases meant) name pattern

/-- Every row that is always there reads numbers of 64 bits only. -/
theorem small_standard (kind : DefectKind) : ∀ row ∈ Tables.standard kind, row.Small := by
  cases kind with
  | typeCheck =>
    simp only [Tables.standard, typeCheckRows, List.forall_mem_cons, List.not_mem_nil, false_implies, implies_true, and_true,
      small_ofPattern small_located, small_ending]
  | staticAnalysis =>
    simp only [Tables.standard, staticAnalysisRows, List.forall_mem_cons, List.not_mem_nil, false_implies, implies_true,
      and_true, small_ofPattern small_located, small_ofPattern small_coded, small_ofPattern small_headed, small_ending]
  | testFailure =>
    simp only [Tables.standard, testFailureRows, List.forall_mem_cons, List.not_mem_nil, false_implies, implies_true, and_true,
      small_ofPattern small_failedTest, small_ending]

end Row

namespace Diagnostic

/-- All the diagnostics that were read have numbers of 64 bits. -/
def Reading.Small (r : Reading) : Prop := ∀ d, d ∈ r.complete ∨ r.pending = some d → d.Small

section
variable {r : Reading} {rows : List Row}

theorem Reading.Small.flushed (small : r.Small) : r.flushed.Small := by
  unfold Reading.flushed
  split
  · exact small
  · next d pending =>
    intro e there
    rcases there with member | impossible
    · rcases List.mem_cons.mp member with rfl | earlier
      · exact small e (.inr pending)
      · exact small e (.inl earlier)
    · cases impossible

theorem small_recognise (each : ∀ row ∈ rows, row.Small) {line : List Char} {d : Diagnostic}
    (recognised : recognise rows line = some (.diagnostic d)) : d.Small := by
  obtain ⟨row, member, read⟩ := List.exists_of_findSome?_eq_some recognised
  exact each row member line d read

theorem Small.placed {d : Diagnostic} (small : d.Small) (kind : DefectKind) (heading : Option String) :
    (d.placed kind heading).Small := by
  unfold Diagnostic.placed
  split <;> exact ⟨small.line, small.column⟩

theorem Reading.Small.step (small : r.Small) (each : ∀ row ∈ rows, row.Small) (kind : DefectKind) (line : List Char) :
    (r.step kind rows line).Small := by
  unfold Reading.step
  split
  · next d recognised =>
    intro e there
    rcases there with member | pending
    · exact small.flushed e (.inl member)
    · obtain rfl := Option.some.inj pending
      exact (small_recognise each recognised).placed kind r.heading
  · exact fun e there => small.flushed e there
  · exact small.flushed
  · intro e there
    rcases there with member | pending
    · exact small e (.inl member)
    · obtain ⟨d, grows, rfl⟩ := Option.map_eq_some_iff.mp pending
      have before := small d (.inr grows)
      exact ⟨before.line, before.column⟩

theorem small_readLines (each : ∀ row ∈ rows, row.Small) (kind : DefectKind) (lines : List (List Char)) :
    ∀ d ∈ readLines kind rows lines, d.Small := by
  have folded : ∀ (lines : List (List Char)) (r : Reading), r.Small → (lines.foldl (Reading.step kind rows) r).Small := by
    intro lines
    induction lines with
    | nil => exact fun r small => small
    | cons line more ih => exact fun r small => ih _ (small.step each kind line)
  have start : Reading.start.Small := by
    rintro d (impossible | impossible) <;> cases impossible
  intro d member
  exact (folded lines .start start).flushed d (.inl (List.mem_reverse.mp member))

end

end Diagnostic

/-- A document can hold whatever is collected. -/
theorem Collection.storable_defects {root : String} {canonical : String → Option String} {now : Timestamp}
    {outputs : List ProducerOutput} {d : Defect}
    (member : d ∈ (Collection.ofOutputs .standard root canonical now outputs).defects) : d.Storable := by
  have untried := untried_defects member
  have small : (∀ n, d.line = some n → n < bound64) ∧ ∀ n, d.column = some n → n < bound64 := by
    simp only [ofOutputs, List.flatMap_map, List.mem_flatMap] at member
    obtain ⟨output, -, told⟩ := member
    unfold examine at told
    split at told
    · simp at told
    · simp only [Diagnostic.normalize, List.map_map, List.mem_map, Function.comp_apply] at told
      obtain ⟨diagnostic, read, rfl⟩ := told
      have small := Diagnostic.small_readLines (Row.small_standard output.kind) output.kind _ diagnostic read
      rw [Defect.relativeTo_keeps]
      exact ⟨small.line, small.column⟩
  refine ⟨small.1, small.2, ?_, ?_, ?_⟩
  · rw [untried.attempts]
    decide
  · rw [untried.regressions]
    decide
  · rw [untried.fix]
    intro f impossible
    cases impossible

end GatedRepair

/-!
## Absolute and relative spellings

Tools name files by their path from the root of the repository or by an absolute one. A defect that is reported at the absolute
path of a file is made the one that is reported at its relative path (`Defect.relativeTo_within`), so it makes no difference
to the records which way the tools spell it (`Collection.absolute_spelling_adds_nothing`).
-/

namespace GatedRepair

open Files Text

namespace Defect

section
variable {d : Defect} {root path : String} {canonical : String → Option String}

theorem identified_elsewhere (kind : DefectKind) (severity : Severity) (file other : Option String) (line : Option Nat)
    (message : String) (now : Timestamp) (column : Option Nat) (rule : Option String) :
    identified { ((new kind severity file line message now).withColumn column).withRule rule with file := other } =
      ((new kind severity other line message now).withColumn column).withRule rule := by
  simp only [new, withColumn, withRule, identified, anchor]

theorem relativeTo_relative (placed : ∀ path, d.file = some path → Path.isAbsolute path.toList = false) :
    d.relativeTo root canonical = d := by
  unfold relativeTo
  split
  · rfl
  · next path file => rw [if_neg (by simp [placed path file])]

/-- The path of a file within the root is made relative. -/
theorem relativeTo_within (absolute : Path.isAbsolute root.toList = true) (plain : IsPlain path)
    (file : d.file = some (Path.within root path)) :
    d.relativeTo root canonical = identified { d with file := some path } := by
  have spelt : (Path.within root path).toList = Path.joined root.toList path.toList := String.toList_ofList
  have below : pathBelow? root canonical (Path.within root path) = some path := by
    rw [pathBelow?]
    simp only [spelt, below?_joined absolute plain, Option.map_some, String.ofList_toList]
  have found : (some path).filter (· ≠ "") = some path := by simp [plain.ne_empty]
  unfold relativeTo
  simp only [file, spelt, isAbsolute_joined absolute plain.relative, if_true, below, found]

theorem relativeTo_outside (file : d.file = some path) (absolute : Path.isAbsolute path.toList = true)
    (missing : canonical path = none) (outside : Path.startsWith path.toList root.toList = false) :
    d.relativeTo root canonical = d := by
  have nothing : Path.below? root.toList path.toList = none := by
    rw [← Option.not_isSome_iff_eq_none, below?_isSome root.toList absolute, outside]
    exact Bool.false_ne_true
  unfold relativeTo
  simp [file, absolute, pathBelow?, nothing, missing]

end

end Defect

theorem Files.Tree.canonical_of_missing {tree : Tree} {path : String} (missing : tree.exists? path = false) :
    (tree.canonical path).toOption = none := by
  unfold Tree.exists? at missing
  unfold Tree.canonical
  cases found : tree.find? path with
  | ok spot => simp [found, Except.toOption] at missing
  | error e => rfl

/-- A diagnostic whose file is spelt from the root. -/
def Diagnostic.under (root : String) (d : Diagnostic) : Diagnostic := { d with file := d.file.map (Path.within root) }

namespace Collection

open Ledger

/-- The diagnostics in the text of an output. -/
def diagnostics (tables : Tables) (output : ProducerOutput) : List Diagnostic :=
  Diagnostic.readLines output.kind (tables output.kind) (Diagnostic.countedLines output.text.toList)

/-- Two outputs of which the one spells the paths absolutely that the other one spells from the root. -/
structure SpeltFromRoot (tables : Tables) (root : String) (absolute relative : ProducerOutput) : Prop where
  kind : absolute.kind = relative.kind
  failure : absolute.failure = relative.failure
  told : diagnostics tables absolute = (diagnostics tables relative).map (Diagnostic.under root)
  plain : ∀ d ∈ diagnostics tables relative, ∀ file, d.file = some file → IsPlain file

section
variable {tables : Tables} {root : String} {canonical : String → Option String} {now : Timestamp}

/-- A diagnostic tells of the same defect under both spellings. -/
theorem relativeTo_under (fromRoot : Path.isAbsolute root.toList = true) (kind : DefectKind) {d : Diagnostic}
    (plain : ∀ file, d.file = some file → IsPlain file) :
    (Diagnostic.toDefect kind now (d.under root)).relativeTo root canonical = Diagnostic.toDefect kind now d := by
  cases placed : d.file with
  | none =>
    have same : d.under root = d := by
      obtain ⟨file, line, column, severity, rule, message⟩ := d
      obtain rfl : file = none := placed
      rfl
    rw [same]
    exact Defect.relativeTo_relative fun path file => by cases placed.symm.trans file
  | some file =>
    have within : (Diagnostic.toDefect kind now (d.under root)).file = some (Path.within root file) := by
      show d.file.map (Path.within root) = some (Path.within root file)
      rw [placed, Option.map_some]
    rw [Defect.relativeTo_within fromRoot (plain file placed) within, ← placed]
    exact Defect.identified_elsewhere _ _ _ _ _ _ _ _ _

theorem reading_relative {output : ProducerOutput}
    (plain : ∀ d ∈ diagnostics tables output, ∀ file, d.file = some file → IsPlain file) :
    reading tables root canonical now output = (diagnostics tables output).map (Diagnostic.toDefect output.kind now) := by
  rw [reading, Diagnostic.normalize, List.map_map]
  exact List.map_congr_left fun d inside => Defect.relativeTo_relative fun path file => (plain d inside path file).relative

theorem SpeltFromRoot.reading_absolute {absolute relative : ProducerOutput} (fromRoot : Path.isAbsolute root.toList = true)
    (spelt : SpeltFromRoot tables root absolute relative) :
    reading tables root canonical now absolute = (diagnostics tables relative).map (Diagnostic.toDefect relative.kind now) := by
  have told : Diagnostic.normalize tables absolute.kind absolute.text now =
      ((diagnostics tables relative).map (Diagnostic.under root)).map (Diagnostic.toDefect absolute.kind now) := by
    rw [← spelt.told]
    rfl
  rw [reading, told, List.map_map, List.map_map, spelt.kind]
  exact List.map_congr_left fun d inside => relativeTo_under fromRoot relative.kind (spelt.plain d inside)

/-- The identifiers that are collected are the same under both spellings, whatever stands on the disk, and at any time. -/
theorem ids_defects_spelt {outputs outputs' : List ProducerOutput} (fromRoot : Path.isAbsolute root.toList = true)
    (spelt : List.Forall₂ (SpeltFromRoot tables root) outputs outputs') (canonical canonical' : String → Option String)
    (now later : Timestamp) :
    ids (ofOutputs tables root canonical now outputs).defects =
      ids (ofOutputs tables root canonical' later outputs').defects := by
  simp only [ids, ofOutputs, List.flatMap_map, List.map_flatMap]
  induction spelt with
  | nil => rw [List.flatMap_nil, List.flatMap_nil]
  | @cons absolute relative _ _ one _ ih =>
    rw [List.flatMap_cons, List.flatMap_cons, ih]
    congr 1
    rw [examine_defects, examine_defects, one.failure, one.reading_absolute fromRoot, reading_relative one.plain]
    split
    · rw [List.map_map, List.map_map]
      exact List.map_congr_left fun d _ => rfl
    · rfl

theorem ids_ofOutputs_append (outputs outputs' : List ProducerOutput) :
    ids (ofOutputs tables root canonical now (outputs ++ outputs')).defects =
      ids (ofOutputs tables root canonical now outputs).defects ++
        ids (ofOutputs tables root canonical now outputs').defects := by
  simp [ids, ofOutputs]

/-- Below an absolute root, an absolute path of a file makes the same defect as the relative one. A path that leads to nothing
and does not begin with the components of the root is kept, and in any case nothing but the path and the identifier changes. So
outputs that spell the same diagnostics absolutely and relatively add no record to each other's, neither one after the other, at
whatever time and on whatever disk, nor together. -/
theorem absolute_spelling_adds_nothing (tables : Tables) (fromRoot : Path.isAbsolute root.toList = true) :
    (∀ (kind : DefectKind) (severity : Severity) (line : Option Nat) (message : String) (rule : Option String)
      (now : Timestamp) (canonical : String → Option String) (path : String), IsPlain path →
      (Defect.reportedIn kind severity line message rule now (Path.within root path)).relativeTo root canonical =
        Defect.reportedIn kind severity line message rule now path) ∧
    (∀ (d : Defect) (path : String) (tree : Tree), d.file = some path → Path.isAbsolute path.toList = true →
      tree.exists? path = false → Path.startsWith path.toList root.toList = false →
      d.relativeTo root (fun path => (tree.canonical path).toOption) = d) ∧
    (∀ (d : Defect) (canonical : String → Option String), d.relativeTo root canonical =
      { d with file := (d.relativeTo root canonical).file, id := (d.relativeTo root canonical).id }) ∧
    ∀ (outputs outputs' : List ProducerOutput) (canonical canonical' : String → Option String) (now later : Timestamp)
      (ledger : Ledger), List.Forall₂ (SpeltFromRoot tables root) outputs outputs' →
      ids ((ledger.absorb tables root canonical now outputs).absorb tables root canonical' later outputs') =
        ids (ledger.absorb tables root canonical now outputs) ∧
      ids ((ledger.absorb tables root canonical now outputs').absorb tables root canonical' later outputs) =
        ids (ledger.absorb tables root canonical now outputs') ∧
      ids (ledger.absorb tables root canonical now (outputs ++ outputs')) =
        ids (ledger.absorb tables root canonical now outputs') := by
  refine ⟨fun kind severity line message rule now canonical path plain => ?_,
    fun d path tree file absolute missing outside => ?_, fun d canonical => d.relativeTo_keeps root canonical,
    fun outputs outputs' canonical canonical' now later ledger spelt => ⟨?_, ?_, ?_⟩⟩
  · rw [Defect.relativeTo_within fromRoot plain rfl]
    exact Defect.identified_elsewhere kind severity _ _ line message now none rule
  · exact Defect.relativeTo_outside file absolute (Tree.canonical_of_missing missing) outside
  · have same := ids_defects_spelt fromRoot spelt canonical canonical' now later
    refine ids_merge_known _ _ _ fun id told => (mem_ids_merge _ _ _ ledger id).mpr (.inr ?_)
    rwa [same]
  · have same := ids_defects_spelt fromRoot spelt canonical' canonical later now
    refine ids_merge_known _ _ _ fun id told => (mem_ids_merge _ _ _ ledger id).mpr (.inr ?_)
    rwa [← same]
  · have same := ids_defects_spelt fromRoot spelt canonical canonical now now
    refine ids_merge_congr _ _ _ ledger ?_ _ _
    have known : (ids (ofOutputs tables root canonical now outputs').defects).removeAll
        (ids (ofOutputs tables root canonical now outputs').defects) = [] :=
      List.filter_eq_nil_iff.mpr fun id told => by simp [told]
    rw [ids_ofOutputs_append, same, List.eraseDups_append, known, List.eraseDups_nil, List.append_nil]

end

/-- A linter that spells the file absolutely tells nothing new. A path that only begins with the text of the root is kept. -/
theorem absolute_report_is_recognised :
    let finding := ":4:1: 'x' is defined but never used. [Error/no-unused-vars]"
    let absolute : ProducerOutput := ⟨"eslint", .staticAnalysis, "/repo/src/a.ts" ++ finding, some false, none⟩
    let relative : ProducerOutput := ⟨"eslint", .staticAnalysis, "src/a.ts" ++ finding, some false, none⟩
    let reported := Defect.reportedIn .staticAnalysis .high (some 4) "never used" (some "no-unused-vars") .epoch
    let missing := fun path => (Tree.empty.canonical path).toOption
    (reported "/repo/src/a.ts").relativeTo "/repo" missing = reported "src/a.ts" ∧
      (reported "/repository/a.ts").relativeTo "/repo" missing = reported "/repository/a.ts" ∧
      (diagnostics .standard relative).length = 1 ∧
      let ledger := Ledger.absorb [] .standard "/repo" missing .epoch [relative]
      ids (ledger.absorb .standard "/repo" missing .epoch [absolute]) = ids ledger := by
  intro finding absolute relative reported missing
  have fromRoot : Path.isAbsolute "/repo".toList = true := by decide
  have plain : IsPlain "src/a.ts" := by decide
  have all := absolute_spelling_adds_nothing .standard fromRoot
  have spelt : SpeltFromRoot .standard "/repo" absolute relative :=
    { kind := rfl
      failure := rfl
      told := by decide +kernel
      plain := by decide +kernel }
  refine ⟨?_, ?_, by decide +kernel, ?_⟩
  · have within : Path.within "/repo" "src/a.ts" = "/repo/src/a.ts" := by decide +kernel
    rw [← within]
    exact all.1 .staticAnalysis .high (some 4) _ _ .epoch missing "src/a.ts" plain
  · exact all.2.1 (reported "/repository/a.ts") "/repository/a.ts" .empty rfl (by decide) (by decide) (by decide)
  · exact (all.2.2.2 [absolute] [relative] missing missing .epoch .epoch [] (.cons spelt .nil)).2.1

end Collection

end GatedRepair
