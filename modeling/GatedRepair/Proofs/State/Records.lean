import GatedRepair.Defect
import GatedRepair.History
import GatedRepair.Ledger
import GatedRepair.Proofs.Json.Decoding
import GatedRepair.Proofs.Json.Scanning
import GatedRepair.Proofs.Number.Nearest
import GatedRepair.Proofs.Report.Statistics
import GatedRepair.Proofs.Time.Reading
import Mathlib.Data.List.Basic

/-!
# Records are read back

Defects, ledgers and histories are read from their documents as they were written, if the numbers in them are of the size that
a document can hold and each confidence is one that its text gives back.
-/

/-!
## Identifiers are read back

An identifier is read back from its text (`ofText?_text`).
-/

namespace GatedRepair.Uuid

open Number

/-- Five groups of digits, with the hyphens between them. -/
def hyphenated (first second third fourth last : List Char) : List Char :=
  first ++ '-' :: second ++ '-' :: third ++ '-' :: fourth ++ '-' :: last

/-- Groups of the right sizes are found again between the hyphens. -/
theorem digits?_hyphenated {first second third fourth last : List Char} (a : first.length = 8) (b : second.length = 4)
    (c : third.length = 4) (d : fourth.length = 4) (e : last.length = 12) :
    digits? (hyphenated first second third fourth last) = some (first ++ second ++ third ++ fourth ++ last) := by
  have length : (hyphenated first second third fourth last).length = 36 := by simp [hyphenated, a, b, c, d, e]
  have hyphens : (hyphenated first second third fourth last)[8]? = some '-' ∧
      (hyphenated first second third fourth last)[13]? = some '-' ∧
      (hyphenated first second third fourth last)[18]? = some '-' ∧
      (hyphenated first second third fourth last)[23]? = some '-' := by
    simp [hyphenated, List.getElem?_append, a, b, c, d]
  have groups : (hyphenated first second third fourth last).take 8 = first ∧
      ((hyphenated first second third fourth last).drop 9).take 4 = second ∧
      ((hyphenated first second third fourth last).drop 14).take 4 = third ∧
      ((hyphenated first second third fourth last).drop 19).take 4 = fourth ∧
      (hyphenated first second third fourth last).drop 24 = last := by
    simp (disch := omega) [hyphenated, List.drop_append, List.drop_eq_nil_of_le, a, b, c, d]
  obtain ⟨first', second', third', fourth', last'⟩ := groups
  unfold digits? withoutHyphens?
  rw [if_neg (by omega), if_pos length, if_pos ⟨length, hyphens⟩, first', second', third', fourth', last']

/-- An identifier is read back from its text. -/
theorem ofText?_text (id : Uuid) : ofText? id.text = some id := by
  have short : id.bits.toNat < Nat.pow 2 128 := id.bits.isLt
  have length : (padded 16 32 id.bits.toNat).length = 32 := length_padded (by decide) (by decide) short
  generalize spelt : padded 16 32 id.bits.toNat = digits at length
  have read : ofHexDigits? (Nat.pow 2 128) digits = some id.bits.toNat := spelt ▸ ofHexDigits?_padded short 32
  have text : id.text.toList = hyphenated (digits.take 8) ((digits.drop 8).take 4) ((digits.drop 12).take 4)
      ((digits.drop 16).take 4) (digits.drop 20) := by
    simp only [Uuid.text, spelt, String.toList_ofList, hyphenated]
  have whole : digits.take 8 ++ (digits.drop 8).take 4 ++ (digits.drop 12).take 4 ++ (digits.drop 16).take 4 ++ digits.drop 20 =
      digits := by
    have second : digits.drop 12 = (digits.drop 8).drop 4 := by rw [List.drop_drop]
    have third : digits.drop 16 = (digits.drop 12).drop 4 := by rw [List.drop_drop]
    have last : digits.drop 20 = (digits.drop 16).drop 4 := by rw [List.drop_drop]
    rw [last, List.append_assoc, List.take_append_drop, third, List.append_assoc, List.take_append_drop, second,
      List.append_assoc, List.take_append_drop, List.take_append_drop]
  have found : digits? id.text.toList = some digits := by
    rw [text, digits?_hyphenated (by simp [length]) (by simp [length]) (by simp [length]) (by simp [length])
      (by simp [length]), whole]
  unfold ofText?
  rw [found, Option.bind_eq_bind, Option.bind_some, read]
  simp [ofNat]

end GatedRepair.Uuid

/-!
## Defects are read back

A defect is read back from a document as it was (`Defect.ofJson?_toJson`), if its numbers are of the size that a document
can hold and the confidence in its fix is one that its text gives back (`Defect.Storable`).
-/

namespace GatedRepair

open Number Json

/-- A document gives the details of a fix back. -/
structure FixDetails.Storable (f : FixDetails) : Prop where
  readable : float? (.float f.confidence) = some f.confidence
  proper : Proper (.float f.confidence)
  agreement : f.agreement < bound64

/-- A document can hold the numbers of a defect, and gives its fix back. -/
structure Defect.Storable (d : Defect) : Prop where
  line : ∀ n, d.line = some n → n < bound64
  column : ∀ n, d.column = some n → n < bound64
  attempts : d.attempts < bound32
  regressions : d.regressions < bound32
  fix : ∀ f, d.fix = some f → f.Storable

theorem Status.ofName?_name (status : Status) : ofName? status.name = some status := by cases status <;> decide

theorem Resolution.ofName?_name (resolution : Resolution) : ofName? resolution.name = some resolution := by
  cases resolution <;> decide

namespace Json

theorem text?_text (s : String) : text? (.text s) = some s := rfl

theorem proper_text (s : String) : Proper (.text s) := rfl

theorem timestamp?_timestamp (t : Timestamp) : timestamp? (.timestamp t) = some t := by
  rw [timestamp?, timestamp, text?_text, Option.bind_some, Timestamp.ofText?_text]

theorem proper_timestamp (t : Timestamp) : Proper (.timestamp t) := rfl

theorem bound32_lt_bound64 : bound32 < bound64 := by decide

theorem option?_nat {value : Option Nat} (small : ∀ n, value = some n → n < bound64) :
    option? (natural? bound64) (ofOption .nat value) = some value :=
  option?_ofOption (fun _ null => by cases null) fun n same => natural?_nat (small n same) (small n same)

theorem option?_text (value : Option String) : option? text? (ofOption .text value) = some value :=
  option?_ofOption (fun _ null => by cases null) fun s _ => text?_text s

end Json

theorem FixDetails.proper_toJson {f : FixDetails} (proper : Proper (.float f.confidence)) : Proper f.toJson := by
  refine proper_record ?_
  simp [proper_text, proper, proper_nat, proper_timestamp]

theorem FixDetails.ofJson?_toJson {f : FixDetails} (storable : f.Storable) :
    ofJson? f.toJson = some f ∧ Proper f.toJson := by
  refine ⟨?_, proper_toJson storable.proper⟩
  have agreement := natural?_nat storable.agreement storable.agreement
  unfold ofJson?
  refine then_eq (members?_record rfl (by decide)) ?_
  refine then_eq (required_eq rfl (text?_text f.strategy)) ?_
  refine then_eq (required_eq rfl (text?_text f.approach)) ?_
  refine then_eq (required_eq rfl storable.readable) ?_
  refine then_eq (defaulted_eq rfl agreement _) ?_
  exact then_eq (required_eq rfl (timestamp?_timestamp f.fixedAt)) rfl

namespace Defect

theorem proper_toJson {d : Defect} (each : ∀ f, d.fix = some f → Proper (.float f.confidence)) : Proper d.toJson := by
  have proper : Proper (ofOption FixDetails.toJson d.fix) := by
    cases same : d.fix with
    | none => trivial
    | some f => exact FixDetails.proper_toJson (each f same)
  have texts := @proper_ofOption String _ proper_text
  have numbers := @proper_ofOption Nat _ proper_nat
  refine proper_record ?_
  simp [proper_text, texts, numbers, proper_nat, proper_timestamp, proper, proper_ofOption]

/-- A defect is read back from a document as it was. -/
theorem ofJson?_toJson {d : Defect} (storable : d.Storable) : ofJson? d.toJson = some d ∧ Proper d.toJson := by
  have fix : option? FixDetails.ofJson? (ofOption FixDetails.toJson d.fix) = some d.fix :=
    option?_ofOption (fun f null => by cases null) fun f same => (FixDetails.ofJson?_toJson (storable.fix f same)).1
  have resolution : option? (oneOf? Resolution.ofName? isNull) (ofOption (fun r => .text r.name) d.resolution) =
      some d.resolution :=
    option?_ofOption (fun r null => by cases null) fun r _ => Resolution.ofName?_name r
  refine ⟨?_, proper_toJson fun f same => (storable.fix f same).proper⟩
  have attempts := natural?_nat storable.attempts (Nat.lt_trans storable.attempts bound32_lt_bound64)
  have regressions := natural?_nat storable.regressions (Nat.lt_trans storable.regressions bound32_lt_bound64)
  unfold ofJson?
  refine then_eq (members?_record rfl (by decide)) ?_
  refine then_eq (required_eq rfl (text?_text d.id)) ?_
  refine then_eq (required_eq rfl (DefectKind.ofName?_name d.kind)) ?_
  refine then_eq (required_eq rfl (Severity.ofName?_name d.severity)) ?_
  refine then_eq (defaulted_eq rfl (option?_text d.file) _) ?_
  refine then_eq (defaulted_eq rfl (option?_nat storable.line) _) ?_
  refine then_eq (defaulted_eq rfl (option?_nat storable.column) _) ?_
  refine then_eq (defaulted_eq rfl (option?_text d.rule) _) ?_
  refine then_eq (required_eq rfl (text?_text d.message)) ?_
  refine then_eq (required_eq rfl (Status.ofName?_name d.status)) ?_
  refine then_eq (defaulted_eq rfl attempts _) ?_
  refine then_eq (required_eq rfl (timestamp?_timestamp d.createdAt)) ?_
  refine then_eq (required_eq rfl (timestamp?_timestamp d.updatedAt)) ?_
  refine then_eq (defaulted_eq rfl fix _) ?_
  refine then_eq (defaulted_eq rfl resolution _) ?_
  refine then_eq (defaulted_eq rfl regressions _) ?_
  exact then_eq (defaulted_eq rfl (option?_text d.lastFailure) _) rfl

end Defect

/-!
## What is read can be stored

The numbers of a defect that was read from a document are of the size that a document can hold. So it can be stored if the
text of the confidence in its fix gives that confidence back (`Defect.storable_of_ofJson?`), which may be lost on a text with
more digits than are needed.
-/

namespace Json

theorem natural?_lt {bound n : Nat} {value : Json} (read : natural? bound value = some n) : n < bound := by
  unfold natural? at read
  split at read
  · simp only [Option.bind_eq_bind, Option.bind_eq_some_iff] at read
    obtain ⟨parts, -, i, -, found⟩ := read
    split at found
    · next small =>
      obtain rfl := Option.some.inj found
      exact small.2
    · cases found
  · cases read

theorem then_some {α β : Type} {x : Option α} {f : α → Option β} {b : β} (read : (x >>= f) = some b) :
    ∃ a, x = some a ∧ f a = some b := Option.bind_eq_some_iff.mp read

theorem Members.of_defaulted {α : Type} {P : α → Prop} {m : Members} {name : String} {standard given : α}
    {read : Json → Option α} (missing : P standard) (each : ∀ value x, read value = some x → P x)
    (found : m.defaulted name standard read = some given) : P given := by
  unfold defaulted at found
  split at found
  · obtain rfl := Option.some.inj found
    exact missing
  · exact each _ _ found

theorem Members.natural_lt {m : Members} {name : String} {bound n : Nat} (positive : 0 < bound)
    (found : m.defaulted name 0 (natural? bound) = some n) : n < bound :=
  @of_defaulted _ (· < bound) _ _ _ _ _ positive (fun _ _ => natural?_lt) found

/-- What holds of a value that is read holds of a value that may be null. -/
theorem of_option? {α : Type} {P : α → Prop} {read : Json → Option α} (each : ∀ value x, read value = some x → P x)
    {value : Json} {given : Option α} (found : option? read value = some given) : ∀ x, given = some x → P x := by
  rintro x rfl
  unfold option? at found
  split at found
  · cases found
  · obtain ⟨y, read, same⟩ := Option.map_eq_some_iff.mp found
    obtain rfl := Option.some.inj same
    exact each _ _ read

/-- What holds of a value that is read holds of all the values of a list. -/
theorem of_list? {α : Type} {P : α → Prop} {read : Json → Option α} (each : ∀ value x, read value = some x → P x)
    {value : Json} {given : List α} (found : list? read value = some given) : ∀ x ∈ given, P x := by
  unfold list? at found
  split at found
  · next items =>
    induction items generalizing given with
    | nil =>
      obtain rfl := Option.some.inj found
      simp
    | cons item more ih =>
      rw [List.mapM_cons] at found
      obtain ⟨x, first, found⟩ := then_some found
      obtain ⟨others, rest, found⟩ := then_some found
      obtain rfl := Option.some.inj found
      exact List.forall_mem_cons.mpr ⟨each _ _ first, ih rest⟩
  · cases found

end Json

/-- The details of a fix are given back if the text of their confidence is read back and their count is of the size of a
machine word. -/
theorem FixDetails.storable_iff (f : FixDetails) :
    f.Storable ↔ float? (.float f.confidence) = some f.confidence ∧ f.agreement < bound64 := by
  refine ⟨fun storable => ⟨storable.readable, storable.agreement⟩, fun ⟨readable, agreement⟩ => ⟨readable, ?_, agreement⟩⟩
  obtain ⟨parts, spelled, -⟩ := Option.bind_eq_some_iff.mp readable
  simp only [Json.float, Proper, spelled, Option.isSome_some]

theorem FixDetails.agreement_lt {value : Json} {f : FixDetails} (read : ofJson? value = some f) : f.agreement < bound64 := by
  unfold ofJson? at read
  obtain ⟨m, -, read⟩ := then_some read
  obtain ⟨strategy, -, read⟩ := then_some read
  obtain ⟨approach, -, read⟩ := then_some read
  obtain ⟨confidence, -, read⟩ := then_some read
  obtain ⟨agreement, counted, read⟩ := then_some read
  obtain ⟨fixedAt, -, read⟩ := then_some read
  obtain rfl := Option.some.inj read
  exact Members.natural_lt (by decide) counted

/-- A defect that was read can be stored if the confidence in its fix is read back. -/
theorem Defect.storable_of_ofJson? {value : Json} {d : Defect} (read : ofJson? value = some d)
    (readable : ∀ f, d.fix = some f → float? (.float f.confidence) = some f.confidence) : d.Storable := by
  unfold ofJson? at read
  obtain ⟨m, -, read⟩ := then_some read
  obtain ⟨id, -, read⟩ := then_some read
  obtain ⟨kind, -, read⟩ := then_some read
  obtain ⟨severity, -, read⟩ := then_some read
  obtain ⟨file, -, read⟩ := then_some read
  obtain ⟨line, lined, read⟩ := then_some read
  obtain ⟨column, columned, read⟩ := then_some read
  obtain ⟨rule, -, read⟩ := then_some read
  obtain ⟨message, -, read⟩ := then_some read
  obtain ⟨status, -, read⟩ := then_some read
  obtain ⟨attempts, tried, read⟩ := then_some read
  obtain ⟨createdAt, -, read⟩ := then_some read
  obtain ⟨updatedAt, -, read⟩ := then_some read
  obtain ⟨fix, fixed, read⟩ := then_some read
  obtain ⟨resolution, -, read⟩ := then_some read
  obtain ⟨regressions, returned, read⟩ := then_some read
  obtain ⟨lastFailure, -, read⟩ := then_some read
  obtain rfl := Option.some.inj read
  have small : ∀ {name : String} {given : Option Nat}, m.defaulted name none (option? (natural? bound64)) = some given →
      ∀ n, given = some n → n < bound64 :=
    Members.of_defaulted (by simp) fun _ _ => of_option? fun _ _ => natural?_lt
  have counted : ∀ f, fix = some f → f.agreement < bound64 :=
    Members.of_defaulted (by simp) (fun _ _ => of_option? fun _ _ => FixDetails.agreement_lt) fixed
  refine ⟨small lined, small columned, Members.natural_lt (by decide) tried, Members.natural_lt (by decide) returned, ?_⟩
  intro f same
  exact (FixDetails.storable_iff f).mpr ⟨readable f same, counted f same⟩

/-- A ledger that was read can be stored if the confidences in its fixes are read back. -/
theorem Ledger.storable_of_ofDocument? {value : Json} {ledger : Ledger} (read : ofDocument? value = some ledger)
    (readable : ∀ d ∈ ledger, ∀ f, d.fix = some f → float? (.float f.confidence) = some f.confidence) :
    ∀ d ∈ ledger, d.Storable := by
  unfold ofDocument? at read
  obtain ⟨m, -, read⟩ := then_some read
  obtain ⟨version, -, read⟩ := then_some read
  obtain ⟨time, -, read⟩ := then_some read
  obtain ⟨defects, listed, read⟩ := then_some read
  obtain ⟨statistics, -, read⟩ := then_some read
  obtain rfl := Option.some.inj read
  have written : ∀ value d, Defect.ofJson? value = some d → ∃ value, Defect.ofJson? value = some d :=
    fun value _ read => ⟨value, read⟩
  have each : ∀ d ∈ defects, ∃ value, Defect.ofJson? value = some d := by
    refine @Members.of_defaulted _ (fun defects => ∀ d ∈ defects, ∃ value, Defect.ofJson? value = some d) _ _ _ _ _ ?_ ?_ listed
    · simp
    · exact fun _ _ => of_list? written
  intro d member
  obtain ⟨value, read⟩ := each d member
  exact Defect.storable_of_ofJson? read (readable d member)

end GatedRepair

/-!
## Ledgers are read back

The text of the document that holds a ledger is read as that ledger (`ofText?_document`), if its defects can be stored and
there are not more of them than a document can count.
-/

namespace GatedRepair.Ledger

open Json Number State

/-- A document gives the defects back, and can count them. -/
structure Storable (ledger : Ledger) : Prop where
  each : ∀ d ∈ ledger, d.Storable
  short : ledger.length < bound64

/-- The rows of a count by name are read, if no more defects are counted than can be. -/
theorem dictionary?_counts {ledger : Ledger} (short : ledger.length < bound64) (name : Defect → String) :
    let rows := ledger.foldl (fun (rows : Rows Nat) d => rows.change (name d) 0 (· + 1)) []
    (dictionary? (natural? bound64) (record (rows.map fun (name, n) => (name, .nat n)))).isSome = true := by
  intro rows
  have gathered : Rows.Gathered name 0 (fun _ n => n + 1) ledger rows := Rows.gathered_foldl _ _ _ ledger
  refine dictionary?_record fun member inside => ?_
  obtain ⟨row, listed, rfl⟩ := List.mem_map.mp inside
  have small : row.2 < bound64 := by
    rw [show row.2 = _ from (gathered.length (μ := id) rfl (fun _ _ => rfl) listed).2]
    exact Nat.lt_of_le_of_lt (List.length_filter_le _ ledger) short
  simp only [natural?_nat small small, Option.isSome_some]

theorem proper_counts (rows : List (String × Nat)) : Proper (record (rows.map fun (name, n) => (name, .nat n))) := by
  refine proper_record fun member inside => ?_
  obtain ⟨row, -, rfl⟩ := List.mem_map.mp inside
  exact proper_nat row.2

/-- The statistics of a ledger that can be counted are read. -/
theorem statistics_read {ledger : Ledger} (short : ledger.length < bound64) :
    (Statistics.ofJson? ledger.statistics.toJson).isSome = true ∧ Proper ledger.statistics.toJson := by
  have counts : ∀ keep : Defect → Bool,
      natural? bound64 (.nat (ledger.filter keep).length) = some (ledger.filter keep).length := by
    intro keep
    have small := Nat.lt_of_le_of_lt (List.length_filter_le keep ledger) short
    exact natural?_nat small small
  obtain ⟨types, readTypes⟩ := Option.isSome_iff_exists.mp (dictionary?_counts short Defect.typeName)
  obtain ⟨severities, readSeverities⟩ := Option.isSome_iff_exists.mp (dictionary?_counts short (·.severity.name))
  rw [statistics_eq]
  refine ⟨?_, ?_⟩
  · rw [Option.isSome_iff_exists]
    refine ⟨⟨ledger.length, (ledger.filter (·.status == .unfixed)).length, (ledger.filter (·.status == .fixed)).length,
      (ledger.filter (·.status == .blocked)).length, types, severities⟩, ?_⟩
    unfold Statistics.ofJson?
    refine then_eq (members?_record rfl (by decide)) ?_
    refine then_eq (required_eq rfl (natural?_nat short short)) ?_
    refine then_eq (required_eq rfl (counts _)) ?_
    refine then_eq (required_eq rfl (counts _)) ?_
    refine then_eq (required_eq rfl (counts _)) ?_
    refine then_eq (defaulted_eq rfl readTypes _) ?_
    exact then_eq (defaulted_eq rfl readSeverities _) rfl
  · refine proper_record ?_
    simp [proper_nat, proper_counts]

section
variable {ledger : Ledger} (short : ledger.length < bound64) (now : Timestamp)
include short

/-- What is read from the document of a ledger is what is read of its defects. -/
theorem ofDocument?_of_defects {given : Ledger} (read : list? Defect.ofJson? (ofList Defect.toJson ledger) = some given) :
    ofDocument? (ledger.document now) = some given := by
  obtain ⟨statistics, counted⟩ := Option.isSome_iff_exists.mp (statistics_read short).1
  have version : natural? bound32 (.nat State.version) = some State.version := natural?_nat (by decide) (by decide)
  unfold ofDocument?
  refine then_eq (members?_record rfl (by decide)) ?_
  refine then_eq (required_eq rfl version) ?_
  refine then_eq (required_eq rfl (timestamp?_timestamp now)) ?_
  refine then_eq (defaulted_eq rfl read _) ?_
  exact then_eq (defaulted_eq rfl counted _) rfl

theorem proper_document (each : ∀ d ∈ ledger, Proper d.toJson) : Proper (ledger.document now) := by
  refine proper_record ?_
  simp only [List.forall_mem_cons]
  exact ⟨proper_nat _, proper_timestamp now, proper_ofList each, (statistics_read short).2, by simp⟩

theorem ofText?_of_defects {given : Ledger} (read : list? Defect.ofJson? (ofList Defect.toJson ledger) = some given)
    (each : ∀ d ∈ ledger, Proper d.toJson) : (parse? (ledger.document now).pretty).bind ofDocument? = some given := by
  rw [parse?_pretty (proper_document short now each), Option.bind_some, ofDocument?_of_defects short now read]

end

/-- A ledger is read back from the text of its document. -/
theorem ofText?_document {ledger : Ledger} (storable : ledger.Storable) (now : Timestamp) :
    (parse? (ledger.document now).pretty).bind ofDocument? = some ledger :=
  ofText?_of_defects storable.short now (list?_ofList fun d member => (Defect.ofJson?_toJson (storable.each d member)).1)
    fun d member => (Defect.ofJson?_toJson (storable.each d member)).2

end GatedRepair.Ledger

/-!
## Histories are read back

The text of the document that holds a history is read as that history (`ofText?_document`), if there are not more attempts
than a document can count.
-/

namespace GatedRepair

open Json Number

namespace Json

theorem bool?_bool (b : Bool) : bool? (.bool b) = some b := rfl

theorem uuid?_text (id : Uuid) : (text? (.text id.text)).bind Uuid.ofText? = some id := by
  rw [text?_text, Option.bind_some, Uuid.ofText?_text]

end Json

/-- An attempt is read back from a document as it was. -/
theorem Attempt.ofJson?_toJson (a : Attempt) : ofJson? a.toJson = some a ∧ Proper a.toJson := by
  refine ⟨?_, ?_⟩
  · unfold ofJson?
    refine then_eq (members?_record rfl (by decide)) ?_
    refine then_eq (required_eq rfl (uuid?_text a.id)) ?_
    refine then_eq (required_eq rfl (uuid?_text a.run)) ?_
    refine then_eq (required_eq rfl (text?_text a.defect)) ?_
    refine then_eq (required_eq rfl (text?_text a.typeName)) ?_
    refine then_eq (required_eq rfl (text?_text a.category)) ?_
    refine then_eq (required_eq rfl (text?_text a.strategy)) ?_
    refine then_eq (required_eq rfl (bool?_bool a.success)) ?_
    refine then_eq (defaulted_eq rfl (option?_text a.failureReason) _) ?_
    exact then_eq (required_eq rfl (timestamp?_timestamp a.time)) rfl
  · have texts := @proper_ofOption String _ proper_text
    have flag : Proper (.bool a.success) := trivial
    refine proper_record ?_
    simp [proper_text, texts, flag, proper_timestamp]

namespace History

/-- The counts of attempts that can be counted are read. -/
theorem strategyCount_read {c : StrategyCount} (attempts : c.attempts < bound64) (successes : c.successes < bound64) :
    StrategyCount.ofJson? c.toJson = some c ∧ Proper c.toJson := by
  refine ⟨?_, ?_⟩
  · unfold StrategyCount.ofJson?
    refine then_eq (members?_record rfl (by decide)) ?_
    refine then_eq (required_eq rfl (natural?_nat attempts attempts)) ?_
    exact then_eq (required_eq rfl (natural?_nat successes successes)) rfl
  · refine proper_record ?_
    simp [proper_nat]

/-- The statistics of a history that can be counted are read. -/
theorem statistics_read {history : History} (short : history.length < bound64) :
    (Statistics.ofJson? history.statistics.toJson).isSome = true ∧ Proper history.statistics.toJson := by
  have counts : ∀ keep : Attempt → Bool, (history.filter keep).length < bound64 := fun keep =>
    Nat.lt_of_le_of_lt (List.length_filter_le keep history) short
  have gathered : Rows.Gathered (·.strategy) {} StrategyCount.counting history
      (history.foldl (fun rows a => rows.change a.strategy {} (·.counting a)) []) := Rows.gathered_foldl _ _ _ history
  have counted : ∀ row ∈ history.statistics.byStrategy, StrategyCount.ofJson? row.2.toJson = some row.2 ∧ Proper row.2.toJson := by
    intro row listed
    rw [statistics_eq] at listed
    have made := ((gathered.exact row.1 row.2).mp listed).2
    rw [foldl_strategyCount, Nat.zero_add, Nat.zero_add] at made
    have successes : History.successes (history.filter (·.strategy == row.1)) < bound64 :=
      Nat.lt_of_le_of_lt (List.length_filter_le _ _) (counts _)
    rw [made]
    exact strategyCount_read (counts _) successes
  have dictionary : (dictionary? StrategyCount.ofJson?
      (record (history.statistics.byStrategy.map fun row => (row.1, row.2.toJson)))).isSome = true := by
    refine dictionary?_record fun member inside => ?_
    obtain ⟨row, listed, rfl⟩ := List.mem_map.mp inside
    simp only [(counted row listed).1, Option.isSome_some]
  obtain ⟨strategies, read⟩ := Option.isSome_iff_exists.mp dictionary
  rw [statistics_eq] at counted read ⊢
  refine ⟨?_, ?_⟩
  · rw [Option.isSome_iff_exists]
    refine ⟨⟨history.length, successes history, (history.filter (!·.success)).length, strategies⟩, ?_⟩
    unfold Statistics.ofJson?
    refine then_eq (members?_record rfl (by decide)) ?_
    refine then_eq (required_eq rfl (natural?_nat short short)) ?_
    refine then_eq (required_eq rfl (natural?_nat (counts _) (counts _))) ?_
    refine then_eq (required_eq rfl (natural?_nat (counts _) (counts _))) ?_
    exact then_eq (defaulted_eq rfl read _) rfl
  · have proper : Proper (record ((history.foldl (fun (rows : Rows StrategyCount) a =>
        rows.change a.strategy {} (·.counting a)) []).map fun row => (row.1, row.2.toJson))) := by
      refine proper_record fun member inside => ?_
      obtain ⟨row, listed, rfl⟩ := List.mem_map.mp inside
      exact (counted row listed).2
    refine proper_record ?_
    simp [proper_nat, proper]

/-- A history is read back from its document. -/
theorem ofDocument?_document {history : History} (short : history.length < bound64) (now : Timestamp) :
    ofDocument? (history.document now) = some history ∧ Proper (history.document now) := by
  obtain ⟨counted, proper⟩ := statistics_read short
  obtain ⟨statistics, counted⟩ := Option.isSome_iff_exists.mp counted
  have version : natural? bound32 (.nat State.version) = some State.version := natural?_nat (by decide) (by decide)
  have records : list? Attempt.ofJson? (ofList Attempt.toJson history) = some history :=
    list?_ofList fun a _ => (Attempt.ofJson?_toJson a).1
  refine ⟨?_, ?_⟩
  · unfold ofDocument?
    refine then_eq (members?_record rfl (by decide)) ?_
    refine then_eq (required_eq rfl version) ?_
    refine then_eq (required_eq rfl (timestamp?_timestamp now)) ?_
    refine then_eq (defaulted_eq rfl records _) ?_
    exact then_eq (defaulted_eq rfl counted _) rfl
  · refine proper_record ?_
    simp only [List.forall_mem_cons]
    exact ⟨proper_nat _, proper_timestamp now, proper_ofList fun a _ => (Attempt.ofJson?_toJson a).2, proper, by simp⟩

/-- A history is read back from the text of its document. -/
theorem ofText?_document {history : History} (short : history.length < bound64) (now : Timestamp) :
    (parse? (history.document now).pretty).bind ofDocument? = some history := by
  obtain ⟨read, proper⟩ := ofDocument?_document short now
  rw [parse?_pretty proper, Option.bind_some, read]

end History

end GatedRepair
