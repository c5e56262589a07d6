import GatedRepair.Proofs.Collection.Silence
import GatedRepair.Proofs.Text.Part

/-!
# Identity of defects

An identifier begins with the mark of a kind. If its defect has a file and a line, it ends in an `L` and the digits of the
line, and what stands between the two is the segment of the file. So identifiers of such defects are the same only if all three
are (`reported_id_eq_iff`). Two spellings of a file have the same segment where the slug leaves out what they differ in, as a
leading `./`, and is shown in full (`dotSlash_id_eq_iff`).
-/

namespace GatedRepair

open Text

theorem Number.toDigits_injective : Function.Injective (Nat.toDigits 10) :=
  Function.LeftInverse.injective (g := fun digits => Nat.ofDigitChars 10 digits 0) fun _ => Nat.ofDigitChars_ten_toDigits

namespace Defect

/-- The defects that reports make: new ones, with a column and a rule, and with their path made relative. -/
inductive Reported : Defect → Prop
  | new (kind : DefectKind) (severity : Severity) (file : Option String) (line : Option Nat) (message : String)
      (now : Timestamp) : Reported (.new kind severity file line message now)
  | withColumn {d : Defect} (reported : Reported d) (column : Option Nat) : Reported (d.withColumn column)
  | withRule {d : Defect} (reported : Reported d) (rule : Option String) : Reported (d.withRule rule)
  | relativeTo {d : Defect} (reported : Reported d) (root : String) (canonical : String → Option String) :
      Reported (d.relativeTo root canonical)

section
variable {d e : Defect}

/-- A reported defect has the identifier that its fields give. -/
theorem Reported.id_eq (reported : Reported d) : d.id = defectId d.kind d.file d.line d.anchor := by
  induction reported with
  | new => rfl
  | withColumn _ column ih => exact ih
  | withRule => rfl
  | @relativeTo d _ root canonical ih =>
    unfold Defect.relativeTo
    split
    · exact ih
    · split
      · split
        · rfl
        · exact ih
      · exact ih

theorem Reported.marked (reported : Reported d) : Collection.Marked d.kind d.id :=
  reported.id_eq ▸ Collection.marked_defectId _ _ _ _

theorem Reported.kind_eq (reported : Reported d) (reported' : Reported e) (same : d.id = e.id) : d.kind = e.kind :=
  reported.marked.unique (same ▸ reported'.marked)

end

end Defect

/-! ## Identifiers of places -/

/-- Under one mark an identifier tells the segment and the line. -/
theorem defectId_inj_of_placed {kind : DefectKind} {file file' anchor anchor' : String} {line line' : Nat} :
    defectId kind (some file) (some line) anchor = defectId kind (some file') (some line') anchor' ↔
      line = line' ∧ segment file = segment file' := by
  constructor
  · intro same
    have no_L : ∀ n, 'L' ∉ Nat.toDigits 10 n := fun n inside =>
      absurd (Nat.isDigit_of_mem_toDigits (by decide) (by decide) inside) (by decide)
    have tails : segment file ++ '-' :: 'L' :: Nat.toDigits 10 line = segment file' ++ '-' :: 'L' :: Nat.toDigits 10 line' := by
      have texts := String.ofList_injective same
      simpa only [List.append_assoc, List.append_cancel_left_eq] using texts
    have cut := congrArg (splitLast? 'L') tails
    rw [List.append_cons, List.append_cons (segment file'), splitLast?_append (no_L line), splitLast?_append (no_L line')] at cut
    obtain ⟨segments, digits⟩ := Prod.mk.inj (Option.some.inj cut)
    exact ⟨Number.toDigits_injective digits, (List.append_inj' segments rfl).1⟩
  · rintro ⟨rfl, segments⟩
    simp [defectId, segments]

/-- Reported defects with the same identifier are of one kind. If both have a file and a line, their identifiers are the same
exactly if the kinds, the lines and the segments of the files are. Short slugs have the same segment only if they are the same,
and a long one has another segment than a short one. -/
theorem Defect.reported_id_eq_iff {d e : Defect} (reported : d.Reported) (reported' : e.Reported) :
    (d.id = e.id → d.kind = e.kind) ∧
    ∀ file line file' line', d.file = some file → d.line = some line → e.file = some file' → e.line = some line' →
      (d.id = e.id ↔ d.kind = e.kind ∧ line = line' ∧ segment file = segment file') ∧
      ((fullSlug file).length ≤ slugLimit → (fullSlug file').length ≤ slugLimit →
        (segment file = segment file' ↔ fullSlug file = fullSlug file')) ∧
      ((fullSlug file).length ≤ slugLimit → slugLimit < (fullSlug file').length → segment file ≠ segment file') := by
  refine ⟨reported.kind_eq reported', fun file line file' line' at_file at_line at_file' at_line' => ⟨?_, ?_, ?_⟩⟩
  · have id := reported.id_eq
    have id' := reported'.id_eq
    rw [at_file, at_line] at id
    rw [at_file', at_line'] at id'
    constructor
    · intro same
      have kind := reported.kind_eq reported' same
      rw [id, id', kind] at same
      exact ⟨kind, defectId_inj_of_placed.mp same⟩
    · rintro ⟨kind, place⟩
      rw [id, id', kind]
      exact defectId_inj_of_placed.mpr place
  · exact segment_inj_of_short
  · exact segment_ne_of_long

/-- A slash and a low line are the same in a slug: two files share the identifiers of their lines. -/
theorem slash_is_as_good_as_low_line :
    let d := Defect.new .typeCheck .high (some "src/a.ts") (some 10) "wrong type" .epoch
    let e := (Defect.new .typeCheck .low (some "src_a.ts") (some 10) "no such name" .epoch).withRule (some "TS2304")
    let f := Defect.new .staticAnalysis .high (some "src/a.ts") (some 10) "unused" .epoch
    d.Reported ∧ e.Reported ∧ f.Reported ∧ d.id = e.id ∧ d.id ≠ f.id := by
  intro d e f
  have first : d.Reported := .new _ _ _ _ _ _
  have second : e.Reported := .withRule (.new _ _ _ _ _ _) _
  have third : f.Reported := .new _ _ _ _ _ _
  have places := (Defect.reported_id_eq_iff first second).2 "src/a.ts" 10 "src_a.ts" 10 rfl rfl rfl rfl
  refine ⟨first, second, third, places.1.mpr ⟨(rfl : DefectKind.typeCheck = .typeCheck), rfl, ?_⟩, fun same => ?_⟩
  · exact (places.2.1 (by decide +kernel) (by decide +kernel)).mpr (by decide +kernel)
  · have kinds : DefectKind.typeCheck = .staticAnalysis := (Defect.reported_id_eq_iff first third).1 same
    cases kinds

/-! ## A leading `./` -/

theorem defectId_inj_of_file {kind : DefectKind} {file other anchor : String} {line : Option Nat} :
    defectId kind (some file) line anchor = defectId kind (some other) line anchor ↔ segment file = segment other := by
  cases line with
  | some line => exact defectId_inj_of_placed.trans (and_iff_right rfl)
  | none => simp [defectId, String.ofList_inj]

section
variable (kind : DefectKind) (severity : Severity) (line : Option Nat) (message : String) (rule : Option String)
  (now : Timestamp)

/-- A defect as it is reported in a file. -/
def Defect.reportedIn (file : String) : Defect := (Defect.new kind severity (some file) line message now).withRule rule

theorem Defect.reportedIn_id (file : String) : (reportedIn kind severity line message rule now file).id =
    defectId kind (some file) line ((rule.filter fun text => !Text.allBlank text.toList).getD message) := rfl

theorem Defect.dotSlash_id {path : String} (framed : Framed path.toList) :
    (reportedIn kind severity line message rule now ("./" ++ path)).id =
      (reportedIn kind severity line message rule now path).id ↔ (fullSlug path).length ≤ slugLimit := by
  rw [reportedIn_id, reportedIn_id, defectId_inj_of_file, segment_dotSlash_iff framed]

/-- A file that is spelt with a leading `./` and without it has one identifier exactly if its slug is short. So in whatever
ledger, a report about the one spelling adds no record to that of the other, unless the slug is long. -/
theorem Defect.dotSlash_id_eq_iff {path : String} (framed : Framed path.toList) :
    let plain := reportedIn kind severity line message rule now path
    let dotted := reportedIn kind severity line message rule now ("./" ++ path)
    (dotted.id = plain.id ↔ (fullSlug path).length ≤ slugLimit) ∧
    ∀ (ledger : Ledger) (scope scope' : List DefectKind) (later : Timestamp), dotted.id ∉ Ledger.ids ledger →
      ((ledger.merge [plain] scope now).1.merge [dotted] scope' later).2.added =
        if (fullSlug path).length ≤ slugLimit then 0 else 1 := by
  intro plain dotted
  have same : dotted.id = plain.id ↔ (fullSlug path).length ≤ slugLimit :=
    dotSlash_id kind severity line message rule now framed
  refine ⟨same, fun ledger scope scope' later absent => ?_⟩
  have known : dotted.id ∈ Ledger.ids (ledger.merge [plain] scope now).1 ↔ (fullSlug path).length ≤ slugLimit := by
    rw [Ledger.mem_ids_merge, or_iff_right absent, ← same]
    simp [Ledger.ids]
  have single : Ledger.firsts [dotted] = [dotted] := rfl
  rw [Ledger.added_merge, single, Ledger.unknown, List.filter_cons, Ledger.any_id]
  by_cases short : (fullSlug path).length ≤ slugLimit
  · simp [known.mpr short, short]
  · simp [known.not.mpr short, short]

end

/-- The two spellings of a short path are one defect. -/
theorem dotted_file_is_recognised :
    let plain := Defect.reportedIn .staticAnalysis .high (some 4) "unused" (some "no-unused-vars") .epoch "src/a.ts"
    let dotted := Defect.reportedIn .staticAnalysis .high (some 4) "unused" (some "no-unused-vars") .epoch ("./" ++ "src/a.ts")
    Framed "src/a.ts".toList ∧ dotted.id = plain.id ∧
      ((Ledger.merge [] [plain] [] .epoch).1.merge [dotted] [] .epoch).2.added = 0 := by
  intro plain dotted
  have framed : Framed "src/a.ts".toList := by decide
  have short : (fullSlug "src/a.ts").length ≤ slugLimit := by decide +kernel
  have recognised := Defect.dotSlash_id_eq_iff .staticAnalysis .high (some 4) "unused" (some "no-unused-vars") .epoch framed
  refine ⟨framed, recognised.1.mpr short, ?_⟩
  rw [recognised.2 [] [] [] .epoch List.not_mem_nil, if_pos short]

/-- The two spellings of a path of 121 letters are two defects. -/
theorem long_dotted_file_is_another :
    let path := String.ofList (List.replicate 121 'a')
    let plain := Defect.reportedIn .staticAnalysis .high (some 1) "unused" none .epoch path
    let dotted := Defect.reportedIn .staticAnalysis .high (some 1) "unused" none .epoch ("./" ++ path)
    Framed path.toList ∧ Path.isAbsolute path.toList = false ∧ dotted.id ≠ plain.id ∧
      Ledger.ids (Ledger.merge [] [plain, dotted] [] .epoch).1 = [plain.id, dotted.id] := by
  intro path plain dotted
  have framed : Framed path.toList := by
    rw [String.toList_ofList]
    decide
  have long : ¬ (fullSlug path).length ≤ slugLimit := by decide +kernel
  have other : dotted.id ≠ plain.id :=
    fun same => long ((Defect.dotSlash_id .staticAnalysis .high (some 1) "unused" none .epoch framed).mp same)
  refine ⟨framed, by rw [String.toList_ofList]; decide, other, ?_⟩
  rw [Ledger.ids_merge_append]
  simp [Ledger.unknown, Ledger.firsts, Ledger.ids, other]

end GatedRepair
