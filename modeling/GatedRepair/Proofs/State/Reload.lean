import GatedRepair.Proofs.Files.Steady
import GatedRepair.Proofs.State.Frame
import GatedRepair.Proofs.State.Records

/-!
# What is saved is loaded again

After the work was saved the state file holds the ledger (`save_stored`). While nobody else changes the state directory,
opening the repository again gives that ledger (`opened_stored`), whatever becomes of the history.
-/

namespace GatedRepair.Repair

open Files State

/-- Work that was saved was saved in all its parts. -/
theorem save_ok {r : Repair} {disk after : Disk} {now : Timestamp} (saved : r.save disk now = (.ok (), after)) :
    ∃ ready written, ensure disk r.root = (.ok (), ready) ∧
      r.ledger.save ready (defectsPath r.root) now = (.ok (), written) ∧
      r.history.save written (historyPath r.root) now = (.ok (), after) := by
  unfold Repair.save at saved
  split at saved
  · cases saved
  · next ready ensured =>
    split at saved
    · cases saved
    · next written ledger =>
      split at saved
      · cases saved
      · next last history =>
        obtain rfl := (Prod.mk.inj saved).2
        exact ⟨ready, written, ensured, ledger, history⟩

/-- A repository that is opened has the root that the path leads to, and what is loaded from there. -/
theorem opened_ok {disk after : Disk} {path : String} {config : Config} {run : Uuid} {now : Timestamp} {r : Repair}
    (begun : Repair.opened disk path config run now = (.ok r, after)) :
    disk.tree.canonical path = .ok r.root ∧ r.config = config ∧
      ∃ between, Ledger.load disk (defectsPath r.root) now = (.ok r.ledger, between) ∧
        History.load between (historyPath r.root) now = (.ok r.history, after) := by
  unfold Repair.opened at begun
  split at begun
  · cases begun
  · next root leads =>
    split at begun
    · cases begun
    · next ledger between first =>
      split at begun
      · cases begun
      · next history last second =>
        obtain ⟨rfl, rfl⟩ := by simpa using begun
        exact ⟨leads, rfl, between, first, second⟩

end GatedRepair.Repair

namespace GatedRepair.State

open Files

/-- The location of the state file with the ledger. -/
def ledgerPlace (root : Location) : Location := place root ++ ["defects.json"]

/-- The state file is found, and holds a ledger. -/
def Held (root : Location) (ledger : Ledger) (tree : Tree) : Prop :=
  ∃ now mode, tree.find? (defectsPath (Tree.pathOf root)) =
    .ok (ledgerPlace root, .file (ledger.document now).pretty.toUTF8 mode)

/-- The state file holds a ledger, or is missing while there is nothing in the ledger yet. -/
def Stored (root : Location) (ledger : Ledger) (tree : Tree) : Prop :=
  Held root ledger tree ∨ (ledger = [] ∧ tree.get? (ledgerPlace root) = none)

/-- The state directory, and the way to it, are left alone. -/
def Spared (root : Location) (before after : Tree) : Prop :=
  ∀ x, x <+: root ∨ place root <+: x → after.get? x = before.get? x

/-- In the state directory, and on the way to it, no link comes to be and no directory is lost. -/
structure Kept (root : Location) (before after : Tree) : Prop where
  directories : ∀ x, x <+: root ∨ place root <+: x → before.get? x = some .directory → after.get? x = some .directory
  links : ∀ x, place root <+: x → ∀ target, after.get? x = some (.link target) → before.get? x = some (.link target)

theorem place_prefix_ledgerPlace (root : Location) : place root <+: ledgerPlace root := List.prefix_append _ _

section
variable {root : Location} {before after : Tree} {ledger : Ledger}

theorem Kept.refl (tree : Tree) : Kept root tree tree := ⟨fun _ _ there => there, fun _ _ _ there => there⟩

theorem Kept.trans {between : Tree} (first : Kept root before between) (second : Kept root between after) :
    Kept root before after :=
  ⟨fun x guarded there => second.directories x guarded (first.directories x guarded there),
    fun x inside target there => first.links x inside target (second.links x inside target there)⟩

theorem Spared.kept (spared : Spared root before after) : Kept root before after := by
  refine ⟨fun x guarded there => ?_, fun x inside target there => ?_⟩
  · rw [spared x guarded]
    exact there
  · rw [← spared x (.inr inside)]
    exact there

theorem kept_of_steady (steady : Steady before after) : Kept root before after :=
  ⟨fun x _ => steady.directories x, fun x _ => steady.links x⟩

theorem Seat.kept (seat : Seat root before) (kept : Kept root before after) : Seat root after := by
  refine ⟨seat.named, fun upper short => kept.directories upper (.inl short) (seat.above upper short), ?_⟩
  intro x guarded target link
  exact seat.inner x guarded target (kept.links x guarded.inside target link)

theorem Seat.plain_ledgerPlace (seat : Seat root before) : Plain before (ledgerPlace root) :=
  seat.plain (by decide) (.inr ⟨_, by simp, rfl⟩)

theorem Held.directory (held : Held root ledger before) :
    before.get? (place root) = some .directory := by
  obtain ⟨now, mode, found⟩ := held
  refine (find?_settled found).1.above (place root) (place_prefix_ledgerPlace root) ?_
  simp [ledgerPlace]

/-- The state file is found again if neither it nor the state directory changed. -/
theorem Held.again (held : Held root ledger before) (seat : Seat root before) (seat' : Seat root after)
    (directory : after.get? (place root) = some .directory)
    (same : after.get? (ledgerPlace root) = before.get? (ledgerPlace root)) : Held root ledger after := by
  have stood := held.directory
  obtain ⟨now, mode, found⟩ := held
  have plain := seat.plain_ledgerPlace
  rw [defectsPath_pathOf seat.named] at found
  refine ⟨now, mode, ?_⟩
  rw [defectsPath_pathOf seat.named]
  refine find?_again plain.named plain.straight ?_ found
  intro upper short
  rcases List.prefix_concat_iff.mp short with whole | higher
  · exact whole ▸ same
  · rcases List.prefix_concat_iff.mp higher with rfl | above
    · exact directory.trans stood.symm
    · rw [seat.above upper above, seat'.above upper above]

/-- Where no directory is lost, the state file is found again if it did not change. -/
theorem Stored.kept (stored : Stored root ledger before) (seat : Seat root before) (kept : Kept root before after)
    (same : after.get? (ledgerPlace root) = before.get? (ledgerPlace root)) : Stored root ledger after := by
  rcases stored with held | ⟨blank, nothing⟩
  · exact .inl (held.again seat (seat.kept kept) (kept.directories _ (.inr List.prefix_rfl) held.directory) same)
  · exact .inr ⟨blank, same ▸ nothing⟩

section
variable {written made : Location → Prop} (seat : Seat root before) (change : Changed written made before after)
  (off : ∀ x, written x → place root <+: x) (apart : ∀ x, x = place root ∨ x = ledgerPlace root → ¬ written x)
  (unmade : ¬ made (ledgerPlace root))
include seat change off

theorem Seat.changed_inside : Seat root after :=
  seat.changed change fun x may short => not_prefix_append root ".remedy" [] ((off x may).trans short)

include apart unmade

/-- A change of other places in the state directory leaves the state file. -/
theorem Held.changed (held : Held root ledger before) : Held root ledger after := by
  refine held.again seat (seat.changed_inside change off) ?_ (change.rest (apart _ (.inr rfl)) unmade)
  have stood := held.directory
  rcases change (place root) with same | ⟨may, -⟩ | ⟨-, missing, -⟩
  · rw [same]
    exact stood
  · exact absurd may (apart _ (.inl rfl))
  · rw [stood] at missing
    cases missing

theorem Stored.changed (stored : Stored root ledger before) : Stored root ledger after := by
  rcases stored with held | ⟨blank, nothing⟩
  · exact .inl (held.changed seat change off apart unmade)
  · refine .inr ⟨blank, ?_⟩
    rw [change.rest (apart _ (.inr rfl)) unmade]
    exact nothing

end

end

/-! ## Saving -/

theorem ne_of_name {location : Location} {name other : String} (apart : name ≠ other) :
    location ++ [name] ≠ location ++ [other] := by
  intro same
  exact apart (List.singleton_inj.mp (List.append_cancel_left same))

theorem readText_of_find? {tree : Tree} {path text : String} {location : Location} {mode : Mode}
    (found : tree.find? path = .ok (location, .file text.toUTF8 mode)) : tree.readText path = .ok text := by
  have decoded : String.fromUTF8? text.toUTF8 = some text := dif_pos text.isValidUTF8
  unfold Tree.readText Tree.read
  simp only [found, decoded]

/-- Once the work was saved the state file holds the ledger, and the history can be read too. -/
theorem save_held {root : Location} {r : Repair} {disk after : Disk} {now : Timestamp} (here : r.root = Tree.pathOf root)
    (seat : Seat root disk.tree) (saved : r.save disk now = (.ok (), after)) :
    Seat root after.tree ∧ Held root r.ledger after.tree ∧
      after.tree.readText (historyPath (Tree.pathOf root)) = .ok (r.history.document now).pretty := by
  obtain ⟨ready, written, ensured, ledger, history⟩ := Repair.save_ok saved
  rw [here] at ensured ledger history
  have steady := @ensure_steady disk (Tree.pathOf root)
  rw [ensured] at steady
  have seat₁ : Seat root ready.tree := seat.kept (kept_of_steady steady)
  have first := saveLedger_spec seat₁ r.ledger now
  rw [ledger] at first
  obtain ⟨change, ended⟩ := first
  obtain ⟨mode, found⟩ := ended rfl
  have held : Held root r.ledger written.tree := ⟨now, mode, found⟩
  have seat₂ : Seat root written.tree := by
    refine seat₁.changed_inside change ?_
    rintro x (rfl | rfl) <;> exact List.prefix_append _ _
  have second := saveHistory_spec seat₂ r.history now
  rw [history] at second
  obtain ⟨change', ended'⟩ := second
  obtain ⟨mode', found'⟩ := ended' rfl
  have off : ∀ x, x = place root ++ ["fix_history.tmp"] ∨ x = place root ++ ["fix_history.json"] → place root <+: x := by
    rintro x (rfl | rfl) <;> exact List.prefix_append _ _
  refine ⟨seat₂.changed_inside change' off, held.changed seat₂ change' off ?_ ?_, readText_of_find? found'⟩
  · rintro x (rfl | rfl) (same | same)
    · simp at same
    · simp at same
    · exact ne_of_name (by decide) same
    · exact ne_of_name (by decide) same
  · intro short
    exact not_prefix_append (place root) _ [] short

/-! ## Loading -/

/-- A state file that cannot be read counts as missing, if it counts at all. -/
theorem load_unread {α : Type} {ofJson? : Json → Option α} {disk after : Disk} {path : String} {now : Timestamp}
    {document : Option α} (loaded : load ofJson? disk path now = (.ok document, after))
    (unread : ∀ text, (disk.readText path).1 ≠ .ok text) : document = none ∧ after.tree = disk.tree := by
  have kept : (disk.readText path).2.tree = disk.tree := Disk.reading_tree _ _
  unfold load at loaded
  split at loaded
  · next disk' same =>
    rw [same] at kept
    obtain ⟨rfl, rfl⟩ := by simpa using loaded
    exact ⟨rfl, kept⟩
  · cases loaded
  · next text disk' same => exact absurd (congrArg Prod.fst same) (unread text)

theorem readText_sound {disk : Disk} {path : String} (sound : disk.meet.1 = none) :
    (disk.readText path).1 = disk.tree.readText path := by
  unfold Disk.readText Disk.reading
  simp only [sound, Disk.meet_tree]

/-- What is read is what the file holds, even if faults are planned. -/
theorem readText_ok {disk : Disk} {path text : String} (read : (disk.readText path).1 = .ok text) :
    disk.tree.readText path = .ok text ∧ disk.meet.1 = none := by
  unfold Disk.readText Disk.reading at read
  simp only at read
  split at read
  · cases read
  · next sound =>
    rw [Disk.meet_tree] at read
    exact ⟨read, sound⟩

theorem Held.reads {root : Location} {ledger : Ledger} {tree : Tree} (held : Held root ledger tree) :
    ∃ now, tree.readText (defectsPath (Tree.pathOf root)) = .ok (ledger.document now).pretty := by
  obtain ⟨now, mode, found⟩ := held
  exact ⟨now, readText_of_find? found⟩

/-- The ledger that a file holds is loaded from it. -/
theorem Held.loaded {root : Location} {ledger : Ledger} {disk after : Disk} {now : Timestamp} {document : Option Ledger}
    (held : Held root ledger disk.tree) (storable : ledger.Storable) (sound : disk.meet.1 = none)
    (loaded : load Ledger.ofDocument? disk (defectsPath (Tree.pathOf root)) now = (.ok document, after)) :
    document = some ledger ∧ after.tree = disk.tree := by
  have kept : (disk.readText (defectsPath (Tree.pathOf root))).2.tree = disk.tree := Disk.reading_tree _ _
  obtain ⟨saved, reads⟩ := held.reads
  have read := (readText_sound sound).trans reads
  unfold load at loaded
  split at loaded
  · next disk' same =>
    rw [same] at read
    cases read
  · cases loaded
  · next text disk' same =>
    rw [same] at read kept
    obtain rfl := Except.ok.inj read
    rw [Ledger.ofText?_document storable saved] at loaded
    obtain ⟨rfl, rfl⟩ := by simpa using loaded
    exact ⟨rfl, kept⟩

/-- The ledger that is stored is loaded, if reading the state file meets no fault. -/
theorem Stored.loaded {root : Location} {ledger given : Ledger} {disk after : Disk} {now : Timestamp}
    (stored : Stored root ledger disk.tree) (seat : Seat root disk.tree) (storable : ledger.Storable)
    (sound : ledger = [] ∨ disk.meet.1 = none)
    (loaded : Ledger.load disk (defectsPath (Tree.pathOf root)) now = (.ok given, after)) :
    given = ledger ∧ after.tree = disk.tree := by
  unfold Ledger.load at loaded
  split at loaded
  · next document disk' same =>
    obtain ⟨rfl, rfl⟩ := by simpa using loaded
    by_cases read : ∃ text, (disk.readText (defectsPath (Tree.pathOf root))).1 = .ok text
    · obtain ⟨text, read⟩ := read
      obtain ⟨reads, sound⟩ := readText_ok read
      rcases stored with held | ⟨rfl, nothing⟩
      · obtain ⟨rfl, kept⟩ := held.loaded storable sound same
        exact ⟨rfl, kept⟩
      · -- Where nothing stands nothing is read.
        rw [defectsPath_pathOf seat.named] at reads
        obtain ⟨location, content, mode, there, -⟩ := find?_of_readText reads
        rw [(seat.plain_ledgerPlace.reaches.find? there).2] at nothing
        cases nothing
    · obtain ⟨rfl, kept⟩ := load_unread same fun text it => read ⟨text, it⟩
      refine ⟨?_, kept⟩
      rcases sound with rfl | sound
      · rfl
      · rcases stored with held | ⟨rfl, -⟩
        · obtain ⟨saved, reads⟩ := held.reads
          exact absurd ⟨_, (readText_sound sound).trans reads⟩ read
        · rfl
  · cases loaded

/-- Loading a document changes nothing, or moves its file aside. -/
theorem load_changed {root : Location} {α : Type} (ofJson? : Json → Option α) {disk : Disk} (seat : Seat root disk.tree)
    {name : String} (good : IsName name) (guarded : Guarded root (place root ++ [name])) (now : Timestamp) :
    Changed (fun x => x = place root ++ [name] ∨ x = place root ++ [aside name now]) Nowhere disk.tree
      (load ofJson? disk (Tree.pathOf (place root ++ [name])) now).2.tree := by
  have named := named_place seat.named
  have kept : (disk.readText (Tree.pathOf (place root ++ [name]))).2.tree = disk.tree := Disk.reading_tree _ _
  unfold load
  split
  · next disk' same =>
    rw [same] at kept
    exact .of_eq kept
  · next e disk' _ same =>
    rw [same] at kept
    exact .of_eq kept
  · next text disk' same =>
    rw [same] at kept
    split
    · exact .of_eq kept
    · have seat' : Seat root disk'.tree := kept.symm ▸ seat
      have move := (Disk.rename_spec (seat'.plain good guarded) (seat'.aimed (isName_aside good now))).1
      unfold setAside
      rw [asidePath?_pathOf named good, ← kept]
      exact move

/-- Loading the history leaves the state file with the ledger. -/
theorem history_loaded {root : Location} {disk : Disk} {ledger : Ledger} (stored : Stored root ledger disk.tree)
    (seat : Seat root disk.tree) (now : Timestamp) :
    Seat root (History.load disk (historyPath (Tree.pathOf root)) now).2.tree ∧
      Stored root ledger (History.load disk (historyPath (Tree.pathOf root)) now).2.tree := by
  have good : IsName "fix_history.json" := by decide
  have change := load_changed History.ofDocument? seat good (.inr ⟨_, by simp, rfl⟩) now
  rw [← historyPath_pathOf seat.named] at change
  have kept : (History.load disk (historyPath (Tree.pathOf root)) now).2.tree =
      (load History.ofDocument? disk (historyPath (Tree.pathOf root)) now).2.tree := by
    unfold History.load
    split
    · next history disk' same => rw [same]
    · next e disk' same => rw [same]
  have off : ∀ x, x = place root ++ ["fix_history.json"] ∨ x = place root ++ [aside "fix_history.json" now] →
      place root <+: x := by
    rintro x (rfl | rfl) <;> exact List.prefix_append _ _
  rw [kept]
  refine ⟨seat.changed_inside change off, stored.changed seat change off ?_ id⟩
  rintro x (rfl | rfl) (same | same)
  · simp at same
  · simp at same
  · exact ne_of_name (by decide) same
  · refine ne_of_name (fun name => ?_) same
    have first := congrArg (·.toList.head?) name
    simp [toList_aside] at first

/-- Opening a repository gives the ledger that is stored in it. -/
theorem opened_stored {root : Location} {ledger : Ledger} {disk after : Disk} {path : String} {config : Config} {run : Uuid}
    {now : Timestamp} {r : Repair} (stored : Stored root ledger disk.tree) (seat : Seat root disk.tree)
    (storable : ledger.Storable) (sound : ledger = [] ∨ disk.meet.1 = none)
    (leads : disk.tree.canonical path = .ok (Tree.pathOf root))
    (begun : Repair.opened disk path config run now = (.ok r, after)) :
    r.root = Tree.pathOf root ∧ r.config = config ∧ r.ledger = ledger ∧ Seat root after.tree ∧
      Stored root ledger after.tree := by
  obtain ⟨there, fixed, between, first, second⟩ := Repair.opened_ok begun
  have here : r.root = Tree.pathOf root := Except.ok.inj (there.symm.trans leads)
  rw [here] at first second
  obtain ⟨same, kept⟩ := stored.loaded seat storable sound first
  rw [← kept] at seat stored
  have whole := history_loaded stored seat now
  rw [second] at whole
  exact ⟨here, fixed, same, whole⟩

end GatedRepair.State

/-!
## Edits under polite verifiers

A verifier is polite if it leaves the state directory alone. What else it does, and wherever the file that is edited lies,
an edit loses no directory in the state directory and brings no link there, however it ends (`apply_kept`).
-/

namespace GatedRepair.Edit

open Files State

/-- The verifier leaves the state directory of a repository, and the way to it, alone. -/
def Polite {σ : Type} (root : Location) (verifier : Verifier σ) : Prop :=
  ∀ s disk, Spared root disk.tree (verifier.verify s disk).2.2.tree

section
variable {σ : Type} {root : Location} {verifier : Verifier σ} {s : σ} {disk : Disk}

theorem takeBack_kept {target backup : String} {outcome : Outcome} :
    Kept root disk.tree (takeBack target backup outcome s disk).2.2.tree := by
  have restored : Kept root disk.tree (restore target backup disk).2.tree := kept_of_steady restore_steady
  unfold takeBack
  split
  · next disk' same =>
    rw [same] at restored
    exact restored
  · next e disk' same =>
    rw [same] at restored
    exact restored

theorem judge_kept (polite : Polite root verifier) {target backup : String} :
    Kept root disk.tree (judge verifier target backup s disk).2.2.tree := by
  have judged := (polite s disk).kept
  unfold judge
  simp only
  split
  · exact judged.trans (kept_of_steady discard_steady)
  · exact judged.trans takeBack_kept

/-- However an edit ends, no directory is lost in the state directory, and no link comes to be there. -/
theorem apply_kept (polite : Polite root verifier) {path backups : String} {now : Timestamp} {r : Replacement} :
    Kept root disk.tree (apply path backups now verifier r s disk).2.2.tree := by
  unfold apply
  split
  · exact .refl _
  · next file _ =>
    have saved : Kept root disk.tree (backUp backups now file disk).2.tree := kept_of_steady backUp_steady
    split
    · next obstacle disk₁ same =>
      rw [same] at saved
      exact saved
    · next backup disk₁ same =>
      rw [same] at saved
      have ready : Kept root disk.tree (prepare file r disk₁).2.tree := saved.trans (kept_of_steady prepare_steady)
      split
      · next obstacle disk₂ same =>
        rw [same] at ready
        exact ready.trans (kept_of_steady discard_steady)
      · next content disk₂ same =>
        rw [same] at ready
        have written : Kept root disk.tree (disk₂.write file.absolute content.toUTF8).2.tree :=
          ready.trans (kept_of_steady (Disk.writing_steady _ _))
        split
        · next e disk₃ same =>
          rw [same] at written
          exact written.trans takeBack_kept
        · next disk₃ same =>
          rw [same] at written
          exact written.trans (judge_kept polite)

end

end GatedRepair.Edit
