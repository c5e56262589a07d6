import GatedRepair.Proofs.Files.Contained
import GatedRepair.Proofs.Files.Steady
import GatedRepair.Proofs.Files.Within
import GatedRepair.Proofs.Repair.Turns
import GatedRepair.Proofs.State.Frame

/-!
# Edits pass the gate or leave no trace

What a working tree shows is all of it but the program's own places (`State.shown`). An edit that succeeds was judged once,
in its place, and is what the tree shows from then on; any other edit that ends leaves what the tree shows as it was
(`apply_gated`).
-/

namespace GatedRepair.State

open Files

instance (root x : Location) : Decidable (Own root x) := inferInstanceAs (Decidable (_ ∨ _ ∨ _))

/-- What stands at each location of a working tree, apart from the program's own places. -/
abbrev View := Location → Option Entry

/-- What a working tree shows. The directory that is made for an ignore file does not show. -/
def shown (root : Location) (tree : Tree) : View := fun x =>
  if Own root x then none
  else if x = info root ∧ tree.get? x = some .directory then none
  else tree.get? x

/-- A view with another entry at a location where something shows. -/
def View.put (view : View) (place : Location) (entry : Entry) : View := fun x =>
  if x = place ∧ (view place).isSome = true then some entry else view x

section
variable {root : Location} {before after : Tree}

theorem shown_calm (calm : Calm root before after) : shown root after = shown root before := by
  funext x
  unfold shown
  by_cases own : Own root x
  · rw [if_pos own, if_pos own]
  · rw [if_neg own, if_neg own]
    rcases calm x with same | ⟨own', -⟩ | ⟨last, nothing, directory⟩
    · rw [same]
    · exact absurd own' own
    · rw [if_pos ⟨last, directory⟩, nothing]
      simp

/-- Nothing changes but at the program's own places and one more. -/
abbrev Near (root place : Location) (before after : Tree) : Prop :=
  Changed (fun x => Own root x ∨ x = place) (At (info root)) before after

theorem Near.of_calm {place : Location} (calm : Calm root before after) : Near root place before after :=
  calm.mono (fun _ own => .inl own) fun _ it _ => .inr it

theorem Near.of_at {place : Location} (change : Changed (At place) Nowhere before after) : Near root place before after :=
  change.mono (fun _ it => .inr it) fun _ it => it.elim

theorem shown_file {place : Location} {content : ByteArray} {mode : Mode}
    (stands : before.get? place = some (.file content mode)) :
    shown root before place = if Own root place then none else some (.file content mode) := by
  unfold shown
  rw [stands]
  simp

/-- What shows after a change near a place that held a file and holds a file now. -/
theorem shown_near {place : Location} (near : Near root place before after) {old new : ByteArray} {mode mode' : Mode}
    (stood : before.get? place = some (.file old mode))
    (stands : ¬ Own root place → after.get? place = some (.file new mode')) :
    shown root after = (shown root before).put place (.file new mode') := by
  funext x
  unfold View.put
  rw [shown_file stood]
  by_cases same : x = place
  · subst same
    by_cases own : Own root x
    · simp [shown, own]
    · rw [shown_file (stands own)]
      simp [own]
  · rw [if_neg fun both => same both.1]
    by_cases own : Own root x
    · simp [shown, own]
    · rcases near x with kept | ⟨own' | same', -⟩ | ⟨last, nothing, directory⟩
      · simp only [shown, kept]
      · exact absurd own' own
      · exact absurd same' same
      · rw [shown, shown, if_neg own, if_neg own, if_pos ⟨last, directory⟩, nothing]
        simp

/-- Putting back what shows changes nothing. -/
theorem put_shown {place : Location} {content : ByteArray} {mode : Mode}
    (stood : before.get? place = some (.file content mode)) :
    (shown root before).put place (.file content mode) = shown root before := by
  funext x
  unfold View.put
  split
  · next it =>
    obtain ⟨rfl, there⟩ := it
    rw [shown_file stood] at there ⊢
    split at there
    · simp at there
    · next free => rw [if_neg free]
  · rfl

theorem Home.near {place : Location} (home : Home root before) (near : Near root place before after)
    (off : ¬ place <+: root) : Home root after :=
  home.changed near fun _ it => it.elim (fun own => own.not_prefix) fun same => same ▸ off

theorem Home.off {place : Location} (home : Home root before) {content : ByteArray} {mode : Mode}
    (stands : before.get? place = some (.file content mode)) : ¬ place <+: root := by
  intro above
  rw [home.above place above] at stands
  cases stands

end

end GatedRepair.State

namespace GatedRepair.Edit

open Files State

theorem resolve_ok {tree : Tree} {root path : String} {file : RepositoryFile} (resolved : tree.resolve root path = .ok file) :
    ∃ place content mode, file.absolute = Tree.pathOf place ∧ Settled tree place ∧
      tree.get? place = some (.file content mode) := by
  obtain ⟨top, entry, lower, content, mode, -, settled, stands, rfl⟩ := resolve_cases resolved
  exact ⟨top ++ lower, content, mode, rfl, settled, stands⟩

section
variable {root : Location} {disk after : Disk} {place : Location} {now : Timestamp}

/-- A backup is made at a place of the program, and is a copy of the file, which is as it was. -/
theorem backUp_spec (home : Home root disk.tree) (plain : Plain disk.tree place) {file : RepositoryFile}
    (absolute : file.absolute = Tree.pathOf place) {result : Except Obstacle String}
    (made : backUp (backupsPath (Tree.pathOf root)) now file disk = (result, after)) :
    Calm root disk.tree after.tree ∧ ∀ backup, result = .ok backup → ∃ spare content mode, backup = Tree.pathOf spare ∧
      IsNamed spare ∧ State.place root <+: spare ∧ disk.tree.get? place = some (.file content mode) ∧
      after.tree.get? place = some (.file content mode) ∧ after.tree.get? spare = some (.file content mode.copied) := by
  have named := (named_place home.named).append (show IsName "backups" by decide)
  have inside : State.place root <+: State.place root ++ ["backups"] := List.prefix_append _ _
  have within := within_pathOf named (isName_backupName file.relative now)
  have directories := Disk.makeDirectories_spec (home.plain_inside named inside)
  unfold backUp at made
  rw [backupsPath_pathOf home.named, within, absolute] at made
  split at made
  · next e disk₁ same =>
    obtain ⟨rfl, rfl⟩ := by simpa using made
    rw [same] at directories
    exact ⟨home.seat.calm_made inside directories, by simp⟩
  · next disk₁ same =>
    rw [same] at directories
    have calm : Calm root disk.tree disk₁.tree := home.seat.calm_made inside directories
    have home₁ := home.calm calm
    have inside' := inside.trans (List.prefix_append (State.place root ++ ["backups"]) [backupName file.relative now])
    have named' := named.append (isName_backupName file.relative now)
    have copy := Disk.copy_spec (calm.plain plain) (home₁.plain_inside named' inside')
    have copied : Changed (At (State.place root ++ ["backups"] ++ [backupName file.relative now])) Nowhere disk₁.tree
        (disk₁.copy (Tree.pathOf place)
          (Tree.pathOf (State.place root ++ ["backups"] ++ [backupName file.relative now]))).2.tree := copy.1
    simp only at made
    split at made
    · next e disk₂ same =>
      obtain ⟨rfl, rfl⟩ := by simpa using made
      rw [same] at copied
      exact ⟨calm.trans (calm_of_inside copied fun x it => .inl (it ▸ inside')), by simp⟩
    · next disk₂ same =>
      obtain ⟨rfl, rfl⟩ := Prod.mk.inj made
      rw [same] at copied copy
      refine ⟨calm.trans (calm_of_inside copied fun x it => .inl (it ▸ inside')), ?_⟩
      rintro backup ⟨rfl⟩
      obtain ⟨⟨content, mode, stood, stands⟩, able⟩ := copy.2 rfl
      refine ⟨_, content, mode, rfl, named', inside', ?_, ?_, stands⟩
      · -- Making directories makes no file.
        rcases directories place with same | ⟨impossible, -⟩ | ⟨-, -, directory⟩
        · exact same ▸ stood
        · exact impossible.elim
        · rw [directory] at stood
          cases stood
      · by_cases it : place = State.place root ++ ["backups"] ++ [backupName file.relative now]
        · rw [← it] at stands able
          rw [stands, Mode.copied_of_free (able _ _ stood)]
        · rw [copied.rest it id]
          exact stood

theorem discard_calm {spare : Location} (home : Home root disk.tree) (named : IsNamed spare)
    (inside : State.place root <+: spare) : Calm root disk.tree (discard (Tree.pathOf spare) disk).tree :=
  calm_of_inside (Disk.removeFile_spec (home.plain_inside named inside)) fun _ it => .inl (it ▸ inside)

/-- What is put back is a copy of the backup, and the file that it replaces could be written. -/
theorem restore_spec {spare : Location} (home : Home root disk.tree) (off : ¬ place <+: root) (plain : Plain disk.tree place)
    (named : IsNamed spare) (inside : State.place root <+: spare)
    (ended : restore (Tree.pathOf place) (Tree.pathOf spare) disk = (.ok (), after)) :
    Near root place disk.tree after.tree ∧
      (∃ content mode, disk.tree.get? spare = some (.file content mode) ∧
        (¬ Own root place → after.tree.get? place = some (.file content mode.copied))) ∧
      ∀ old mode, disk.tree.get? place = some (.file old mode) → mode.refusal? = none := by
  obtain ⟨change, copy⟩ := Disk.copy_spec (home.plain_inside named inside) plain
  have steps := reinstate_steps (Tree.pathOf place) (Tree.pathOf spare) disk
  rw [restore_eq] at ended
  split at ended
  · next disk₁ put =>
    obtain rfl := by simpa using ended
    rw [put] at steps
    obtain ⟨kept, copied⟩ := steps
    obtain ⟨⟨content, mode, stood, stands⟩, able⟩ := copy copied
    rw [← kept] at change stands
    have near : Near root place disk.tree disk₁.tree := Near.of_at change
    have away := discard_calm (home.near near off) named inside
    exact ⟨near.trans (Near.of_calm away), ⟨content, mode, stood, fun free => away.stays free stands⟩, able⟩
  · cases ended

end

/-- A verifier that leaves the tree alone. -/
def Spares {σ : Type} (verifier : Verifier σ) : Prop :=
  ∀ s disk, (verifier.verify s disk).2.2.tree = disk.tree

/-- The place that an edit is made at. -/
def Replacement.place? (r : Replacement) (tree : Tree) (root : String) : Option Location :=
  (tree.resolve root r.file).toOption.map fun file => pathParts file.absolute.toList

/-- The content that an edit makes of a file's content, if it fits. -/
def Replacement.content? (r : Replacement) (content : ByteArray) : Option ByteArray :=
  (String.fromUTF8? content).bind fun text => (splice text r.target r.code).toOption.map String.toUTF8

/-- A view with an edit made at a place. -/
def Replacement.on (r : Replacement) (place : Location) (view : View) : View :=
  match view place with
  | some (.file content mode) =>
    match r.content? content with
    | some new => view.put place (.file new mode)
    | none => view
  | _ => view

/-- An edit fits the file at the place that it is made at. -/
def Replacement.Fits (r : Replacement) (tree : Tree) (root : String) (place : Location) : Prop :=
  r.place? tree root = some place ∧
    ∃ content mode, tree.get? place = some (.file content mode) ∧ (r.content? content).isSome = true

/-- What an edit that ended did: it was judged good once, in its place, and stays, or it was judged bad once and left no
trace, or it was not made and not judged. -/
inductive Ended {σ : Type} (verifier : Verifier σ) (root : Location) (r : Replacement) (s : σ) (disk : Disk) :
    Outcome → σ → Disk → Prop
  | success (place : Location) (seen after : Disk) (t : σ) (fits : r.Fits disk.tree (Tree.pathOf root) place)
      (inPlace : shown root seen.tree = r.on place (shown root disk.tree))
      (judged : t = (verifier.verify s seen).2.1) (passed : (verifier.verify s seen).1.passed = true)
      (stays : shown root after.tree = shown root seen.tree) :
      Ended verifier root r s disk (.success (verifier.verify s seen).1) t after
  | reverted (place : Location) (seen after : Disk) (t : σ) (fits : r.Fits disk.tree (Tree.pathOf root) place)
      (inPlace : shown root seen.tree = r.on place (shown root disk.tree))
      (judged : t = (verifier.verify s seen).2.1) (failed : (verifier.verify s seen).1.passed = false)
      (restored : shown root after.tree = shown root disk.tree) :
      Ended verifier root r s disk (.reverted (verifier.verify s seen).1) t after
  | notMade (obstacle : Obstacle) (after : Disk) (t : σ) (unjudged : t = s)
      (untouched : shown root after.tree = shown root disk.tree) :
      Ended verifier root r s disk (.notMade obstacle) t after

section
variable {σ : Type} {verifier : Verifier σ} {root : Location} {r : Replacement} {disk after : Disk} {now : Timestamp}

theorem Replacement.lands {tree : Tree} {path : String} {file : RepositoryFile} (resolved : tree.resolve path r.file = .ok file) :
    ∃ place content mode, file.absolute = Tree.pathOf place ∧ Plain tree place ∧
      tree.get? place = some (.file content mode) ∧ r.place? tree path = some place := by
  obtain ⟨place, content, mode, absolute, settled, stood⟩ := resolve_ok resolved
  refine ⟨place, content, mode, absolute, ⟨settled.named, settled.straight (by simp [stood])⟩, stood, ?_⟩
  rw [Replacement.place?, resolved, ← pathParts_pathOf settled.named, ← absolute]
  rfl

/-- The text that is made of a file is what the edit makes of its content. -/
theorem content?_of_edited {file : String} {content : ByteArray} {text : String}
    (made : edited file r content = .ok text) : r.content? content = some text.toUTF8 := by
  unfold edited at made
  unfold Replacement.content?
  split at made
  · cases made
  · next old read =>
    rw [read, Option.bind_some]
    cases spliced : splice old r.target r.code with
    | error e =>
      rw [spliced] at made
      cases made
    | ok new =>
      rw [spliced] at made
      obtain rfl := Except.ok.inj made
      rfl

/-- An edit as it is shown. -/
theorem on_shown {tree : Tree} {place : Location} {content new : ByteArray} {mode : Mode}
    (stood : tree.get? place = some (.file content mode)) (made : r.content? content = some new) :
    r.on place (shown root tree) = (shown root tree).put place (.file new mode) := by
  unfold Replacement.on
  rw [shown_file stood]
  by_cases own : Own root place
  · rw [if_pos own]
    funext x
    simp [View.put, shown_file stood, own]
  · rw [if_neg own]
    simp only [made]

/-- An edit that is taken back leaves no trace. -/
theorem takeBack_spec {place spare : Location} {outcome given : Outcome} {s t : σ} {content : ByteArray} {mode : Mode}
    {before : Tree} (home : Home root before) (stood : before.get? place = some (.file content mode))
    (near : Near root place before disk.tree) (plain : Plain disk.tree place) (named : IsNamed spare)
    (inside : State.place root <+: spare) (written : ∃ now, disk.tree.get? place = some (.file now mode))
    (saved : ¬ Own root place → disk.tree.get? spare = some (.file content mode.copied))
    (ended : takeBack (Tree.pathOf place) (Tree.pathOf spare) outcome s disk = (.ok given, t, after)) :
    given = outcome ∧ t = s ∧ Home root after.tree ∧ shown root after.tree = shown root before := by
  have off := home.off stood
  have home' := home.near near off
  unfold takeBack at ended
  split at ended
  · next disk' restored =>
    obtain ⟨rfl, rfl, rfl⟩ := by simpa using ended
    obtain ⟨near', ⟨content', mode', held, back⟩, able⟩ := restore_spec home' off plain named inside restored
    have whole := near.trans near'
    refine ⟨rfl, rfl, home.near whole off, ?_⟩
    have stands : ¬ Own root place → disk'.tree.get? place = some (.file content mode) := by
      intro free
      obtain ⟨rfl, rfl⟩ : content = content' ∧ mode.copied = mode' := by
        rw [saved free] at held
        simpa using held
      obtain ⟨now, there⟩ := written
      have same := Mode.copied_of_free (able _ _ there)
      rw [back free, same, same]
    rw [shown_near whole stood stands, put_shown stood]
  · cases ended

theorem prepare_tree {file : RepositoryFile} {result : Except Obstacle String}
    (prepared : prepare file r disk = (result, after)) : after.tree = disk.tree := by
  have tree := Disk.reading_tree disk (·.read file.absolute)
  unfold prepare at prepared
  split at prepared
  · next e disk' same =>
    obtain ⟨-, rfl⟩ := Prod.mk.inj prepared
    rw [show disk.reading (·.read file.absolute) = _ from same] at tree
    exact tree
  · next content disk' same =>
    obtain ⟨-, rfl⟩ := Prod.mk.inj prepared
    rw [show disk.reading (·.read file.absolute) = _ from same] at tree
    exact tree

/-- The new text is made of what the file holds. -/
theorem prepare_ok {file : RepositoryFile} {text : String} (prepared : prepare file r disk = (.ok text, after))
    {place : Location} (absolute : file.absolute = Tree.pathOf place) (plain : Plain disk.tree place) {content : ByteArray}
    {mode : Mode} (stands : disk.tree.get? place = some (.file content mode)) : r.content? content = some text.toUTF8 := by
  unfold prepare at prepared
  split at prepared
  · cases prepared
  · next read disk' same =>
    obtain ⟨made, -⟩ := Prod.mk.inj prepared
    have found := @Disk.reading_ok _ disk disk' (·.read file.absolute) read same
    unfold Tree.read at found
    rw [absolute] at found
    split at found
    · next there =>
      obtain rfl := Except.ok.inj found
      obtain ⟨-, stands'⟩ := plain.reaches.find? there
      rw [stands] at stands'
      obtain ⟨rfl, -⟩ := by simpa using stands'
      exact content?_of_edited made
    · cases found
    · cases found

/-- An edit that ends was gated, and the repository is one still. -/
theorem apply_gated (spares : Spares verifier) (home : Home root disk.tree) {s t : σ} {outcome : Outcome}
    (ended : apply (Tree.pathOf root) (backupsPath (Tree.pathOf root)) now verifier r s disk = (.ok outcome, t, after)) :
    Home root after.tree ∧ Ended verifier root r s disk outcome t after := by
  unfold apply at ended
  split at ended
  · obtain ⟨rfl, rfl, rfl⟩ := by simpa using ended
    exact ⟨home, .notMade _ _ _ rfl rfl⟩
  · next file resolved =>
    obtain ⟨place, content, mode, absolute, plain, stood, landing⟩ := Replacement.lands resolved
    have off := home.off stood
    split at ended
    · next obstacle disk₁ made =>
      obtain ⟨rfl, rfl, rfl⟩ := by simpa using ended
      have calm := (backUp_spec home plain absolute made).1
      exact ⟨home.calm calm, .notMade _ _ _ rfl (shown_calm calm)⟩
    · next backup disk₁ made =>
      obtain ⟨calm, saved⟩ := backUp_spec home plain absolute made
      obtain ⟨spare, content', mode', rfl, named, inside, copied, still, held⟩ := saved backup rfl
      obtain ⟨rfl, rfl⟩ : content = content' ∧ mode = mode' := by
        rw [stood] at copied
        simpa using copied
      have home₁ := home.calm calm
      have near₁ : Near root place disk.tree disk₁.tree := Near.of_calm calm
      have plain₁ := calm.plain plain
      have apart : ¬ Own root place → spare ≠ place := fun free same => free (.inl (same ▸ inside))
      split at ended
      · next obstacle disk₂ prepared =>
        obtain ⟨rfl, rfl, rfl⟩ := by simpa using ended
        have kept := prepare_tree prepared
        have away := discard_calm (kept ▸ home₁) named inside
        rw [kept] at away
        exact ⟨home₁.calm away, .notMade _ _ _ rfl ((shown_calm away).trans (shown_calm calm))⟩
      · next text disk₂ prepared =>
        have kept := prepare_tree prepared
        have made := prepare_ok prepared absolute plain₁ still
        have fits : r.Fits disk.tree (Tree.pathOf root) place := ⟨landing, content, mode, stood, by simp [made]⟩
        rw [absolute] at ended
        have plain₂ : Plain disk₂.tree place := kept ▸ plain₁
        have write := Disk.write_spec plain₂ text.toUTF8
        have moded := Disk.write_mode plain₂ text.toUTF8 (kept ▸ still : disk₂.tree.get? place = some (.file content mode))
        rw [kept] at write
        have close : ∀ {disk₃ : Disk}, Changed (At place) Nowhere disk₁.tree disk₃.tree →
            Near root place disk.tree disk₃.tree ∧ Plain disk₃.tree place ∧
              (¬ Own root place → disk₃.tree.get? spare = some (.file content mode.copied)) := by
          intro disk₃ change
          refine ⟨near₁.trans (Near.of_at change), change.plain plain₁, fun free => ?_⟩
          rw [change.rest (apart free) id, held]
        split at ended
        · next e disk₃ written =>
          rw [written] at write moded
          obtain ⟨near, plain₃, spared⟩ := close write.1
          obtain ⟨rfl, rfl, home', shown⟩ := takeBack_spec home stood near plain₃ named inside moded spared ended
          exact ⟨home', .notMade _ _ _ rfl shown⟩
        · next disk₃ written =>
          rw [written] at write moded
          obtain ⟨near, plain₃, spared⟩ := close write.1
          obtain ⟨mode', stands, same⟩ := write.2 rfl
          obtain ⟨rfl, -⟩ := same content mode still
          have inPlace : shown root disk₃.tree = r.on place (shown root disk.tree) := by
            rw [on_shown stood made]
            exact shown_near near stood fun _ => stands
          have unmoved := spares s disk₃
          unfold judge at ended
          simp only at ended
          split at ended
          · next passed =>
            obtain ⟨rfl, rfl, rfl⟩ := by simpa using ended
            have home₃ := home.near near off
            have away := @discard_calm root (verifier.verify s disk₃).2.2 spare (unmoved ▸ home₃) named inside
            rw [unmoved] at away
            exact ⟨home₃.calm away, .success place disk₃ _ _ fits inPlace rfl passed (shown_calm away)⟩
          · next failed =>
            rw [← unmoved] at near plain₃ spared moded
            obtain ⟨rfl, rfl, home', shown⟩ := takeBack_spec home stood near plain₃ named inside moded spared ended
            exact ⟨home', .reverted place disk₃ _ _ fits inPlace rfl (by simpa using failed) shown⟩

end

end GatedRepair.Edit

/-!
## Edits up to the removal of their backup

The last thing that an edit does is to remove its backup, unless there is none or the file could not be put back. A trial is
the edit without this last thing (`apply_eq_trial`).
-/

namespace GatedRepair.Edit

open Files

/-- What came of an edit before its backup is removed, and the path of the backup, if there is one to remove. -/
structure Trial (σ : Type) where
  result : Except RestoreError Outcome
  state : σ
  disk : Disk
  backup? : Option String

namespace Trial

variable {σ : Type}

/-- The disk when the backup has been removed. -/
def cleared (t : Trial σ) : Disk := t.backup?.elim t.disk fun backup => discard backup t.disk

/-- What comes of the edit. -/
def applied (t : Trial σ) : Applied σ := (t.result, t.state, t.cleared)

/-- A trial without the record of the judgements. -/
def bare (t : Trial (σ × Record)) : Trial σ := { t with state := t.state.1 }

/-- The removal of the backup succeeds. -/
def Clears (t : Trial σ) : Prop := ∀ backup, t.backup? = some backup → (t.disk.removeFile backup).1 = .ok ()

end Trial

/-- The trial of an edit that is taken back. -/
def withdrawn {σ : Type} (target backup : String) (outcome : Outcome) (s : σ) (disk : Disk) : Trial σ :=
  match reinstate target backup disk with
  | (.ok (), disk) => ⟨.ok outcome, s, disk, some backup⟩
  | (.error e, disk) => ⟨.error e, s, disk, none⟩

/-- The trial of a written edit. -/
def judged {σ : Type} (verifier : Verifier σ) (target backup : String) (s : σ) (disk : Disk) : Trial σ :=
  let (verdict, s, disk) := verifier.verify s disk
  if verdict.passed then ⟨.ok (.success verdict), s, disk, some backup⟩
  else withdrawn target backup (.reverted verdict) s disk

/-- An edit up to the removal of its backup. -/
def trial {σ : Type} (root backups : String) (now : Timestamp) (verifier : Verifier σ) (r : Replacement) (s : σ)
    (disk : Disk) : Trial σ :=
  match disk.tree.resolve root r.file with
  | .error refusal => ⟨.ok (.notMade (.refused refusal)), s, disk, none⟩
  | .ok file =>
    match backUp backups now file disk with
    | (.error obstacle, disk) => ⟨.ok (.notMade obstacle), s, disk, none⟩
    | (.ok backup, disk) =>
      match prepare file r disk with
      | (.error obstacle, disk) => ⟨.ok (.notMade obstacle), s, disk, some backup⟩
      | (.ok content, disk) =>
        match disk.write file.absolute content.toUTF8 with
        | (.error e, disk) => withdrawn file.absolute backup (.notMade (.unwritable file.relative e)) s disk
        | (.ok (), disk) => judged verifier file.absolute backup s disk

section
variable {σ : Type} {target backup : String} {outcome : Outcome} {s : σ} {disk : Disk} {verifier : Verifier σ}

theorem takeBack_eq : takeBack target backup outcome s disk = (withdrawn target backup outcome s disk).applied := by
  unfold takeBack withdrawn
  rw [restore_eq]
  rcases reinstate target backup disk with ⟨e | _, disk₁⟩ <;> rfl

theorem judged_eq : judged verifier target backup s disk =
    if (verifier.verify s disk).1.passed = true then
      ⟨.ok (.success (verifier.verify s disk).1), (verifier.verify s disk).2.1, (verifier.verify s disk).2.2, some backup⟩
    else withdrawn target backup (.reverted (verifier.verify s disk).1) (verifier.verify s disk).2.1
      (verifier.verify s disk).2.2 := rfl

theorem judge_eq_judged : judge verifier target backup s disk = (judged verifier target backup s disk).applied := by
  rw [judge_eq, judged_eq]
  split
  · rfl
  · exact takeBack_eq

/-- An edit is its trial, and then the backup is removed. -/
theorem apply_eq_trial (root backups : String) (now : Timestamp) (verifier : Verifier σ) (r : Replacement) (s : σ)
    (disk : Disk) : apply root backups now verifier r s disk = (trial root backups now verifier r s disk).applied := by
  unfold apply trial
  cases disk.tree.resolve root r.file with
  | error refusal => rfl
  | ok file =>
    simp only
    rcases backUp backups now file disk with ⟨obstacle | backup, disk₁⟩
    · rfl
    · simp only
      rcases prepare file r disk₁ with ⟨obstacle | content, disk₂⟩
      · rfl
      · simp only
        rcases disk₂.write file.absolute content.toUTF8 with ⟨e | _, disk₃⟩
        · exact takeBack_eq
        · exact judge_eq_judged

end

section
variable {τ : Type}

theorem withdrawn_bare (target backup : String) (outcome : Outcome) (s : τ × Record) (disk : Disk) :
    withdrawn target backup outcome s.1 disk = (withdrawn target backup outcome s disk).bare := by
  unfold withdrawn
  split <;> rfl

theorem judged_bare (verifier : Verifier τ) (target backup : String) (s : τ × Record) (disk : Disk) :
    judged verifier target backup s.1 disk = (judged verifier.recorded target backup s disk).bare := by
  rw [judged_eq, judged_eq, verify_recorded]
  split
  · rfl
  · exact withdrawn_bare target backup _ (_, _) _

theorem trial_bare (root backups : String) (now : Timestamp) (verifier : Verifier τ) (r : Replacement) (s : τ × Record)
    (disk : Disk) :
    trial root backups now verifier r s.1 disk = (trial root backups now verifier.recorded r s disk).bare := by
  unfold trial
  split
  · rfl
  · split
    · rfl
    · split
      · rfl
      · split
        · exact withdrawn_bare _ _ _ s _
        · exact judged_bare verifier _ _ s _

end

end GatedRepair.Edit
