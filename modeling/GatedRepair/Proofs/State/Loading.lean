import GatedRepair.Proofs.Files.LastName
import GatedRepair.Proofs.Files.Shape
import GatedRepair.Proofs.Ledger.Sound
import GatedRepair.Proofs.State.Records
import GatedRepair.Proofs.State.Reload

/-!
# What a repository gives when it is opened

What is loaded from a state file on a sound disk depends on what is read there and on nothing else (`load_result`). A file
without a document is moved aside, but counts as missing before and after (`load_again`), and the other state file is read
as before (`load_apart`). So a repository that was opened gives the same ledger and history again (`opened_gives`), and so
does one whose work was saved (`saved_gives`).
-/

namespace GatedRepair.State

open Files Json Number

/-- What loading makes of what is read. -/
def verdict {α : Type} (ofJson? : Json → Option α) (path : String) : Except Failure String → Except StateError (Option α)
  | .ok text => .ok ((Json.parse? text).bind ofJson?)
  | .error .notFound => .ok none
  | .error e => .error (.read path e)

section
variable {α : Type} (ofJson? : Json → Option α) (tree : Tree) (path : String) (now : Timestamp)

theorem load_of_readText {text : String} {value : α} (holds : tree.readText path = .ok text)
    (read : (parse? text).bind ofJson? = some value) :
    load ofJson? (.sound tree) path now = (.ok (some value), .sound tree) := by
  have reads : (Disk.sound tree).readText path = (tree.readText path, .sound tree) := rfl
  unfold load
  simp only [reads, holds, read]

theorem load_of_rejected {text : String} (holds : tree.readText path = .ok text)
    (rejected : (parse? text).bind ofJson? = none) :
    load ofJson? (.sound tree) path now = (.ok none, setAside (.sound tree) path now) := by
  have reads : (Disk.sound tree).readText path = (tree.readText path, .sound tree) := rfl
  unfold load
  simp only [reads, holds, rejected]

theorem load_of_missing (missing : tree.readText path = .error .notFound) :
    load ofJson? (.sound tree) path now = (.ok none, .sound tree) := by
  have reads : (Disk.sound tree).readText path = (tree.readText path, .sound tree) := rfl
  unfold load
  rw [reads, missing]

theorem setAside_sound : ∃ after, setAside (.sound tree) path now = .sound after := by
  unfold setAside
  split
  · exact ⟨tree, rfl⟩
  · next aside _ =>
    unfold Disk.rename Disk.changing
    simp only [Disk.meet, Disk.sound]
    cases Disk.renameIn tree path aside with
    | error e => exact ⟨tree, rfl⟩
    | ok after => exact ⟨after, rfl⟩

/-- Loading gives what is read, and changes the disk only if a text was read that holds no document. -/
theorem load_result : (load ofJson? (.sound tree) path now).1 = verdict ofJson? path (tree.readText path) ∧
    ((load ofJson? (.sound tree) path now).2 = .sound tree ∨
      ∃ text, tree.readText path = .ok text ∧ (Json.parse? text).bind ofJson? = none ∧
        (load ofJson? (.sound tree) path now).2 = setAside (.sound tree) path now) := by
  have reads : (Disk.sound tree).readText path = (tree.readText path, .sound tree) := rfl
  unfold load
  rw [reads]
  cases read : tree.readText path with
  | error e => cases e <;> exact ⟨rfl, .inl rfl⟩
  | ok text =>
    cases document : (Json.parse? text).bind ofJson? with
    | some value => simp only [verdict, document, true_or, and_self]
    | none => exact ⟨by simp only [verdict, document], .inr ⟨text, rfl, document, by simp only [document]⟩⟩

theorem load_sound : ∃ after, (load ofJson? (.sound tree) path now).2 = .sound after := by
  rcases (load_result ofJson? tree path now).2 with same | ⟨text, -, -, aside⟩
  · exact ⟨tree, same⟩
  · rw [aside]
    exact setAside_sound tree path now

end

section
variable {root : Location} {tree : Tree} {α : Type} (ofJson? : Json → Option α) {name : String}

theorem aside_ne (name : String) (now : Timestamp) : aside name now ≠ name := by
  intro same
  have length := congrArg (·.toList.length) same
  simp [toList_aside] at length

theorem ne_aside {name other : String} (some : name.toList ≠ []) (apart : other.toList.head? ≠ name.toList.head?)
    (now : Timestamp) : other ≠ aside name now := by
  intro same
  have first := congrArg (·.toList.head?) same
  simp only [toList_aside] at first
  rw [List.head?_append_of_ne_nil _ some] at first
  exact apart first

theorem load_seat {disk : Disk} (seat : Seat root disk.tree) (good : IsName name)
    (guarded : Guarded root (place root ++ [name])) (now : Timestamp) :
    Seat root (load ofJson? disk (Tree.pathOf (place root ++ [name])) now).2.tree := by
  refine seat.changed_inside (load_changed ofJson? seat good guarded now) ?_
  rintro x (rfl | rfl) <;> exact List.prefix_append _ _

/-- What is loaded from a state file is loaded from it again. -/
theorem load_again (seat : Seat root tree) (good : IsName name) (guarded : Guarded root (place root ++ [name]))
    (now : Timestamp) :
    verdict ofJson? (Tree.pathOf (place root ++ [name]))
        ((load ofJson? (.sound tree) (Tree.pathOf (place root ++ [name])) now).2.tree.readText
          (Tree.pathOf (place root ++ [name]))) =
      verdict ofJson? (Tree.pathOf (place root ++ [name])) (tree.readText (Tree.pathOf (place root ++ [name]))) := by
  have named := named_place seat.named
  have plain : Plain tree (place root ++ [name]) := seat.plain good guarded
  have aimed : Aimed tree (place root ++ [aside name now]) := seat.aimed (isName_aside good now)
  rcases (load_result ofJson? tree (Tree.pathOf (place root ++ [name])) now).2 with same | ⟨text, held, empty, moved⟩
  · rw [same]
    rfl
  · rw [moved]
    unfold setAside
    rw [asidePath?_pathOf named good, held]
    simp only
    have change := (@Disk.rename_spec (.sound tree) _ _ plain aimed).1
    have apart : place root ++ [name] ≠ place root ++ [aside name now] := ne_of_name (aside_ne name now).symm
    by_cases done : ((Disk.sound tree).rename (Tree.pathOf (place root ++ [name]))
        (Tree.pathOf (place root ++ [aside name now]))).1 = .ok ()
    · -- The file is gone, and a missing file counts as one without a document.
      have above : ∀ upper, upper <+: place root ++ [name] → upper ≠ place root ++ [name] →
          ((Disk.sound tree).rename (Tree.pathOf (place root ++ [name]))
            (Tree.pathOf (place root ++ [aside name now]))).2.tree.get? upper = tree.get? upper := by
        intro upper short proper
        refine change.rest ?_ id
        rintro (whole | other)
        · exact proper whole
        · rcases List.prefix_concat_iff.mp (other ▸ short) with same | higher
          · exact apart same.symm
          · exact absurd higher.length_le (by simp)
      rw [readText_gone plain held above (Disk.rename_gone plain aimed apart done)]
      simp only [verdict, empty]
    · have kept : ((Disk.sound tree).rename (Tree.pathOf (place root ++ [name]))
          (Tree.pathOf (place root ++ [aside name now]))).2.tree = tree := Disk.changing_failed done
      rw [kept, held]

/-- Loading one state file leaves another as it is. -/
theorem load_apart (seat : Seat root tree) (good : IsName name) (guarded : Guarded root (place root ++ [name]))
    {other : String} (good' : IsName other) (guarded' : Guarded root (place root ++ [other])) (now : Timestamp)
    (apart : other ≠ name) (apart' : other ≠ aside name now) :
    (load ofJson? (.sound tree) (Tree.pathOf (place root ++ [name])) now).2.tree.readText (Tree.pathOf (place root ++ [other])) =
      tree.readText (Tree.pathOf (place root ++ [other])) := by
  have change := @load_changed root α ofJson? (.sound tree) seat name good guarded now
  refine readText_alike (seat.plain good' guarded') ?_
  intro upper short
  refine change.rest ?_ id
  have only : ∀ another : String, other ≠ another → upper ≠ place root ++ [another] := by
    rintro another different rfl
    rcases List.prefix_concat_iff.mp short with same | higher
    · exact ne_of_name different same.symm
    · exact absurd higher.length_le (by simp)
  rintro (same | same)
  · exact only _ apart same
  · exact only _ apart' same

end

/-! ## Opening again -/

/-- Opening a repository gives such a ledger and such a history. -/
structure Gives (root : Location) (ledger : Ledger) (history : History) (tree : Tree) : Prop where
  ledger : (verdict Ledger.ofDocument? (defectsPath (Tree.pathOf root))
    (tree.readText (defectsPath (Tree.pathOf root)))).map (·.getD []) = .ok ledger
  history : (verdict History.ofDocument? (historyPath (Tree.pathOf root))
    (tree.readText (historyPath (Tree.pathOf root)))).map (·.getD []) = .ok history

theorem ledger_load (disk : Disk) (path : String) (now : Timestamp) : Ledger.load disk path now =
    ((load Ledger.ofDocument? disk path now).1.map (·.getD []), (load Ledger.ofDocument? disk path now).2) := by
  unfold Ledger.load
  rcases load Ledger.ofDocument? disk path now with ⟨result, after⟩
  cases result <;> rfl

theorem history_load (disk : Disk) (path : String) (now : Timestamp) : History.load disk path now =
    ((load History.ofDocument? disk path now).1.map (·.getD []), (load History.ofDocument? disk path now).2) := by
  unfold History.load
  rcases load History.ofDocument? disk path now with ⟨result, after⟩
  cases result <;> rfl

section
variable {root : Location} {tree : Tree} {path : String} {ledger : Ledger} {history : History}

theorem opened_of_loaded {disk between after : Disk} {root : String} {now : Timestamp}
    (leads : disk.tree.canonical path = .ok root) (first : Ledger.load disk (defectsPath root) now = (.ok ledger, between))
    (second : History.load between (historyPath root) now = (.ok history, after)) (config : Config) (run : Uuid) :
    Repair.opened disk path config run now = (.ok ⟨root, config, ledger, history, run⟩, after) := by
  unfold Repair.opened
  simp only [leads, first, second]

/-- A repository that was opened on a sound disk gives the same again. -/
theorem opened_gives (seat : Seat root tree) (leads : tree.canonical path = .ok (Tree.pathOf root)) {config : Config}
    {run : Uuid} {now : Timestamp} {r : Repair} {after : Disk}
    (begun : Repair.opened (.sound tree) path config run now = (.ok r, after)) :
    r.root = Tree.pathOf root ∧ Seat root after.tree ∧ Gives root r.ledger r.history after.tree := by
  obtain ⟨there, -, between, first, second⟩ := Repair.opened_ok begun
  have here : r.root = Tree.pathOf root := Except.ok.inj (there.symm.trans leads)
  have good : IsName "defects.json" := by decide
  have good' : IsName "fix_history.json" := by decide
  have guarded : Guarded root (place root ++ ["defects.json"]) := .inr ⟨_, by simp, rfl⟩
  have guarded' : Guarded root (place root ++ ["fix_history.json"]) := .inr ⟨_, by simp, rfl⟩
  have apart : "defects.json" ≠ aside "fix_history.json" now := ne_aside (by decide) (by decide) now
  rw [here, ledger_load, defectsPath_pathOf seat.named] at first
  rw [here, history_load, historyPath_pathOf seat.named] at second
  obtain ⟨given, rfl⟩ := Prod.mk.inj first
  obtain ⟨given', rfl⟩ := Prod.mk.inj second
  have seat₁ := @load_seat root _ Ledger.ofDocument? _ (.sound tree) seat good guarded now
  have again := load_again Ledger.ofDocument? seat good guarded now
  obtain ⟨tree₁, same⟩ := load_sound Ledger.ofDocument? tree (Tree.pathOf (place root ++ ["defects.json"])) now
  rw [same] at seat₁ again given' ⊢
  have seat₁ : Seat root tree₁ := seat₁
  refine ⟨here, load_seat History.ofDocument? seat₁ good' guarded' now, ⟨?_, ?_⟩⟩
  · have kept := load_apart History.ofDocument? seat₁ good' guarded' good guarded now (by decide) apart
    rw [defectsPath_pathOf seat.named, kept]
    rw [(load_result ..).1] at given
    exact (congrArg (Except.map _) again).trans given
  · have again' := load_again History.ofDocument? seat₁ good' guarded' now
    rw [historyPath_pathOf seat.named, again']
    rw [(load_result ..).1] at given'
    exact given'

/-- A repository is opened with what it gives. -/
theorem Gives.opens (gives : Gives root ledger history tree) (seat : Seat root tree)
    (leads : tree.canonical path = .ok (Tree.pathOf root)) (config : Config) (run : Uuid) (now : Timestamp) :
    ∃ after, Repair.opened (.sound tree) path config run now = (.ok ⟨Tree.pathOf root, config, ledger, history, run⟩, after) := by
  have good : IsName "defects.json" := by decide
  have good' : IsName "fix_history.json" := by decide
  have guarded : Guarded root (place root ++ ["defects.json"]) := .inr ⟨_, by simp, rfl⟩
  have guarded' : Guarded root (place root ++ ["fix_history.json"]) := .inr ⟨_, by simp, rfl⟩
  have apart : "fix_history.json" ≠ aside "defects.json" now := ne_aside (by decide) (by decide) now
  obtain ⟨given, given'⟩ := gives
  have kept := load_apart Ledger.ofDocument? seat good guarded good' guarded' now (by decide) apart
  obtain ⟨tree₁, same⟩ := load_sound Ledger.ofDocument? tree (defectsPath (Tree.pathOf root)) now
  rw [defectsPath_pathOf seat.named] at given same
  rw [same] at kept
  have first : Ledger.load (.sound tree) (defectsPath (Tree.pathOf root)) now = (.ok ledger, .sound tree₁) := by
    rw [ledger_load, defectsPath_pathOf seat.named, same, (load_result ..).1, given]
  have second : (History.load (.sound tree₁) (historyPath (Tree.pathOf root)) now).1 = .ok history := by
    have kept : tree₁.readText (Tree.pathOf (place root ++ ["fix_history.json"])) = _ := kept
    rw [history_load, (load_result ..).1, ← given', historyPath_pathOf seat.named, kept]
  have leads : (Disk.sound tree).tree.canonical path = .ok (Tree.pathOf root) := leads
  rcases loaded : History.load (.sound tree₁) (historyPath (Tree.pathOf root)) now with ⟨result, after⟩
  rw [loaded] at second
  obtain rfl : result = .ok history := second
  exact ⟨after, opened_of_loaded leads first loaded config run⟩

/-- A repository whose work was saved gives the history, and what is read of the defects. -/
theorem saved_gives {r : Repair} {disk after : Disk} {now : Timestamp} (here : r.root = Tree.pathOf root)
    (seat : Seat root disk.tree) (saved : r.save disk now = (.ok (), after)) :
    Seat root after.tree ∧ (r.ledger.length < bound64 → r.history.length < bound64 → (∀ d ∈ r.ledger, Proper d.toJson) →
      ∀ given, list? Defect.ofJson? (ofList Defect.toJson r.ledger) = some given → Gives root given r.history after.tree) := by
  obtain ⟨seat', held, reads⟩ := save_held here seat saved
  obtain ⟨first, reads'⟩ := held.reads
  refine ⟨seat', fun few few' each given read => ⟨?_, ?_⟩⟩
  · simp only [reads', verdict, Ledger.ofText?_of_defects few first read each]
    rfl
  · simp only [reads, verdict, History.ofText?_document few' now]
    rfl

end

end GatedRepair.State

/-!
## What a state file may hold

A state file is read in two stages, and they fail in different ways. A text that holds no document is moved aside, and loading gives
nothing (`Loads.rejected`). But bytes that are no text are an error, and the file stays where it is (`Loads.notText`), so that
loading fails again and again.
-/

namespace GatedRepair.State

open Files Json

/-- A file was moved within its directory to the name under which it is set aside, and all else stayed as it was. -/
structure MovedAside (now : Timestamp) (house : Location) (name : String) (before after : Tree) : Prop where
  gone : after.get? (house ++ [name]) = none
  copy : after.get? (house ++ [aside name now]) = before.get? (house ++ [name])
  rest : ∀ x, x ≠ house ++ [name] → x ≠ house ++ [aside name now] → after.get? x = before.get? x

/-- What loading gives of a file in a directory, whatever bytes it holds. -/
structure Loads {α : Type} (ofJson? : Json → Option (List α)) (path : String) (now : Timestamp) (disk : Disk) (house : Location)
    (name : String) (content : ByteArray) (result : Except StateError (List α) × Disk) : Prop where
  /-- Bytes that are no text are an error, and stay. -/
  notText : String.fromUTF8? content = none → result = (.error (.read path .notText), disk.meet.2)
  document : ∀ text value, String.fromUTF8? content = some text → (parse? text).bind ofJson? = some value →
    result = (.ok value, disk.meet.2)
  /-- A text without a document gives nothing. It is moved aside if the move goes well. -/
  rejected : ∀ text, String.fromUTF8? content = some text → (parse? text).bind ofJson? = none →
    result.1 = .ok [] ∧ ∃ copy, asidePath? path now = some copy ∧
      ((disk.meet.2.rename path copy).1 = .ok () → MovedAside now house name disk.tree result.2.tree) ∧
      ((disk.meet.2.rename path copy).1 ≠ .ok () → result.2.tree = disk.tree)
  /-- The move goes well unless it meets a fault, or a directory stands in the way. -/
  moves : ∀ copy spot, asidePath? path now = some copy → disk.meet.2.meet.1 = none → disk.tree.locate false copy = .ok spot →
    disk.tree.get? spot.place ≠ some .directory → (disk.meet.2.rename path copy).1 = .ok ()

section
variable {path last : String} {front : List Char} {disk : Disk} {house : Location} {now : Timestamp}

theorem asidePath?_cut (cut : CutAt path front last) (good : IsName last) (now : Timestamp) :
    asidePath? path now = some (Path.within (houseOf front) (aside last now)) := by
  rw [asidePath?, cut.fileName?_eq good, Option.map_some, Path.withName, cut.fileName?_eq good, cut.directory?_eq good, Path.within,
    toList_aside, List.append_assoc]

/-- Setting a file aside moves it within its directory, or changes nothing. -/
theorem rename_aside (cut : CutAt path front last) (good : IsName last)
    (found : disk.tree.find? (String.ofList (front ++ ['/'])) = .ok (house, .directory))
    {entry : Entry} (located : disk.tree.locate false path = .ok (.found (house ++ [last]) entry))
    (moved : (disk.rename path (Path.within (houseOf front) (aside last now))).1 = .ok ()) :
    MovedAside now house last disk.tree (disk.rename path (Path.within (houseOf front) (aside last now))).2.tree := by
  rcases Disk.rename_cases disk path (Path.within (houseOf front) (aside last now)) with
    ⟨-, failed⟩ | ⟨origin, entry', spot, from_, -, aim, -, -, some, -, -, after⟩
  · exact absurd moved failed
  · obtain ⟨rfl, rfl⟩ : house ++ [last] = origin ∧ entry = entry' := by simpa using located.symm.trans from_
    have stood := (locate_sound located).2
    have place : spot.place = house ++ [aside last now] := by
      rw [cut.beside found (isName_aside good now) aim, place_spotAt]
    have apart : house ++ [aside last now] ≠ house ++ [last] := ne_of_name (aside_ne last now)
    rw [place, if_neg apart] at after
    have origin : house ++ [last] ≠ [] := by simp
    have target : house ++ [aside last now] ≠ [] := by simp
    refine ⟨?_, ?_, fun x other other' => ?_⟩
    · rw [after, Tree.get?_put target, if_neg apart.symm, Tree.get?_remove origin, if_pos rfl]
    · rw [after, Tree.get?_put target, if_pos rfl, stood]
    · rw [after, Tree.get?_put target, if_neg other', Tree.get?_remove origin, if_neg other]

/-- What loading gives, by the two stages in which the file is read. -/
theorem load_stages {α : Type} (ofJson? : Json → Option (List α)) {place : Location} {content : ByteArray} {mode : Files.Mode}
    (absolute : Path.isAbsolute path.toList = true)
    (located : disk.tree.locate false path = .ok (.found place (.file content mode))) (readable : disk.meet.1 = none) :
    ∃ house name, place = house ++ [name] ∧ Loads ofJson? path now disk house name content
      ((load ofJson? disk path now).1.map (·.getD []), (load ofJson? disk path now).2) := by
  obtain ⟨front, last, cut⟩ := exists_cut absolute
  have stood := (locate_sound located).2
  obtain ⟨good, fits, house, found, rfl⟩ := cut.stands (names_of_found located) (by simp [stood])
  have there := (names_of_found located).find? absolute stood
  have reads : disk.readText path = (disk.tree.readText path, disk.meet.2) := by
    unfold Disk.readText Disk.reading
    simp only [readable, Disk.meet_tree]
  have kept := Disk.meet_tree disk
  refine ⟨house, last, rfl, fun noText => ?_, fun text value decoded document => ?_, fun text decoded rejected => ?_,
    fun copy spot spelt sound aim vacant => ?_⟩
  · have held : disk.tree.readText path = .error .notText := by
      rw [Tree.readText, Disk.read_found there]
      simp only [noText]
    simp only [load, reads, held]
    rfl
  · have held : disk.tree.readText path = .ok text := by
      rw [Tree.readText, Disk.read_found there]
      simp only [decoded]
    simp only [load, reads, held, document]
    rfl
  · have held : disk.tree.readText path = .ok text := by
      rw [Tree.readText, Disk.read_found there]
      simp only [decoded]
    simp only [load, reads, held, rejected]
    refine ⟨rfl, _, asidePath?_cut cut good now, fun moved => ?_, fun failed => ?_⟩
    · have move := rename_aside cut good (kept ▸ found) (kept ▸ located) moved
      rw [kept] at move
      simpa only [setAside, asidePath?_cut cut good now] using move
    · have same : (disk.meet.2.rename path (Path.within (houseOf front) (aside last now))).2.tree = disk.meet.2.tree :=
        Disk.changing_failed failed
      simpa only [setAside, asidePath?_cut cut good now, kept] using same
  · obtain rfl : Path.within (houseOf front) (aside last now) = copy :=
      Option.some.inj ((asidePath?_cut cut good now).symm.trans spelt)
    have some : houseOf front ≠ "" := by simp [houseOf, String.ext_iff]
    have also := isName_aside good now
    exact Disk.rename_well sound (kept.symm ▸ located) (by simp) (kept.symm ▸ aim) (kept.symm ▸ vacant)
      (endsInDots_of_parts (pathParts_within some also) also) (getLast?_within some also)

end

/-- Loading a state file that can be read gives what it holds or, of a text without a document, nothing. It fails just when the
bytes are no text. -/
theorem loads_unless_not_text {disk : Disk} {path : String} {place : Location} {content : ByteArray} {mode : Files.Mode}
    (absolute : Path.isAbsolute path.toList = true)
    (located : disk.tree.locate false path = .ok (.found place (.file content mode))) (readable : disk.meet.1 = none)
    (now : Timestamp) :
    ∃ house name, place = house ++ [name] ∧ Loads Ledger.ofDocument? path now disk house name content (Ledger.load disk path now) ∧
      Loads History.ofDocument? path now disk house name content (History.load disk path now) := by
  obtain ⟨house, name, here, ledger⟩ := @load_stages _ _ now _ Ledger.ofDocument? _ _ _ absolute located readable
  obtain ⟨house', name', here', history⟩ := @load_stages _ _ now _ History.ofDocument? _ _ _ absolute located readable
  obtain ⟨rfl, rfl⟩ : house = house' ∧ name = name' := by simpa using here.symm.trans here'
  rw [← ledger_load] at ledger
  rw [← history_load] at history
  exact ⟨house, name, here, ledger, history⟩

/-- A byte that is no text fails both stores, and a text without a document is moved aside by both. -/
theorem one_byte_fails_brace_moves :
    let path := "/r//defects.json"
    let file := ["r", "defects.json"]
    let broken : Disk := .sound ⟨[(["r"], .directory), (file, .file ⟨#[0xFF]⟩ Mode.shared.closed)]⟩
    let torn : Disk := .sound ⟨[(["r"], .directory), (file, .file "\x7b".toUTF8 Mode.shared.closed)]⟩
    (Ledger.load broken path .epoch = (.error (.read path .notText), broken) ∧
      History.load broken path .epoch = (.error (.read path .notText), broken)) ∧
      MovedAside .epoch ["r"] "defects.json" torn.tree (Ledger.load torn path .epoch).2.tree ∧
      MovedAside .epoch ["r"] "defects.json" torn.tree (History.load torn path .epoch).2.tree := by
  intro path file broken torn
  have absolute : Path.isAbsolute path.toList = true := by decide
  have stands : broken.tree.locate false path = .ok (.found file (.file ⟨#[0xFF]⟩ Mode.shared.closed)) := by decide +kernel
  have stands' : torn.tree.locate false path = .ok (.found file (.file "\x7b".toUTF8 Mode.shared.closed)) := by decide +kernel
  obtain ⟨house, name, here, ledger, history⟩ := loads_unless_not_text absolute stands rfl .epoch
  obtain ⟨house', name', here', ledger', history'⟩ := loads_unless_not_text absolute stands' rfl .epoch
  have split : ["r"] ++ ["defects.json"] = house' ++ [name'] := here'
  obtain ⟨rfl, last⟩ := List.append_inj' split rfl
  obtain rfl : "defects.json" = name' := by simpa using last
  have noText : String.fromUTF8? ⟨#[0xFF]⟩ = none := by decide +kernel
  have text : String.fromUTF8? "\x7b".toUTF8 = some "\x7b" := by decide +kernel
  have copy : asidePath? path .epoch = some "/r/defects.json.corrupt-19700101T000000" := by decide +kernel
  have moved : (torn.meet.2.rename path "/r/defects.json.corrupt-19700101T000000").1 = .ok () := by decide +kernel
  refine ⟨⟨ledger.notText noText, history.notText noText⟩, ?_, ?_⟩
  · obtain ⟨-, other, spelt, moves, -⟩ := ledger'.rejected _ text (by decide +kernel)
    obtain rfl := Option.some.inj (copy.symm.trans spelt)
    exact moves moved
  · obtain ⟨-, other, spelt, moves, -⟩ := history'.rejected _ text (by decide +kernel)
    obtain rfl := Option.some.inj (copy.symm.trans spelt)
    exact moves moved

/-- A state file of one byte that is no text. Loading it fails, and it stays to fail again. -/
theorem undecodable_file_stays :
    let disk : Disk := .sound ⟨[(["r"], .directory), (["r", "defects.json"], .file ⟨#[0xFF]⟩ Mode.shared.closed)]⟩
    let after := (Ledger.load disk "/r/defects.json" .epoch).2
    (Ledger.load disk "/r/defects.json" .epoch).1 = .error (.read "/r/defects.json" .notText) ∧
      after.tree.entries = disk.tree.entries ∧
      (Ledger.load after "/r/defects.json" .epoch).1 = .error (.read "/r/defects.json" .notText) ∧
      (History.load disk "/r/defects.json" .epoch).1 = .error (.read "/r/defects.json" .notText) := by
  decide +kernel

end GatedRepair.State

/-!
## What is saved is loaded as it was

Where a file can be replaced, a ledger or a history that is saved there is loaded from there as it was, in the same order
(`saved_is_loaded`).
-/

namespace GatedRepair

open Files Number Json

namespace State

section
variable {α : Type} {ofJson? : Json → Option α} {tree : Tree} {house : Location} {name beside : String}

/-- A document that is read back from its text can be saved and is loaded again where a file can be replaced. -/
theorem load_save {document : Json} {value : α} (read : (parse? document.pretty).bind ofJson? = some value)
    (replaceable : Replaceable tree house name beside) (later : Timestamp) :
    ∃ after, save document (.sound tree) (Tree.pathOf (house ++ [name])) = (.ok (), .sound after) ∧
      after.readText (Tree.pathOf (house ++ [name])) = .ok document.pretty ∧
      load ofJson? (.sound after) (Tree.pathOf (house ++ [name])) later = (.ok (some value), .sound after) := by
  obtain ⟨after, mode, written, found⟩ := writeAtomic_replaceable replaceable document.pretty
  have holds := readText_of_find? found
  refine ⟨after, ?_, holds, load_of_readText ofJson? after _ later holds read⟩
  unfold save
  simp only [written]

/-- A ledger or a history that is saved where a file can be replaced is loaded from there as it was. -/
theorem saved_is_loaded (replaceable : Replaceable tree house name beside) (now later : Timestamp) :
    (∀ ledger : Ledger, ledger.Storable → ∃ after,
      ledger.save (.sound tree) (Tree.pathOf (house ++ [name])) now = (.ok (), .sound after) ∧
        after.readText (Tree.pathOf (house ++ [name])) = .ok (ledger.document now).pretty ∧
        Ledger.load (.sound after) (Tree.pathOf (house ++ [name])) later = (.ok ledger, .sound after)) ∧
      ∀ history : History, history.length < bound64 → ∃ after,
        history.save (.sound tree) (Tree.pathOf (house ++ [name])) now = (.ok (), .sound after) ∧
          after.readText (Tree.pathOf (house ++ [name])) = .ok (history.document now).pretty ∧
          History.load (.sound after) (Tree.pathOf (house ++ [name])) later = (.ok history, .sound after) := by
  refine ⟨fun ledger storable => ?_, fun history short => ?_⟩
  · obtain ⟨after, saved, holds, loaded⟩ := load_save (Ledger.ofText?_document storable now) replaceable later
    refine ⟨after, saved, holds, ?_⟩
    unfold Ledger.load
    simp only [loaded, Option.getD_some]
  · obtain ⟨after, saved, holds, loaded⟩ := load_save (History.ofText?_document short now) replaceable later
    refine ⟨after, saved, holds, ?_⟩
    unfold History.load
    simp only [loaded, Option.getD_some]

end

/-- In a repository without a state directory, defects with and without a fix and an attempt on record are saved and loaded. -/
theorem fixed_defect_is_loaded :
    let tree : Tree := ⟨[(["r"], .directory)]⟩
    let path := "/r/.remedy/defects.json"
    let fix : FixDetails := ⟨"creative", "guard \"ß\"\n", ⟨false, 3 * 2 ^ 51, -53⟩, 2, .epoch⟩
    let known := fun line => Defect.new .typeCheck .high (some "a.ts") (some line) "wrong" .epoch
    let ledger := [Ledger.withFix fix .epoch (known 2), known 1]
    let history : History := [Attempt.on (.ofNat 1) (.ofNat 2) (known 2) "creative" (some "\t") .epoch]
    Ledger.Storable ledger ∧ history.length < bound64 ∧
      (∃ after, Ledger.save ledger (.sound tree) path .epoch = (.ok (), .sound after) ∧
        Ledger.load (.sound after) path .epoch = (.ok ledger, .sound after)) ∧
      ∃ after, history.save (.sound tree) path .epoch = (.ok (), .sound after) ∧
        History.load (.sound after) path .epoch = (.ok history, .sound after) := by
  intro tree path fix known ledger history
  have passable : ∀ name ∈ ["defects.json", "defects.tmp"], Passable (place ["r"] ++ [name]) := by
    simp only [List.forall_mem_cons]
    exact ⟨⟨by decide, by decide, by decide, by decide, by decide⟩,
      ⟨by decide, by decide, by decide, by decide, by decide⟩, by simp⟩
  have way : Open tree (place ["r"]) := ((open_root tree).append (by decide : _ ∨ _)).append (by decide : _ ∨ _)
  have beside : Disk.temporary (Tree.pathOf (place ["r"] ++ ["defects.json"])) = Tree.pathOf (place ["r"] ++ ["defects.tmp"]) :=
    (congrArg Disk.temporary (defectsPath_pathOf (by decide))).symm.trans (temporary_defects (by decide))
  have replaceable : Replaceable tree (place ["r"]) "defects.json" "defects.tmp" :=
    ⟨passable _ (by simp), passable _ (by simp), beside, way, vacant_of_missing (by decide), vacant_of_missing (by decide),
      fun _ _ there => by cases there⟩
  have spelled : Tree.pathOf (place ["r"] ++ ["defects.json"]) = path := by decide
  have storable : Ledger.Storable ledger := by
    have readable : fix.Storable := (FixDetails.storable_iff fix).mpr ⟨by decide +kernel, by decide⟩
    have fresh : ∀ line < bound64, (known line).Storable := by
      intro line small
      have none : 0 < bound32 := by decide
      refine ⟨?_, ?_, none, none, ?_⟩
      · rintro _ ⟨⟩
        exact small
      · rintro _ ⟨⟩
      · rintro _ ⟨⟩
    refine ⟨?_, by decide⟩
    simp only [ledger, List.forall_mem_cons]
    exact ⟨(fresh 2 (by decide)).withFix .epoch readable, fresh 1 (by decide), by simp⟩
  have short : history.length < bound64 := by decide
  obtain ⟨ledgers, histories⟩ := saved_is_loaded replaceable .epoch .epoch
  obtain ⟨after, saved, -, loaded⟩ := ledgers ledger storable
  obtain ⟨after', saved', -, loaded'⟩ := histories history short
  rw [spelled] at saved loaded saved' loaded'
  exact ⟨storable, short, ⟨after, saved, loaded⟩, after', saved', loaded'⟩

end State

end GatedRepair
