import GatedRepair.Proofs.Repair.Lifecycle
import GatedRepair.Proofs.State.Loading
import GatedRepair.Proofs.State.Records

/-!
# Opening again after any calls

While a repository is worked on, its state files give what is held in memory at every point between two calls (`Mirrored`):
a call that changes something saves it, a batch saves after each of its turns, and a call that changes nothing leaves the
disk alone. So opening the repository again gives the same ledger and the same history (`Session.reopened_is_same`), if no
links are in the state directory and the confidences in the ledger are read back from their texts.
-/

namespace GatedRepair

open Files State Edit Number Json

/-- The repository that is worked on gives the work when it is opened. -/
structure Mirrored (root : Location) (r : Repair) (tree : Tree) : Prop where
  here : r.root = Tree.pathOf root
  seat : Seat root tree
  storable : ∀ d ∈ r.ledger, d.Storable
  gives : r.ledger.length < bound64 → r.history.length < bound64 → Gives root r.ledger r.history tree

section
variable {root : Location} {r last : Repair} {tree : Tree} {disk after : Disk} {now : Timestamp}

theorem Mirrored.saved (mirrored : Mirrored root r tree) (here : last.root = r.root) (storable : ∀ d ∈ last.ledger, d.Storable)
    (seat : Seat root disk.tree) (saved : last.save disk now = (.ok (), after)) : Mirrored root last after.tree := by
  have here' : last.root = Tree.pathOf root := here.trans mirrored.here
  obtain ⟨seat', gives⟩ := saved_gives here' seat saved
  have each := fun d member => Defect.ofJson?_toJson (storable d member)
  refine ⟨here', seat', storable, fun few few' => gives few few' (fun d member => (each d member).2) _ ?_⟩
  exact list?_ofList fun d member => (each d member).1

end

namespace Scene

section
variable {σ τ : Type} {p : Participants σ τ} {root : Location} {s after : Scene σ τ}

/-- A turn saves what it did. -/
theorem turn_mirrored (polite : Edit.Polite root p.verifier) (few : p.generator.strategies.length < bound64)
    (mirrored : Mirrored root s.repair s.disk.tree) {number : Nat} {d : Defect} {outcome : DefectOutcome}
    (made : s.attemptAndSave p number d = (.ok outcome, after)) : Mirrored root after.repair after.disk.tree := by
  obtain ⟨between, disk, tried, saved, rfl⟩ := attemptAndSave_ok made
  have recorded := attempt_recorded tried
  have kept := @attempt_kept _ _ p root s polite number d
  rw [tried] at kept
  have storable := recorded.storable mirrored.storable fun c agreement selected => storable_details few selected
  exact mirrored.saved recorded.frame.1 storable (mirrored.seat.kept kept) saved

theorem turns_mirrored (polite : Edit.Polite root p.verifier) (few : p.generator.strategies.length < bound64)
    {done : List DefectOutcome} {turns : List (Turn σ τ)} (run : Turns p done s turns after)
    (mirrored : Mirrored root s.repair s.disk.tree) : Mirrored root after.repair after.disk.tree := by
  refine @Turns.invariant _ _ p (fun b => Mirrored root b.repair b.disk.tree) ?_ done s after turns run mirrored
  intro attempted number boundary later d outcome held next made
  exact turn_mirrored polite few held made

end

end Scene

section
variable {root : Location} {r last : Repair} {tree : Tree} {disk after : Disk}

/-- After a call that gives an answer the repository gives the work. -/
theorem Mirrored.call (mirrored : Mirrored root r disk.tree) {call : Call} (polite : call.Polite root) {answer : Answer}
    (made : r.perform disk call = (.ok answer, last, after)) : Mirrored root last after.tree := by
  cases call with
  | ingest outputs now =>
    obtain ⟨summary, incoming, scope, -, told, rfl, saved⟩ := Repair.perform_ingest made
    have storable := Ledger.storable_merge mirrored.storable (fun d member => (told d member).2) scope now
    exact mirrored.saved rfl storable mirrored.seat saved
  | fix p asked judged =>
    obtain ⟨summary, turns, s, -, run, -, -, rfl, rfl⟩ := Repair.perform_fix made
    exact Scene.turns_mirrored polite.1 polite.2 run mirrored
  | unblock id now =>
    obtain ⟨-, ⟨-, rfl, saved⟩ | ⟨-, rfl, rfl⟩⟩ := Repair.perform_unblock made
    · have storable := Ledger.storable_update mirrored.storable (fun d good => good.released now) id
      exact mirrored.saved rfl storable mirrored.seat saved
    · exact mirrored
  | unblockAll now =>
    obtain ⟨-, ⟨rfl, saved⟩ | ⟨-, rfl, rfl⟩⟩ := Repair.perform_unblockAll made
    · have storable := Ledger.storable_map mirrored.storable fun d good => good.released now
      exact mirrored.saved rfl storable mirrored.seat saved
    · exact mirrored

theorem map_ok {ε α β : Type} {x : Except ε α} {f : α → β} {b : β} (given : x.map f = .ok b) : ∃ a, x = .ok a ∧ f a = b := by
  cases x with
  | error e => cases given
  | ok a => exact ⟨a, rfl, Except.ok.inj given⟩

/-- A ledger that was loaded can be stored if the confidences in its fixes are read back. -/
theorem Ledger.storable_of_load {path : String} {now : Timestamp} {ledger : Ledger} {between : Disk}
    (loaded : Ledger.load (.sound tree) path now = (.ok ledger, between))
    (readable : ∀ d ∈ ledger, ∀ f, d.fix = some f → float? (.float f.confidence) = some f.confidence) :
    ∀ d ∈ ledger, d.Storable := by
  rw [ledger_load, (load_result ..).1] at loaded
  have given := congrArg Prod.fst loaded
  obtain ⟨document, found, rfl⟩ := map_ok given
  cases document with
  | none => simp
  | some ledger =>
    unfold verdict at found
    split at found
    · obtain ⟨value, -, read⟩ := Option.bind_eq_some_iff.mp (Except.ok.inj found)
      exact storable_of_ofDocument? read readable
    · cases Except.ok.inj found
    · cases found

end

namespace Session

/-- Calls keep the work mirrored. -/
theorem after?_mirrored {root : Location} {s last : Session} {calls : List Call} (polite : ∀ call ∈ calls, call.Polite root)
    (made : s.after? calls = some last) (mirrored : Mirrored root s.repair s.disk.tree) :
    Mirrored root last.repair last.disk.tree := by
  induction calls generalizing s with
  | nil =>
    obtain rfl := Option.some.inj made
    exact mirrored
  | cons call more ih =>
    obtain ⟨first, others⟩ := List.forall_mem_cons.mp polite
    unfold after? at made
    split at made
    · next answer r disk same => exact ih others made (mirrored.call first same)
    · cases made

/-- After any calls that give answers, whatever faults they met, opening the repository again on a sound disk gives the ledger and
the history that are held. -/
theorem reopened_is_same {root : Location} {tree : Tree} {path again : String} {config : Config} {run : Uuid}
    {now : Timestamp} {r : Repair} {begun disk : Disk} {calls : List Call} {last : Session}
    (there : tree.find? path = .ok (root, .directory))
    (direct : ∀ x, Guarded root x → ∀ target, tree.get? x ≠ some (.link target))
    (opened : Repair.opened (.sound tree) path config run now = (.ok r, begun))
    (readable : ∀ d ∈ r.ledger, ∀ f, d.fix = some f → float? (.float f.confidence) = some f.confidence)
    (same : disk.tree = begun.tree) (polite : ∀ call ∈ calls, call.Polite root)
    (made : after? ⟨r, disk⟩ calls = some last) (few : last.repair.ledger.length < bound64)
    (few' : last.repair.history.length < bound64) (leads : last.disk.tree.canonical again = .ok r.root)
    (config' : Config) (run' : Uuid) (later : Timestamp) :
    ∃ r' after, Repair.opened (.sound last.disk.tree) again config' run' later = (.ok r', after) ∧
      r'.ledger = last.repair.ledger ∧ r'.history = last.repair.history := by
  obtain ⟨here, seat, gives⟩ := opened_gives (seat_of_find? there direct) (canonical_of_find? there) opened
  have storable : ∀ d ∈ r.ledger, d.Storable := by
    obtain ⟨-, -, between, loaded, -⟩ := Repair.opened_ok opened
    exact Ledger.storable_of_load loaded readable
  have mirrored : Mirrored root r disk.tree := by
    rw [same]
    exact ⟨here, seat, storable, fun _ _ => gives⟩
  have kept := after?_mirrored polite made mirrored
  obtain ⟨after, opens⟩ := (kept.gives few few').opens kept.seat (leads.trans (congrArg _ here)) config' run' later
  exact ⟨_, after, opens, rfl, rfl⟩

/-- A defect is reported and attempted in vain, and nobody is released. Opened again, the repository gives the blocked defect and
the attempt. -/
theorem blocked_defect_is_given_again :
    let reply := "APPROACH: guard\nCONFIDENCE: 0.9\n```\n1\n```"
    let people : Participants Unit Unit :=
      ⟨.standard, ⟨"model", fun _ _ => (⟨.ok reply, 0⟩, ())⟩, ⟨fun s disk => (.pass "", s, disk)⟩, fun _ _ => false,
        fun _ => .epoch, .ofNat⟩
    let calls := [.ingest [.saved "tsc" .typeCheck "a.ts(1,5): error TS2322: x"] .epoch, .fix people () (),
      .unblock "nobody" .epoch]
    let tree : Tree := ⟨[(["r"], .directory)]⟩
    let config := { Config.standard with maxAttempts := 1 }
    ∃ r begun last r' after, Repair.opened (.sound tree) "/r" config (.ofNat 1) .epoch = (.ok r, begun) ∧
      after? ⟨r, begun⟩ calls = some last ∧ last.repair.ledger.map (·.status) = [.blocked] ∧
      last.repair.history.map (·.success) = [false] ∧
      Repair.opened (.sound last.disk.tree) "/r" config (.ofNat 2) .epoch = (.ok r', after) ∧
      r'.ledger = last.repair.ledger ∧ r'.history = last.repair.history := by
  intro reply people calls tree config
  have lived : ((Repair.opened (.sound tree) "/r" config (.ofNat 1) .epoch).1.toOption.bind fun r =>
      (after? ⟨r, (Repair.opened (.sound tree) "/r" config (.ofNat 1) .epoch).2⟩ calls).map fun last =>
        (r.ledger.length, last.repair.ledger.map (·.status), last.repair.history.map (·.success),
          (last.disk.tree.canonical "/r").toOption)) = some (0, [.blocked], [false], some "/r") := by
    decide +kernel
  obtain ⟨r, begun, lived⟩ := Option.bind_eq_some_iff.mp lived
  obtain ⟨last, made, ends⟩ := Option.map_eq_some_iff.mp lived
  simp only [Prod.mk.injEq] at ends
  obtain ⟨blank, blocked, failed, leads⟩ := ends
  have opened : Repair.opened (.sound tree) "/r" config (.ofNat 1) .epoch =
      (.ok r, (Repair.opened (.sound tree) "/r" config (.ofNat 1) .epoch).2) := Prod.ext (toOption_eq_some.mp begun) rfl
  have there : tree.find? "/r" = .ok (["r"], .directory) := by decide +kernel
  have polite : ∀ call ∈ calls, call.Polite ["r"] := by
    refine List.forall_mem_cons.mpr ⟨trivial, List.forall_mem_cons.mpr ⟨⟨fun _ _ _ _ => rfl, ?_⟩, ?_⟩⟩
    · decide
    · exact List.forall_mem_singleton.mpr trivial
  have few : last.repair.ledger.length < bound64 := by
    rw [← List.length_map (·.status), blocked]
    decide
  have few' : last.repair.history.length < bound64 := by
    rw [← List.length_map (·.success), failed]
    decide
  have leads : last.disk.tree.canonical "/r" = .ok r.root :=
    (toOption_eq_some.mp leads).trans ((canonical_of_find? there).symm.trans (Repair.opened_ok opened).1)
  obtain ⟨r', after, again, ledger, history⟩ :=
    reopened_is_same there (fun x _ => Tree.get?_ne_link (by simp [tree]) x) opened
      (by simp [List.length_eq_zero_iff.mp blank]) rfl polite made few few' leads config (.ofNat 2) .epoch
  exact ⟨r, _, last, r', after, opened, made, blocked, failed, again, ledger, history⟩

/-- A defect of which nothing is known but that it was reported. -/
def reported : Defect := Defect.new .typeCheck .high (some "a.ts") (some 1) "wrong" .epoch

/-- A repository whose state file is a link to that of the history, which holds a ledger. -/
def linked : Tree :=
  ⟨[(["r"], .directory), (["r", ".remedy"], .directory), (["r", ".remedy", "defects.json"], .link "fix_history.json"),
    (["r", ".remedy", "fix_history.json"], .file (Ledger.document [reported] .epoch).pretty.toUTF8 .shared)]⟩

theorem linked_reads {path : String}
    (leads : (linked.find? path).toOption.map Prod.fst = some ["r", ".remedy", "fix_history.json"]) :
    linked.readText path = .ok (Ledger.document [reported] .epoch).pretty := by
  obtain ⟨⟨location, entry⟩, found, same⟩ := Option.map_eq_some_iff.mp leads
  obtain rfl : location = ["r", ".remedy", "fix_history.json"] := same
  have found := toOption_eq_some.mp found
  have stands := (find?_settled found).2
  simp only [linked, Tree.get?, Tree.lookup_cons_if] at stands
  simp only [List.cons.injEq, String.reduceEq, reduceCtorEq, and_false, and_true, if_false, if_true, Option.some.injEq] at stands
  exact readText_of_find? (stands ▸ found)

/-- The ledger is read along the link, but what the link leads to is no history, and is set aside. -/
theorem linked_ledger_is_lost :
    let opened := fun tree => Repair.opened (.sound tree) "/r" .standard (.ofNat 1) .epoch
    ∃ r begun last r' after, opened linked = (.ok r, begun) ∧ after? ⟨r, begun⟩ [.unblockAll .epoch] = some last ∧
      last.repair.ledger = [reported] ∧ opened last.disk.tree = (.ok r', after) ∧ r'.ledger = [] := by
  intro opened
  have ledgerPath : defectsPath "/r" = "/r/.remedy/defects.json" := by decide +kernel
  have path : historyPath "/r" = "/r/.remedy/fix_history.json" := by decide +kernel
  have holds := @linked_reads "/r/.remedy/defects.json" (by decide +kernel)
  have holds' := @linked_reads "/r/.remedy/fix_history.json" (by decide +kernel)
  have storable : Ledger.Storable [reported] := by
    refine ⟨List.forall_mem_singleton.mpr ⟨?_, ?_, by decide, by decide, ?_⟩, by decide⟩
    · rintro line ⟨⟩
      decide
    · rintro column ⟨⟩
    · rintro fix ⟨⟩
  have proper : Proper (Ledger.document [reported] .epoch) :=
    Ledger.proper_document storable.short .epoch fun d member => (Defect.ofJson?_toJson (storable.each d member)).2
  have rejected : (Json.parse? (Ledger.document [reported] .epoch).pretty).bind History.ofDocument? = none := by
    rw [parse?_pretty proper, Option.bind_some]
    decide +kernel
  have first : Ledger.load (.sound linked) (defectsPath "/r") .epoch = (.ok [reported], .sound linked) := by
    rw [ledgerPath, ledger_load, load_of_readText _ _ _ _ holds (Ledger.ofText?_document storable .epoch)]
    rfl
  obtain ⟨after, aside, leads', unread, unread'⟩ : ∃ after,
      setAside (.sound linked) "/r/.remedy/fix_history.json" .epoch = after ∧ after.tree.canonical "/r" = .ok "/r" ∧
      after.tree.readText "/r/.remedy/defects.json" = .error .notFound ∧
      after.tree.readText "/r/.remedy/fix_history.json" = .error .notFound := by
    refine ⟨_, rfl, ?_⟩
    decide +kernel
  have second : History.load (.sound linked) (historyPath "/r") .epoch = (.ok [], after) := by
    rw [path, history_load, load_of_rejected _ _ _ _ holds' rejected, aside]
    rfl
  obtain ⟨r, same⟩ : ∃ r : Repair, r = ⟨"/r", .standard, [reported], [], .ofNat 1⟩ := ⟨_, rfl⟩
  have begun : opened linked = (.ok r, after) := by
    rw [same]
    exact opened_of_loaded (show (Disk.sound linked).tree.canonical "/r" = .ok "/r" by decide +kernel) first second _ _
  have nobody : r.ledger.blocked = [] := by
    rw [same]
    decide +kernel
  have made : after? ⟨r, after⟩ [.unblockAll .epoch] = some ⟨r, after⟩ := by
    simp [after?, Repair.perform, Repair.unblockAll, Repair.answering, nobody, Except.map]
  have first' : Ledger.load (.sound after.tree) (defectsPath "/r") .epoch = (.ok [], .sound after.tree) := by
    rw [ledgerPath, ledger_load, load_of_missing _ _ _ _ unread]
    rfl
  have second' : History.load (.sound after.tree) (historyPath "/r") .epoch = (.ok [], .sound after.tree) := by
    rw [path, history_load, load_of_missing _ _ _ _ unread']
    rfl
  have leads : (Disk.sound after.tree).tree.canonical "/r" = .ok "/r" := leads'
  exact ⟨r, after, ⟨r, after⟩, _, _, begun, made, by rw [same], opened_of_loaded leads first' second' _ _, rfl⟩

/-- A confidence that was written with more digits than are needed is held as one number and, once it was saved, given as its
neighbour. A link beside the state file takes the file's place when it is saved, and leads to nothing but itself. A state file
that is a link to the history's is read, but when what it leads to is set aside as no history there is nothing left to read. -/
theorem digits_or_link_are_lost :
    let held := fun mantissa => { Defect.new .typeCheck .high (some "a.ts") (some 1) "wrong" .epoch with
      status := .fixed, fix := some ⟨"creative", "guard", ⟨false, mantissa, -53⟩, 0, .epoch⟩ }
    let details := record [("strategy", .text "creative"), ("approach", .text "guard"),
      ("confidence", .number "0.900758917143948067"), ("fixedAt", .timestamp .epoch)]
    let defect := record [("id", .text "ts-a_ts-L1"), ("producerKind", .text "type_check"), ("severity", .text "high"),
      ("filePath", .text "a.ts"), ("line", .nat 1), ("message", .text "wrong"), ("status", .text "fixed"),
      ("createdAt", .timestamp .epoch), ("updatedAt", .timestamp .epoch), ("fixDetails", details)]
    let written := record [("version", .nat 1), ("lastUpdated", .timestamp .epoch), ("defects", .array [defect])]
    let within : String → Entry → Tree := fun name entry =>
      ⟨[(["r"], .directory), (["r", ".remedy"], .directory), (["r", ".remedy", name], entry)]⟩
    let opened := fun tree => Repair.opened (.sound tree) "/r" .standard (.ofNat 1) .epoch
    (∃ r begun last r' after, opened (within "defects.json" (.file written.pretty.toUTF8 .shared)) = (.ok r, begun) ∧
      after? ⟨r, begun⟩ [.ingest [] .epoch] = some last ∧ last.repair.ledger = [held 8113315047200272] ∧
      opened last.disk.tree = (.ok r', after) ∧ r'.ledger = [held 8113315047200271]) ∧
    (∃ r begun last e after, opened (within "defects.tmp" (.link "defects.json")) = (.ok r, begun) ∧
      after? ⟨r, begun⟩ [.ingest [] .epoch] = some last ∧ opened last.disk.tree = (.error e, after)) ∧
    ∃ r begun last r' after, opened linked = (.ok r, begun) ∧ after? ⟨r, begun⟩ [.unblockAll .epoch] = some last ∧
      last.repair.ledger = [reported] ∧ opened last.disk.tree = (.ok r', after) ∧ r'.ledger = [] := by
  intro held details defect written within opened
  refine ⟨?_, ?_, ?_⟩
  · let tree := within "defects.json" (.file written.pretty.toUTF8 .shared)
    have spelled : (numberParts? "0.900758917143948067".toList).isSome = true := by decide +kernel
    have number : Proper (.number "0.900758917143948067") := spelled
    have inner : Proper details := proper_record (by simp [proper_text, proper_timestamp, number])
    have row : Proper defect := proper_record (by simp [proper_text, proper_nat, proper_timestamp, inner])
    have rows : Proper (.array [defect]) := ⟨row, trivial⟩
    have proper : Proper written := proper_record (by simp [proper_nat, proper_timestamp, rows])
    have read : Ledger.ofDocument? written = some [held 8113315047200272] := by decide +kernel
    have holds : tree.readText "/r/.remedy/defects.json" = .ok written.pretty := readText_of_find? rfl
    have first : Ledger.load (.sound tree) (defectsPath "/r") .epoch = (.ok [held 8113315047200272], .sound tree) := by
      have path : defectsPath "/r" = "/r/.remedy/defects.json" := by decide +kernel
      rw [path, ledger_load, load_of_readText _ _ _ _ holds (by rw [parse?_pretty proper, Option.bind_some, read])]
      rfl
    have second : History.load (.sound tree) (historyPath "/r") .epoch = (.ok [], .sound tree) := rfl
    let r : Repair := ⟨"/r", .standard, [held 8113315047200272], [], .ofNat 1⟩
    have leads : (Disk.sound tree).tree.canonical "/r" = .ok "/r" := by decide +kernel
    have begun : opened tree = (.ok r, .sound tree) := opened_of_loaded leads first second _ _
    have made : (after? ⟨r, .sound tree⟩ [.ingest [] .epoch]).map
        (fun s => (s.repair.root, s.repair.ledger, s.repair.history, s.disk.tree.canonical "/r")) =
          some ("/r", r.ledger, [], .ok "/r") := by
      decide +kernel
    obtain ⟨last, made, ends⟩ := Option.map_eq_some_iff.mp made
    simp only [Prod.mk.injEq] at ends
    obtain ⟨here, ledger, history, leads'⟩ := ends
    have saved := ingest_saved made
    have there : tree.find? "/r" = .ok (["r"], .directory) := by decide +kernel
    have seat := seat_of_find? there fun x _ => Tree.get?_ne_link (by simp [tree, within]) x
    have each : ∀ d ∈ last.repair.ledger, Proper d.toJson := by
      have again : Proper (.float ⟨false, 8113315047200272, -53⟩) := by
        have again : (numberParts? (Binary64.text ⟨false, 8113315047200272, -53⟩).toList).isSome = true := by decide +kernel
        simp only [Json.float, Proper, again]
      intro d member
      rw [ledger, List.mem_singleton] at member
      refine Defect.proper_toJson fun f fixed => ?_
      rw [member] at fixed
      obtain rfl := Option.some.inj fixed
      exact again
    have neighbour : list? Defect.ofJson? (ofList Defect.toJson last.repair.ledger) = some [held 8113315047200271] := by
      rw [ledger]
      decide +kernel
    obtain ⟨seat', gives⟩ := saved_gives here seat saved
    have given := gives (by rw [ledger]; decide) (by rw [history]; decide) each _ neighbour
    obtain ⟨after, reopened⟩ := given.opens seat' leads' .standard (.ofNat 1) .epoch
    exact ⟨r, _, last, _, after, begun, made, ledger, reopened, rfl⟩
  · let tree := within "defects.tmp" (.link "defects.json")
    have ended : (opened tree).1.toOption.bind (fun r => (after? ⟨r, (opened tree).2⟩ [.ingest [] .epoch]).map fun last =>
        (opened last.disk.tree).1.toOption.isSome) = some false := by
      decide +kernel
    obtain ⟨r, begun, ended⟩ := Option.bind_eq_some_iff.mp ended
    obtain ⟨last, made, failed⟩ := Option.map_eq_some_iff.mp ended
    rcases again : opened last.disk.tree with ⟨result, after⟩
    rw [again] at failed
    cases result with
    | ok r' => cases failed
    | error e => exact ⟨r, _, last, e, after, Prod.ext (toOption_eq_some.mp begun) rfl, made, again⟩
  · exact linked_ledger_is_lost

end Session

end GatedRepair
