import GatedRepair.Proofs.Collection.Silence
import GatedRepair.Proofs.Edit.Gate
import GatedRepair.Proofs.Repair.Turns

/-!
# The gate over a whole batch

At every defect boundary of a batch the working tree shows what it showed at the start, with the accepted edits made in
their order. Each of them was judged once, in its place on top of those before it, and found good (`batch_gated`).
-/

namespace GatedRepair

open Files State Edit Scene

variable {σ τ : Type}

namespace Turn

/-- The edit that a turn tries, and the place for it. -/
def edit? (p : Participants σ τ) (t : Turn σ τ) : Option (Replacement × Location) :=
  match (t.before.proposal p t.defect).consensus with
  | .failed _ => none
  | .selected c _ => do
    let r ← replacement? (t.before.proposal p t.defect).context c
    let place ← r.place? t.before.disk.tree t.before.repair.root
    return (r, place)

/-- A view with the edit of a turn made, if it was accepted. -/
def accepted (p : Participants σ τ) (t : Turn σ τ) (view : View) : View :=
  match t.outcome.result, t.edit? p with
  | .fixed, some (r, place) => r.on place view
  | _, _ => view

/-- How the defect with an identifier came to be fixed, if it is there. -/
def resolutionOf (r : Repair) (id : String) : Option (Option Resolution) := (r.ledger.get? id).map (·.resolution)

/-- What a turn does. A fix was judged once, in its place, and passed. A fix that was judged bad was judged once, and
shows nowhere. What was not made, or not even chosen, was not judged. -/
inductive Gated (p : Participants σ (τ × Record)) (root : Location) (t : Turn σ (τ × Record)) : Prop
  | fixed (r : Replacement) (place : Location) (seen : Disk) (result : t.outcome.result = .fixed)
      (edit : t.edit? p = some (r, place)) (fits : r.Fits t.before.disk.tree t.before.repair.root place)
      (judged : t.after.judged.2 = t.before.judged.2 ++ [(seen.tree, (p.verifier.verify t.before.judged seen).1)])
      (passed : (p.verifier.verify t.before.judged seen).1.passed = true)
      (inPlace : shown root seen.tree = r.on place (shown root t.before.disk.tree))
      (stays : shown root t.after.disk.tree = shown root seen.tree)
      (resolved : resolutionOf t.after.repair t.defect.id = some (some .verified))
      (others : ∀ id, id ≠ t.defect.id → resolutionOf t.after.repair id = resolutionOf t.before.repair id)
  | reverted (r : Replacement) (place : Location) (seen : Disk) (result : t.outcome.result = .reverted)
      (edit : t.edit? p = some (r, place)) (fits : r.Fits t.before.disk.tree t.before.repair.root place)
      (judged : t.after.judged.2 = t.before.judged.2 ++ [(seen.tree, (p.verifier.verify t.before.judged seen).1)])
      (failed : (p.verifier.verify t.before.judged seen).1.passed = false)
      (inPlace : shown root seen.tree = r.on place (shown root t.before.disk.tree))
      (restored : shown root t.after.disk.tree = shown root t.before.disk.tree)
      (unresolved : ∀ id, resolutionOf t.after.repair id = resolutionOf t.before.repair id)
  | notMade (result : t.outcome.result = .failedToApply) (unjudged : t.after.judged.2 = t.before.judged.2)
      (untouched : shown root t.after.disk.tree = shown root t.before.disk.tree)
      (unresolved : ∀ id, resolutionOf t.after.repair id = resolutionOf t.before.repair id)
  | skipped (result : t.outcome.result = .skipped) (unjudged : t.after.judged.2 = t.before.judged.2)
      (untouched : shown root t.after.disk.tree = shown root t.before.disk.tree)
      (ledger : t.after.repair.ledger = t.before.repair.ledger)
      (history : t.after.repair.history = t.before.repair.history)

theorem Gated.shows {p : Participants σ (τ × Record)} {root : Location} {t : Turn σ (τ × Record)} (gated : t.Gated p root) :
    shown root t.after.disk.tree = t.accepted p (shown root t.before.disk.tree) := by
  unfold accepted
  cases gated with
  | fixed r place seen result edit fits judged passed inPlace stays resolved others =>
    rw [result, edit, stays, inPlace]
  | reverted r place seen result edit fits judged failed inPlace restored unresolved => rw [result, restored]
  | notMade result unjudged untouched unresolved => rw [result, untouched]
  | skipped result unjudged untouched ledger history => rw [result, untouched]

/-- Saving the work leaves a turn gated. -/
theorem Gated.saved {p : Participants σ (τ × Record)} {root : Location} {s between : Scene σ (τ × Record)} {d : Defect}
    {outcome : DefectOutcome} (gated : Gated p root ⟨s, d, outcome, between⟩) {disk : Disk}
    (shows : shown root disk.tree = shown root between.disk.tree) :
    Gated p root ⟨s, d, outcome, { between with disk }⟩ := by
  cases gated with
  | fixed r place seen result edit fits judged passed inPlace stays resolved others =>
    exact .fixed r place seen result edit fits judged passed inPlace (shows.trans stays) resolved others
  | reverted r place seen result edit fits judged failed inPlace restored unresolved =>
    exact .reverted r place seen result edit fits judged failed inPlace (shows.trans restored) unresolved
  | notMade result unjudged untouched unresolved => exact .notMade result unjudged (shows.trans untouched) unresolved
  | skipped result unjudged untouched ledger history =>
    exact .skipped result unjudged (shows.trans untouched) ledger history

end Turn

namespace Scene

open Turn

theorem attempted_id {s : Scene σ τ} {attempted : List String} {d : Defect} (next : s.next? attempted = some d) :
    s.repair.ledger.get? d.id = some d := by
  obtain ⟨first, -, found⟩ := Option.bind_eq_some_iff.mp next
  rw [(Ledger.get?_eq_some found).2]
  exact found

/-- A fix is marked on its defect alone. -/
theorem resolutionOf_markFixed {r : Repair} {d : Defect} (there : r.ledger.get? d.id = some d) (details : FixDetails)
    (now : Timestamp) (history : History) :
    resolutionOf { r with ledger := r.ledger.markFixed d.id details now, history := history } d.id = some (some .verified) ∧
      ∀ id, id ≠ d.id →
        resolutionOf { r with ledger := r.ledger.markFixed d.id details now, history := history } id = resolutionOf r id := by
  have found := @Ledger.get?_update (Ledger.withFix details now) (fun _ => rfl) r.ledger d.id
  refine ⟨?_, fun id other => ?_⟩
  · simp [resolutionOf, Ledger.markFixed, found, there, Ledger.withFix]
  · simp [resolutionOf, Ledger.markFixed, found, other]

/-- A failure does not say how a defect came to be fixed. -/
theorem resolutionOf_recordFailure (r : Repair) (id reason : String) (maxAttempts : Nat) (now : Timestamp)
    (history : History) (other : String) :
    resolutionOf { r with ledger := r.ledger.recordFailure id reason maxAttempts now, history := history } other =
      resolutionOf r other := by
  have found := @Ledger.get?_update (Ledger.withFailure reason maxAttempts now) (fun _ => rfl) r.ledger id other
  unfold resolutionOf Ledger.recordFailure
  rw [found]
  split
  · next same =>
    subst same
    rw [Option.map_map]
    rfl
  · rfl

section
variable {p : Participants σ τ} {root : Location} {s after : Scene σ (τ × Record)}

/-- What came of a candidate, in the terms of the edit that it asks for. -/
theorem applyCandidate_gated (spares : Spares p.verifier) (here : s.repair.root = Tree.pathOf root)
    (home : Home root s.disk.tree) {context : FixContext} {c : Candidate} {now : Timestamp} {applied : Edit.Outcome}
    (done : applyCandidate p.recorded s context c now = (.ok applied, after)) :
    Home root after.disk.tree ∧
      ((∃ r, replacement? context c = some r ∧
          Ended p.verifier.recorded root r s.judged s.disk applied after.judged after.disk) ∨
        (∃ obstacle, applied = .notMade obstacle) ∧ after.judged = s.judged ∧ after.disk = s.disk) := by
  have spares' : Spares p.verifier.recorded := fun j disk => spares j.1 disk
  unfold applyCandidate at done
  split at done
  · obtain ⟨rfl, rfl⟩ := by simpa using done
    exact ⟨home, .inr ⟨⟨_, rfl⟩, rfl, rfl⟩⟩
  · next r asked =>
    simp only at done
    rw [here] at done
    obtain ⟨result, rest⟩ := Prod.mk.inj done
    obtain rfl := rest
    have ended : Edit.apply (Tree.pathOf root) (backupsPath (Tree.pathOf root)) now p.verifier.recorded r s.judged s.disk =
        (.ok applied, (Edit.apply (Tree.pathOf root) (backupsPath (Tree.pathOf root)) now p.recorded.verifier r s.judged
          s.disk).2) := Prod.ext result rfl
    obtain ⟨home', gated⟩ := apply_gated spares' home ended
    exact ⟨home', .inl ⟨r, asked, gated⟩⟩

/-- An attempt is gated, before the work is saved. -/
theorem attempt_gated (spares : Spares p.verifier) (here : s.repair.root = Tree.pathOf root) (home : Home root s.disk.tree)
    {number : Nat} {d : Defect} (there : s.repair.ledger.get? d.id = some d) {outcome : DefectOutcome}
    (made : s.attempt p.recorded number d = (.ok outcome, after)) :
    Home root after.disk.tree ∧ after.repair.root = Tree.pathOf root ∧
      Turn.Gated p.recorded root ⟨s, d, outcome, after⟩ := by
  rcases attempt_cases made with ⟨reasons, failed, rfl, rfl⟩ | ⟨c, agreement, applied, tried, selected, done, recorded⟩
  · exact ⟨home, here, .skipped rfl rfl rfl rfl rfl⟩
  · have kept : tried.repair = s.repair := by
      have repair := (applyCandidate_repair p.recorded (s.afterAsking p.recorded d) (s.proposal p.recorded d).context c
        (p.recorded.clock number)).1
      rw [done] at repair
      exact repair
    obtain ⟨home', gated⟩ := @applyCandidate_gated _ _ p root (s.afterAsking p.recorded d) tried spares here home _ _ _ _ done
    have edit : ∀ {r : Replacement} {place : Location}, replacement? (s.proposal p.recorded d).context c = some r →
        r.Fits s.disk.tree (Tree.pathOf root) place →
        Turn.edit? p.recorded ⟨s, d, outcome, after⟩ = some (r, place) ∧ r.Fits s.disk.tree s.repair.root place := by
      intro r place asked fits
      rw [here]
      refine ⟨?_, fits⟩
      have landing := fits.1
      simp only [Turn.edit?, selected, asked, here, landing, Option.bind_eq_bind, Option.bind_some, Option.pure_def]
    rcases gated with ⟨r, asked, ended⟩ | ⟨⟨obstacle, rfl⟩, judged, same⟩
    · cases ended with
      | success place seen _ _ fits inPlace judged passed stays =>
        obtain ⟨edit, fits⟩ := edit asked fits
        obtain ⟨rfl, rfl⟩ := Prod.mk.inj recorded
        obtain ⟨resolved, others⟩ := resolutionOf_markFixed (kept ▸ there)
          ⟨c.strategy.name, c.approach, c.confidence, agreement, p.clock number⟩ (p.clock number)
          (tried.repair.history ++ [Attempt.on (p.ids number) tried.repair.run d c.strategy.name none (p.clock number)])
        have judged' : tried.judged.2 = s.judged.2 ++ [(seen.tree, (p.recorded.verifier.verify s.judged seen).1)] := by
          rw [judged]
          rfl
        refine ⟨home', kept ▸ here, .fixed r place seen rfl edit fits judged' passed inPlace stays resolved ?_⟩
        intro id other
        exact (others id other).trans (congrArg (resolutionOf · id) kept)
      | reverted place seen _ _ fits inPlace judged failed restored =>
        obtain ⟨edit, fits⟩ := edit asked fits
        obtain ⟨rfl, rfl⟩ := Prod.mk.inj recorded
        have judged' : tried.judged.2 = s.judged.2 ++ [(seen.tree, (p.recorded.verifier.verify s.judged seen).1)] := by
          rw [judged]
          rfl
        refine ⟨home', kept ▸ here, .reverted r place seen rfl edit fits judged' failed inPlace restored ?_⟩
        intro id
        rw [← kept]
        exact resolutionOf_recordFailure _ _ _ _ _ _ _
      | notMade obstacle _ _ unjudged untouched =>
        obtain ⟨rfl, rfl⟩ := Prod.mk.inj recorded
        refine ⟨home', kept ▸ here, .notMade rfl (congrArg Prod.snd unjudged) untouched fun id => ?_⟩
        rw [← kept]
        exact resolutionOf_recordFailure _ _ _ _ _ _ _
    · obtain ⟨rfl, rfl⟩ := Prod.mk.inj recorded
      refine ⟨home', kept ▸ here, .notMade rfl (congrArg Prod.snd judged) (by rw [same]; rfl) fun id => ?_⟩
      rw [← kept]
      exact resolutionOf_recordFailure _ _ _ _ _ _ _

/-- Every turn is gated, and leaves the repository one. -/
theorem turn_gated (spares : Spares p.verifier) (here : s.repair.root = Tree.pathOf root) (home : Home root s.disk.tree)
    {attempted : List String} {number : Nat} {d : Defect} {outcome : DefectOutcome}
    (next : s.next? attempted = some d) (made : s.attemptAndSave p.recorded number d = (.ok outcome, after)) :
    Home root after.disk.tree ∧ after.repair.root = Tree.pathOf root ∧
      Turn.Gated p.recorded root ⟨s, d, outcome, after⟩ := by
  obtain ⟨between, disk, attempted, saved, rfl⟩ := attemptAndSave_ok made
  obtain ⟨home', here', gated⟩ := attempt_gated spares here home (attempted_id next) attempted
  have calm := save_calm here' home' (p.clock number)
  rw [show between.repair.save between.disk (p.clock number) = _ from saved] at calm
  exact ⟨home'.calm calm, here', gated.saved (shown_calm calm)⟩

end

section
variable {p : Participants σ τ} {root : Location}

/-- All turns of a row are gated, and what shows in the end is what the accepted edits make of the start. -/
theorem turns_gated (spares : Spares p.verifier) {done : List DefectOutcome} {s last : Scene σ (τ × Record)}
    {turns : List (Turn σ (τ × Record))} (run : Turns p.recorded done s turns last)
    (here : s.repair.root = Tree.pathOf root) (home : Home root s.disk.tree) :
    (∀ t ∈ turns, t.Gated p.recorded root) ∧
      shown root last.disk.tree = turns.foldl (fun view t => t.accepted p.recorded view) (shown root s.disk.tree) := by
  induction run with
  | none => exact ⟨by simp, rfl⟩
  | more going next made rest ih =>
    obtain ⟨home', here', gated⟩ := turn_gated spares here home next made
    obtain ⟨others, shows⟩ := ih here' home'
    refine ⟨?_, ?_⟩
    · intro t member
      rcases List.mem_cons.mp member with rfl | later
      · exact gated
      · exact others t later
    · rw [shows, List.foldl_cons, ← gated.shows]

/-- If the verdict depends on what shows only, a row of turns shows what it showed at first, or what passes. -/
theorem turns_pass (spares : Spares p.verifier) {judge : View → Bool}
    (judges : ∀ j disk, (p.verifier.verify j disk).1.passed = judge (shown root disk.tree)) {done : List DefectOutcome}
    {s last : Scene σ (τ × Record)} {turns : List (Turn σ (τ × Record))} (run : Turns p.recorded done s turns last)
    (here : s.repair.root = Tree.pathOf root) (home : Home root s.disk.tree) :
    shown root last.disk.tree = shown root s.disk.tree ∨ judge (shown root last.disk.tree) = true := by
  induction run with
  | none => exact .inl rfl
  | more going next made rest ih =>
    obtain ⟨home', here', gated⟩ := turn_gated spares here home next made
    rcases ih here' home' with same | passes
    · cases gated with
      | fixed r place seen result edit fits judged passed inPlace stays resolved others =>
        refine .inr ?_
        rw [same, stays, ← judges]
        exact passed
      | reverted r place seen result edit fits judged failed inPlace restored unresolved =>
        exact .inl (same.trans restored)
      | notMade result unjudged untouched unresolved => exact .inl (same.trans untouched)
      | skipped result unjudged untouched ledger history => exact .inl (same.trans untouched)
    · exact .inr passes

/-- The gate over a whole batch. It makes no difference to a batch that the judgements are recorded. If no link stands at a
place of the program or on the way to one, then at every defect boundary the turns before it were gated, and the tree shows
what it showed at the start with the accepted edits made in order; so if the verdict depends on what shows, that is what was
there at the start or what passes. A batch that ends well is such a row of turns, and tells their outcomes. -/
theorem batch_gated (spares : Spares p.verifier) {s : Scene σ τ}
    (there : s.disk.tree.find? s.repair.root = .ok (root, .directory)) (here : s.repair.root = Tree.pathOf root)
    (direct : ∀ x, Own root x ∨ x = root ++ [".git"] ∨ x = info root → ∀ target, s.disk.tree.get? x ≠ some (.link target)) :
    fixBatch p s = ((fixBatch p.recorded s.recording).1, (fixBatch p.recorded s.recording).2.bare) ∧
    (∀ turns boundary, Turns p.recorded [] s.recording.uncounted turns boundary →
      (∀ t ∈ turns, t.Gated p.recorded root) ∧
      shown root boundary.disk.tree = turns.foldl (fun view t => t.accepted p.recorded view) (shown root s.disk.tree) ∧
      ∀ judge : View → Bool, (∀ j disk, (p.verifier.verify j disk).1.passed = judge (shown root disk.tree)) →
        shown root boundary.disk.tree = shown root s.disk.tree ∨ judge (shown root boundary.disk.tree) = true) ∧
    ∀ summary last, fixBatch p.recorded s.recording = (.ok summary, last) →
      ∃ turns, Turns p.recorded [] s.recording.uncounted turns last ∧ summary.outcomes = turns.map Turn.outcome := by
  have home : Home root s.disk.tree := home_of_find? there direct
  refine ⟨fixBatch_recorded p s, fun turns boundary run => ?_, fun summary last run => ?_⟩
  · obtain ⟨gated, shows⟩ := turns_gated spares run here home
    exact ⟨gated, shows, fun judge judges => turns_pass spares judges run here home⟩
  · obtain ⟨turns, run, outcomes, -⟩ := fixMore_ok run
    exact ⟨turns, run, by simpa using outcomes⟩

end

/-- Participants of whom the verifier approves of everything. -/
def approving (backend : Backend Unit) : Participants Unit Unit :=
  ⟨.standard, backend, ⟨fun judged disk => (.pass "", judged, disk)⟩, fun _ _ => false, fun _ => .epoch, .ofNat⟩

theorem approving_spares (backend : Backend Unit) : Spares (approving backend).verifier := fun _ _ => rfl

/-- Work at the root `/r`, on a tree and a ledger. -/
def small (tree : Tree) (ledger : Ledger) : Scene Unit Unit := ⟨⟨"/r", .standard, ledger, [], .ofNat 1⟩, (), (), .sound tree, {}⟩

/-- A fix for the only line of a file is accepted, on a tree where no link stands. -/
theorem only_fix_passes_the_gate :
    let p := approving ⟨"model", fun _ _ => (⟨.ok "APPROACH: guard\nCONFIDENCE: 0.9\n```\nx = 2\n```", 0⟩, ())⟩
    let tree : Tree := ⟨[(["r"], .directory), (["r", "a.py"], .file "x = 1\n".toUTF8 .shared)]⟩
    let s := small tree [{ Ledger.placeless "ts-a" .typeCheck with file := some "a.py", line := some 1 }]
    ∃ turns last, Turns p.recorded [] s.recording.uncounted turns last ∧ turns.map (·.outcome.result) = [.fixed] ∧
      (∀ t ∈ turns, t.Gated p.recorded ["r"]) ∧
      shown ["r"] last.disk.tree = turns.foldl (fun view t => t.accepted p.recorded view) (shown ["r"] tree) := by
  intro p tree s
  have direct : ∀ x, Own ["r"] x ∨ x = ["r"] ++ [".git"] ∨ x = info ["r"] → ∀ target, tree.get? x ≠ some (.link target) := by
    intro x _ target found
    unfold Tree.get? at found
    rw [Tree.lookup_cons_if, Tree.lookup_cons_if] at found
    split_ifs at found <;> simp at found
  obtain ⟨-, boundaries, ends⟩ := @batch_gated _ _ p ["r"] (approving_spares _) s (by decide +kernel) (by decide) direct
  have results : (fixBatch p.recorded s.recording).1.toOption.map (·.outcomes.map (·.result)) = some [.fixed] := by
    decide +kernel
  rcases ended : fixBatch p.recorded s.recording with ⟨result, last⟩
  rw [ended] at results
  cases result with
  | error e => cases results
  | ok summary =>
    obtain ⟨turns, run, outcomes⟩ := ends summary last ended
    obtain ⟨gated, shows, -⟩ := boundaries turns last run
    refine ⟨turns, last, run, ?_, gated, shows⟩
    have fixed : summary.outcomes.map (·.result) = [.fixed] := Option.some.inj results
    rw [← fixed, outcomes, List.map_map]
    rfl

/-- A link at the place of a temporary file leads the program out of its directory: the only attempt is skipped, but the file
that the link names holds the ledger from then on. -/
theorem link_in_state_directory_evades_the_gate :
    let p := approving (.unavailable Unit "offline")
    let tree : Tree := ⟨[(["r"], .directory), (["r", ".remedy"], .directory),
      (["r", ".remedy", "defects.tmp"], .link "../a.py"), (["r", "a.py"], .file "x = 1\n".toUTF8 .shared)]⟩
    let s := small tree [Ledger.placeless "ts-a" .typeCheck]
    (Ledger.ids s.repair.ledger).Nodup ∧ Spares p.verifier ∧ tree.find? s.repair.root = .ok (["r"], .directory) ∧
      ∃ turns last, Turns p.recorded [] s.recording.uncounted turns last ∧ turns.map (·.outcome.result) = [.skipped] ∧
        shown ["r"] last.disk.tree ["r", "a.py"] ≠ shown ["r"] tree ["r", "a.py"] := by
  intro p tree s
  have results : (fixBatch p.recorded s.recording).1.toOption.map (·.outcomes.map (·.result)) = some [.skipped] := by
    decide +kernel
  have changed : shown ["r"] (fixBatch p.recorded s.recording).2.disk.tree ["r", "a.py"] ≠ shown ["r"] tree ["r", "a.py"] := by
    decide +kernel
  rcases ended : fixBatch p.recorded s.recording with ⟨result, last⟩
  rw [ended] at results changed
  cases result with
  | error e => cases results
  | ok summary =>
    obtain ⟨turns, run, outcomes, -⟩ := fixMore_ok ended
    refine ⟨by decide, approving_spares _, by decide +kernel, turns, last, run, ?_, changed⟩
    have skipped : summary.outcomes.map (·.result) = [.skipped] := Option.some.inj results
    rw [← skipped, outcomes, List.nil_append, List.map_map]
    rfl

end Scene

end GatedRepair
