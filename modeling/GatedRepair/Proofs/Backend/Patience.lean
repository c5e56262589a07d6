import GatedRepair.Backend
import Mathlib.Algebra.Ring.Nat
import Mathlib.Data.List.Basic

/-!
# How patient a request is

A service that asks for patience is asked again, three times at most. So a request is posted once for each answer that asks
for patience and once more, with one wait between two posts, and the first other answer decides; after four answers that ask
for patience it is given up (`exchange_is_bounded`). Every wait is the one the service asked for, if that is between one and
299 seconds, and else twice as long each time.
-/

namespace GatedRepair

/-- Carries posts by a script, the first post to the first arrival, and remembers the posts. -/
def Transport.scripted (script : Nat → Arrival) : Transport (List Post) where
  post := fun sent post => (script sent.length, sent ++ [post])

/-- Something arrived that does not ask for patience. -/
def Arrival.Decides (arrival : Arrival) : Prop := ∀ body, arrival ≠ .ok (429, body)

/-- The body of an answer. -/
def Arrival.body : Arrival → String
  | .ok (_, body) => body
  | .error _ => ""

theorem Arrival.asks_or_decides (arrival : Arrival) : arrival = .ok (429, arrival.body) ∨ arrival.Decides := by
  by_cases asks : arrival = .ok (429, arrival.body)
  · exact .inl asks
  · refine .inr fun body same => asks ?_
    rw [same]
    rfl

namespace Chat

/-- What something that does not ask for patience amounts to. -/
def verdict (complain : String → String) (settings : Settings) : Arrival → Response
  | .error e => .error (settings.errorOf e)
  | .ok (status, body) =>
    if 200 ≤ status ∧ status < 300 then responseOf complain body else .error (.http status (Text.truncate body 200))

/-- The seconds to wait after so many answers that ask for patience, of which the last one has this body. -/
def waitAfter (answers : Nat) (body : String) : Nat := (retryHint? body).getD (2 ^ answers)

section
variable {σ : Type} {complain : String → String} {settings : Settings} {transport : Transport σ} {post : Post} {s s' : σ}

/-! ## One post -/

theorem exchangeFrom_decided {arrival : Arrival} (arrived : transport.post s post = (arrival, s'))
    (decides : arrival.Decides) (retries left : Nat) :
    exchangeFrom complain settings transport post retries left s = (⟨verdict complain settings arrival, []⟩, s') := by
  unfold exchangeFrom
  rw [arrived]
  cases arrival with
  | error e => rfl
  | ok answer =>
    obtain ⟨status, body⟩ := answer
    have other : status ≠ 429 := by
      rintro rfl
      exact decides body rfl
    simp only [if_pos other]
    rfl

theorem exchangeFrom_given_up {body : String} (arrived : transport.post s post = (.ok (429, body), s')) (retries : Nat) :
    exchangeFrom complain settings transport post retries 0 s = (⟨.error (.rateLimited retries), []⟩, s') := by
  unfold exchangeFrom
  rw [arrived]
  rfl

theorem standardWait_eq (retry : Nat) : standardWait retry = 2 ^ (retry + 1) := (Nat.pow_succ' (n := retry) (m := 2)).symm

theorem exchangeFrom_again {body : String} (arrived : transport.post s post = (.ok (429, body), s')) (retries left : Nat) :
    exchangeFrom complain settings transport post retries (left + 1) s =
      let rest := exchangeFrom complain settings transport post (retries + 1) left s'
      (⟨rest.1.response, waitAfter (retries + 1) body :: rest.1.waits⟩, rest.2) := by
  rw [waitAfter, ← standardWait_eq]
  conv_lhs => unfold exchangeFrom
  rw [arrived]
  rfl

theorem ask_eq (complain : String → String) (settings : Settings) (transport : Transport σ) (s : σ) (r : Request) :
    (backend complain settings transport).ask s r =
      let outcome := exchange complain settings transport r s
      (⟨outcome.1.response, outcome.1.waits.sum * 1000⟩, outcome.2) := by
  dsimp only
  rw [List.sum_eq_foldl]
  rfl

/-! ## Hints -/

theorem retryHint?_bounds {body : String} {seconds : Nat} (hint : retryHint? body = some seconds) :
    1 ≤ seconds ∧ seconds ≤ 299 := by
  unfold retryHint? at hint
  split at hint
  · cases hint
  · have sensible := List.find?_some hint
    simp only [Bool.and_eq_true, decide_eq_true_eq] at sensible
    exact ⟨sensible.1, Nat.le_of_lt_succ sensible.2⟩

end

/-! ## A row of posts -/

section
variable {complain : String → String} {settings : Settings} {script : Nat → Arrival} {bodies : Nat → String}

/-- The waits after the first answers that ask for patience, from one on. -/
def waitsFrom (retries : Nat) (bodies : Nat → String) (count : Nat) : List Nat :=
  (List.range count).map fun i => waitAfter (retries + i + 1) (bodies i)

theorem waitsFrom_succ (retries count : Nat) : waitsFrom retries bodies (count + 1) =
    waitAfter (retries + 1) (bodies 0) :: waitsFrom (retries + 1) (fun i => bodies (i + 1)) count := by
  simp only [waitsFrom, List.range_succ_eq_map, List.map_cons, List.map_map, Nat.add_zero]
  congr 1
  refine List.map_congr_left fun i _ => ?_
  rw [Function.comp_apply, Nat.succ_eq_add_one, Nat.add_right_comm retries 1 i, Nat.add_assoc retries i 1]

/-- The posts go on through answers that ask for patience. The induction is on those; what was sent before and the retries that
are left move along. -/
theorem exchangeFrom_asked {asked left : Nat} (complain : String → String) (settings : Settings) (post : Post) (sent : List Post) (retries : Nat)
    (patience : ∀ i < asked, script (sent.length + i) = .ok (429, bodies i)) (enough : asked ≤ left) :
    exchangeFrom complain settings (.scripted script) post retries left sent =
      let rest := exchangeFrom complain settings (.scripted script) post (retries + asked) (left - asked)
        (sent ++ List.replicate asked post)
      (⟨rest.1.response, waitsFrom retries bodies asked ++ rest.1.waits⟩, rest.2) := by
  induction asked generalizing left sent retries bodies with
  | zero => simp [waitsFrom]
  | succ asked ih =>
    obtain ⟨left, rfl⟩ : ∃ fewer, left = fewer + 1 := ⟨left - 1, by omega⟩
    have first : (Transport.scripted script).post sent post = (.ok (429, bodies 0), sent ++ [post]) := by
      rw [← patience 0 (by omega)]
      rfl
    have later : ∀ i < asked, script ((sent ++ [post]).length + i) = .ok (429, bodies (i + 1)) := by
      intro i less
      rw [← patience (i + 1) (by omega), List.length_append, List.length_singleton]
      congr 1
      omega
    rw [exchangeFrom_again first, ih (sent ++ [post]) (retries + 1) later (by omega), waitsFrom_succ]
    have posts : sent ++ [post] ++ List.replicate asked post = sent ++ List.replicate (asked + 1) post := by
      rw [List.append_assoc, List.replicate_succ, List.singleton_append]
    rw [posts, show retries + 1 + asked = retries + (asked + 1) by omega, show left + 1 - (asked + 1) = left - asked by omega]
    rfl

/-- What comes after answers that ask for patience is settled by the next thing that arrives. -/
theorem exchange_asked {r : Request} {asked : Nat} (enough : asked ≤ 3)
    (patience : ∀ i < asked, script i = .ok (429, bodies i)) :
    exchange complain settings (.scripted script) r [] =
      let rest := exchangeFrom complain settings (.scripted script) (settings.postOf r) asked (3 - asked)
        (List.replicate asked (settings.postOf r))
      (⟨rest.1.response, waitsFrom 0 bodies asked ++ rest.1.waits⟩, rest.2) := by
  have asks : ∀ i < asked, script (([] : List Post).length + i) = .ok (429, bodies i) := by simpa using patience
  have whole := exchangeFrom_asked complain settings (settings.postOf r) [] 0 asks enough
  rwa [List.nil_append, Nat.zero_add] at whole

theorem post_scripted (script : Nat → Arrival) (post : Post) (count : Nat) :
    (Transport.scripted script).post (List.replicate count post) post =
      (script count, List.replicate (count + 1) post) := by
  simp [Transport.scripted, List.replicate_succ']

theorem exchange_decided {r : Request} {k : Nat} (few : k ≤ 3) (patience : ∀ i < k, script i = .ok (429, bodies i))
    (decides : (script k).Decides) : exchange complain settings (.scripted script) r [] =
      (⟨verdict complain settings (script k), waitsFrom 0 bodies k⟩, List.replicate (k + 1) (settings.postOf r)) := by
  rw [exchange_asked few patience, exchangeFrom_decided (post_scripted script _ k) decides]
  simp

theorem exchange_given_up {r : Request} (patience : ∀ i < 4, script i = .ok (429, bodies i)) :
    exchange complain settings (.scripted script) r [] =
      (⟨.error (.rateLimited 3), waitsFrom 0 bodies 3⟩, List.replicate 4 (settings.postOf r)) := by
  have last := post_scripted script (settings.postOf r) 3
  rw [patience 3 (by decide)] at last
  rw [exchange_asked (Nat.le_refl 3) fun i less => patience i (by omega), exchangeFrom_given_up last]
  simp

/-- Of the first things that arrive, either all ask for patience or there is a first one that does not. -/
theorem asked_or_decided (script : Nat → Arrival) (count : Nat) :
    (∀ i < count, script i = .ok (429, (script i).body)) ∨
      ∃ k < count, (∀ i < k, script i = .ok (429, (script i).body)) ∧ (script k).Decides := by
  induction count with
  | zero => exact .inl (by simp)
  | succ count ih =>
    rcases ih with all | ⟨k, less, before, decides⟩
    · rcases (script count).asks_or_decides with asks | decides
      · refine .inl fun i less => ?_
        rcases Nat.lt_succ_iff_lt_or_eq.mp less with earlier | rfl
        · exact all i earlier
        · exact asks
      · exact .inr ⟨count, Nat.lt_succ_self count, all, decides⟩
    · exact .inr ⟨k, Nat.lt_succ_of_lt less, before, decides⟩

theorem verdict_of_failure (complain : String → String) (settings : Settings) {status : Nat}
    (failure : ¬(200 ≤ status ∧ status < 300)) (body : String) :
    ∃ shown, verdict complain settings (.ok (status, body)) = .error (.http status shown) ∧ shown.length ≤ 200 ∧
      (body.length ≤ 200 → shown = body) ∧ (200 < body.length → shown.toList = body.toList.take 197 ++ ['.', '.', '.']) := by
  refine ⟨Text.truncate body 200, if_neg failure, Text.length_truncate_le body 200, fun short => ?_, fun long => ?_⟩
  · exact if_pos short
  · rw [← String.length_toList] at long
    rw [Text.truncate, if_neg (Nat.not_le.mpr long), if_neg (by decide), String.toList_ofList]

/-- What a backend replies under any script. A request is posted four times at most. The first thing that arrives and does not
ask for patience, if it is among the first four, decides; before it there is a post and a wait for each answer that asks for
patience. If the first four ask for patience, there are four posts and three waits, and the request is given up. A wait is as
long as the answer before it asks for, which is between one and 299 seconds, or else two seconds, four and eight. Of the body
of an answer that is no success no more than 200 characters are told. -/
theorem exchange_is_bounded (complain : String → String) (settings : Settings) (script : Nat → Arrival) (r : Request) :
    let outcome := exchange complain settings (.scripted script) r []
    (backend complain settings (.scripted script)).ask [] r = (⟨outcome.1.response, outcome.1.waits.sum * 1000⟩, outcome.2) ∧
      outcome.2.length ≤ 4 ∧
      (∀ (k : Nat) (bodies : Nat → String), k ≤ 3 → (∀ i < k, script i = .ok (429, bodies i)) → (script k).Decides →
        outcome = (⟨verdict complain settings (script k), (List.range k).map fun i => waitAfter (i + 1) (bodies i)⟩,
          List.replicate (k + 1) (settings.postOf r))) ∧
      (∀ bodies : Nat → String, (∀ i < 4, script i = .ok (429, bodies i)) →
        outcome = (⟨.error (.rateLimited 3), (List.range 3).map fun i => waitAfter (i + 1) (bodies i)⟩,
          List.replicate 4 (settings.postOf r))) ∧
      (∀ body seconds, retryHint? body = some seconds → 1 ≤ seconds ∧ seconds ≤ 299) ∧
      ∀ status body, ¬(200 ≤ status ∧ status < 300) →
        ∃ shown, verdict complain settings (.ok (status, body)) = .error (.http status shown) ∧ shown.length ≤ 200 ∧
          (body.length ≤ 200 → shown = body) ∧
          (200 < body.length → shown.toList = body.toList.take 197 ++ ['.', '.', '.']) := by
  intro outcome
  refine ⟨ask_eq complain settings _ [] r, ?_, fun k bodies few patience decides => ?_, fun bodies patience => ?_,
    fun body seconds => retryHint?_bounds, fun status body failure => verdict_of_failure complain settings failure body⟩
  · rcases asked_or_decided script 4 with patience | ⟨k, few, patience, decides⟩
    · simp [outcome, exchange_given_up patience]
    · have posts : outcome.2 = List.replicate (k + 1) (settings.postOf r) := by
        rw [show outcome = _ from exchange_decided (by omega) patience decides]
      rw [posts, List.length_replicate]
      omega
  · simpa [waitsFrom] using exchange_decided few patience decides
  · simpa [waitsFrom] using exchange_given_up patience

/-- The service asks for twelve seconds and then for more than it gets, and answers the third post. Another one asks for
patience forever and is given up. A third one fails with 300 characters after the first wait, and a line breaks, or takes too
long, at once. -/
theorem third_post_is_answered :
    let complain := fun _ : String => "no document"
    let settings : Settings := ⟨"key", "model", "url", 120⟩
    let r : Request := ⟨"rules", "task", 100⟩
    let good := "\x7b\"choices\":[\x7b\"message\":\x7b\"content\":\"fine\"\x7d\x7d]\x7d"
    let long := String.ofList (List.replicate 300 'x')
    let bodies := fun | 0 => "Please retry after 12 seconds" | _ => "retry in 9000 s"
    let script : Nat → Arrival := fun | 2 => .ok (200, good) | n => .ok (429, bodies n)
    let failing : Nat → Arrival := fun | 1 => .ok (500, long) | n => .ok (429, bodies n)
    let outcome := fun script => exchange complain settings (.scripted script) r []
    ((∀ i < 2, script i = .ok (429, bodies i)) ∧ (script 2).Decides ∧ (∀ i < 1, failing i = .ok (429, bodies i)) ∧
        (failing 1).Decides ∧ ¬(200 ≤ 500 ∧ 500 < 300) ∧ retryHint? (bodies 0) = some 12) ∧
      ((outcome script).1.response = .ok "fine" ∧ (outcome script).1.waits = [12, 4] ∧ (outcome script).2.length = 3) ∧
      ((outcome fun n => .ok (429, bodies n)).1.response = .error (.rateLimited 3) ∧
        (outcome fun n => .ok (429, bodies n)).1.waits = [12, 4, 8]) ∧
      (∃ shown, (outcome failing).1.response = .error (.http 500 shown) ∧ shown.length ≤ 200 ∧
        shown.toList = long.toList.take 197 ++ ['.', '.', '.'] ∧ (outcome failing).1.waits = [12]) ∧
      (outcome fun _ => .error ⟨"broken", false⟩).1.response = .error (.unavailable "broken") ∧
      (outcome fun _ => .error ⟨"slow", true⟩).1.response = .error (.timeout 120) ∧ 1 ≤ 12 ∧ 12 ≤ 299 := by
  intro complain settings r good long bodies script failing outcome
  have patience : ∀ i < 2, script i = .ok (429, bodies i) := by decide
  have decides : (script 2).Decides := nofun
  have patience' : ∀ i < 1, failing i = .ok (429, bodies i) := by decide
  have decides' : (failing 1).Decides := nofun
  have failure : ¬(200 ≤ 500 ∧ 500 < 300) := by decide
  have hint : retryHint? (bodies 0) = some 12 := by decide +kernel
  have hint' : retryHint? (bodies 1) = none := by decide +kernel
  have content : responseOf complain good = .ok "fine" := by decide +kernel
  have first : waitAfter 1 (bodies 0) = 12 := by rw [waitAfter, hint, Option.getD_some]
  have second : waitAfter 2 (bodies 1) = 4 := congrArg (Option.getD · 4) hint'
  have third : waitAfter 3 (bodies 2) = 8 := congrArg (Option.getD · 8) hint'
  have atOnce : ∀ e, (outcome fun _ => .error e).1.response = .error (settings.errorOf e) := fun e =>
    congrArg (·.1.response) ((exchange_is_bounded complain settings (fun _ => .error e) r).2.2.1 0 bodies (by decide) nofun nofun)
  have answered := (exchange_is_bounded complain settings script r).2.2.1 2 bodies (by decide) patience decides
  have gaveUp := (exchange_is_bounded complain settings (fun n => .ok (429, bodies n)) r).2.2.2.1 bodies fun _ _ => rfl
  obtain ⟨-, -, broke, -, sensible, cut⟩ := exchange_is_bounded complain settings failing r
  have broke := broke 1 bodies (by decide) patience' decides'
  obtain ⟨shown, told, short, -, dots⟩ := cut 500 long failure
  have size : 200 < long.length := by
    rw [show long = _ from rfl, String.length_ofList, List.length_replicate]
    decide
  have waits : (List.range 2).map (fun i => waitAfter (i + 1) (bodies i)) = [12, 4] :=
    congrArg₂ (fun a b => [a, b]) first second
  have waits' : (List.range 3).map (fun i => waitAfter (i + 1) (bodies i)) = [12, 4, 8] := by
    show [waitAfter 1 (bodies 0), waitAfter 2 (bodies 1), waitAfter 3 (bodies 2)] = [12, 4, 8]
    rw [first, second, third]
  have waits'' : (List.range 1).map (fun i => waitAfter (i + 1) (bodies i)) = [12] := congrArg (fun a => [a]) first
  rw [waits] at answered
  rw [waits'] at gaveUp
  rw [waits''] at broke
  refine ⟨⟨patience, decides, patience', decides', failure, hint⟩, ⟨?_, ?_, ?_⟩, ⟨?_, ?_⟩, ⟨shown, ?_, short, dots size, ?_⟩,
    atOnce _, atOnce _, sensible _ _ hint⟩
  · rw [show outcome script = _ from answered, ← content]
    rfl
  · rw [show outcome script = _ from answered]
  · rw [show outcome script = _ from answered]
    rfl
  · rw [show outcome _ = _ from gaveUp]
  · rw [show outcome _ = _ from gaveUp]
  · rw [show outcome failing = _ from broke, ← told]
    rfl
  · rw [show outcome failing = _ from broke]

end

/-! ## How long a run is kept waiting -/

section
variable {σ : Type} (complain : String → String) (settings : Settings) (transport : Transport σ)

theorem waitAfter_le {answers : Nat} (few : answers ≤ 3) (body : String) : waitAfter answers body ≤ 299 := by
  unfold waitAfter
  cases hint : retryHint? body with
  | none =>
    rw [Option.getD_none]
    exact Nat.le_trans (Nat.pow_le_pow_right (by decide) few) (by decide)
  | some seconds => exact (retryHint?_bounds hint).2

/-- Whoever carries the posts, there is at most one wait for each retry that is left, and none is long. -/
theorem waits_exchangeFrom (post : Post) {retries left : Nat} (few : retries + left ≤ 3) (s : σ) :
    (exchangeFrom complain settings transport post retries left s).1.waits.sum ≤ 299 * left := by
  induction left generalizing retries s with
  | zero =>
    rcases arrived : transport.post s post with ⟨arrival, s'⟩
    rcases arrival.asks_or_decides with asks | decides
    · rw [exchangeFrom_given_up (asks ▸ arrived), List.sum_nil]
      exact Nat.zero_le _
    · rw [exchangeFrom_decided arrived decides, List.sum_nil]
      exact Nat.zero_le _
  | succ left ih =>
    rcases arrived : transport.post s post with ⟨arrival, s'⟩
    rcases arrival.asks_or_decides with asks | decides
    · have first := waitAfter_le (show retries + 1 ≤ 3 by omega) arrival.body
      have others := ih (show retries + 1 + left ≤ 3 by omega) s'
      rw [exchangeFrom_again (asks ▸ arrived), List.sum_cons]
      omega
    · rw [exchangeFrom_decided arrived decides, List.sum_nil]
      exact Nat.zero_le _

/-- No request keeps a run waiting for fifteen minutes or more, not counting the posts themselves. -/
theorem delay_ask_le (s : σ) (r : Request) : ((backend complain settings transport).ask s r).1.delay ≤ 897 * 1000 := by
  rw [ask_eq]
  exact Nat.mul_le_mul_right 1000 (waits_exchangeFrom complain settings transport (settings.postOf r) (show 0 + 3 ≤ 3 by decide) s)

end

end Chat

end GatedRepair
