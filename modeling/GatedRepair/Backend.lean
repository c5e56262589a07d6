import GatedRepair.Json.Document
import GatedRepair.Json.Reader
import GatedRepair.Text.Character
import GatedRepair.Text.Lines

/-!
# Access to a language model

A backend answers a request with a text or with the reason why there is none.
-/

namespace GatedRepair

/-- Why a request to a language model has no answer. -/
inductive BackendError where
  | unavailable (reason : String)
  | timeout (seconds : Nat)
  | rateLimited (retries : Nat)
  | http (status : Nat) (body : String)
  | invalidResponse (reason : String)
  deriving DecidableEq, Repr

def BackendError.message : BackendError → String
  | .unavailable reason => "reasoning backend unavailable: " ++ reason
  | .timeout seconds => "reasoning request timed out after " ++ seconds.repr ++ "s"
  | .rateLimited retries => "rate limited after " ++ retries.repr ++ " retries"
  | .http status body => "HTTP " ++ status.repr ++ ": " ++ body
  | .invalidResponse reason => "invalid response: " ++ reason

/-- One request: the rules, the task, and the largest answer that is wanted. -/
structure Request where
  system : String
  user : String
  maxTokens : Nat
  deriving DecidableEq, Repr

/-- The answer to a request. -/
abbrev Response := Except BackendError String

/-- An answer and how long it took, in milliseconds. -/
structure Reply where
  response : Response
  delay : Nat

/-- One who answers requests and remembers a state. -/
structure Backend (σ : Type) where
  name : String
  ask : σ → Request → Reply × σ

namespace Backend

/-- Stands in for a backend that cannot be reached. It refuses every request. -/
def unavailable (σ : Type) (reason : String) : Backend σ where
  name := "unavailable"
  ask := fun s _ => (⟨.error (.unavailable reason), 0⟩, s)

end Backend

end GatedRepair

/-!
## Asking a chat service

A request is posted to a service, and posted again after a wait as long as the service asks for patience, but only so
many times.
-/

namespace GatedRepair.Chat

/-!
### The bodies of chat answers

A good answer is a JSON document with a list of choices, of which the first one counts. An answer that asks for patience
may say for how many seconds.
-/

open Json Number Text

/-- The content of a choice's message. -/
def choiceContent? (choice : Json) : Option (Option String) := do
  let message ← (← members? ["message"] choice).required "message" some
  (← members? ["content"] message).defaulted "content" none (option? text?)

/-- The contents of the choices in a document. -/
def contents? (document : Json) : Option (List (Option String)) := do
  (← members? ["choices"] document).required "choices" (list? choiceContent?)

/-- The most characters of a body that are shown. -/
def shownLimit : Nat := 200

/-- The response in a good answer's body, where `complain` tells what the reader of documents has to say about a text that it
cannot read. -/
def responseOf (complain : String → String) (body : String) : Response :=
  match (Json.parse? body).bind contents? with
  | none => .error (.invalidResponse (complain body ++ ": " ++ truncate body shownLimit))
  | some contents =>
    match contents.head?.join with
    | some content =>
      if allBlank content.toList then .error (.invalidResponse "empty completion") else .ok content
    | none => .error (.invalidResponse "empty completion")

/-- Waits of this many seconds and more are not taken from an answer. -/
def hintBound : Nat := 300

/-- The most words after the first one in which a number is looked for. -/
def hintWords : Nat := 5

/-- The number in a word, from its first digit to its last. -/
def numberIn? (word : List Char) : Option Nat :=
  let other := fun c => !isAsciiDigit c
  ofDigits? bound64 (dropEndWhile other (word.dropWhile other))

/-- The seconds to wait that a body asks for: the first sensible number in the words after `retry`. -/
def retryHint? (body : String) : Option Nat :=
  match fromFirst? "retry".toList (lowercase body.toList) with
  | none => none
  | some rest =>
    ((((words rest).drop 1).take hintWords).filterMap numberIn?).find? fun n => 0 < n && n < hintBound

end GatedRepair.Chat

/-! ### Requests -/

namespace GatedRepair

/-- What is posted. The time limit is in seconds. -/
structure Post where
  url : String
  timeLimit : Nat
  headers : List (String × String)
  body : Json

/-- Why no whole answer arrived. -/
structure TransportError where
  reason : String
  timedOut : Bool
  deriving DecidableEq, Repr

/-- What came of a post: a status and a body. -/
abbrev Arrival := Except TransportError (Nat × String)

/-- One who carries posts and remembers a state. -/
structure Transport (σ : Type) where
  post : σ → Post → Arrival × σ

namespace Chat

/-- Whom to ask for what model, and the key that opens the service. The time limit is in seconds. -/
structure Settings where
  key : String
  model : String
  url : String
  timeLimit : Nat
  deriving DecidableEq, Repr

/-- The request as it is posted. -/
def Settings.postOf (s : Settings) (r : Request) : Post :=
  let message := fun (role content : String) => Json.record [("role", .text role), ("content", .text content)]
  { url := s.url
    timeLimit := s.timeLimit
    headers := [("Content-Type", "application/json"), ("X-Title", "remedy"), ("Authorization", "Bearer " ++ s.key)]
    body := .record [("model", .text s.model), ("messages", .array [message "system" r.system, message "user" r.user]),
      ("max_tokens", .nat r.maxTokens), ("stream", .bool false)] }

/-- The error that a failed post amounts to. -/
def Settings.errorOf (s : Settings) (e : TransportError) : BackendError :=
  if e.timedOut then .timeout s.timeLimit else .unavailable e.reason

/-- How often a request is posted again. -/
def maxRetries : Nat := 3

/-- The seconds to wait before a request is posted again, unless the service says how many: two, and twice as many each
time. -/
def standardWait (retry : Nat) : Nat := 2 * Nat.pow 2 retry

/-- What a request came to, and the waits on the way, in seconds. -/
structure Exchange where
  response : Response
  waits : List Nat

section
variable (complain : String → String)

/-- The verdict on an answer that does not ask for patience. -/
def verdictOf (status : Nat) (body : String) : Response :=
  if 200 ≤ status ∧ status < 300 then responseOf complain body else .error (.http status (Text.truncate body shownLimit))

/-- Posts a request that has been posted again so many times, and may be as many times more. -/
def exchangeFrom {σ : Type} (settings : Settings) (transport : Transport σ) (post : Post) (retries : Nat) :
    Nat → σ → Exchange × σ
  | left, s =>
    match transport.post s post with
    | (.error e, s) => (⟨.error (settings.errorOf e), []⟩, s)
    | (.ok (status, body), s) =>
      if status ≠ 429 then (⟨verdictOf complain status body, []⟩, s)
      else match left with
        | 0 => (⟨.error (.rateLimited retries), []⟩, s)
        | left + 1 =>
          let wait := (retryHint? body).getD (standardWait retries)
          let (rest, s) := exchangeFrom settings transport post (retries + 1) left s
          (⟨rest.response, wait :: rest.waits⟩, s)

/-- Posts a request until there is a response. -/
def exchange {σ : Type} (settings : Settings) (transport : Transport σ) (r : Request) (s : σ) : Exchange × σ :=
  exchangeFrom complain settings transport (settings.postOf r) 0 maxRetries s

/-- The service as a backend. -/
def backend {σ : Type} (settings : Settings) (transport : Transport σ) : Backend σ where
  name := "openrouter"
  ask := fun s r =>
    let (e, s) := exchange complain settings transport r s
    (⟨e.response, e.waits.foldl (· + ·) 0 * 1000⟩, s)

/-- The service as a backend, unless the means to reach it could not be had for some reason. -/
def backend? {σ : Type} (settings : Settings) (transport : Except String (Transport σ)) : Except BackendError (Backend σ) :=
  match transport with
  | .ok transport => .ok (backend complain settings transport)
  | .error reason => .error (.unavailable ("HTTP client: " ++ reason))

end

end Chat

end GatedRepair
