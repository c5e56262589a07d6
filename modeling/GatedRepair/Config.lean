import GatedRepair.Collection
import GatedRepair.Fix.Proposal
import GatedRepair.Json.Document
import GatedRepair.Priority
import GatedRepair.Toml.Reader

/-!
# Settings

How a repository is worked on. Everything has a standard value, and values that would stop all work are made good.
-/

namespace GatedRepair

/-- How the language model is reached. The time limit is in seconds. -/
structure BackendConfig where
  model : String
  baseUrl : String
  maxTokens : Nat
  timeLimit : Nat
  keyVariable : String
  deriving DecidableEq, Repr

namespace BackendConfig

def standard : BackendConfig :=
  { model := "anthropic/claude-sonnet-4"
    baseUrl := "https://openrouter.ai/api/v1/chat/completions"
    maxTokens := 4096
    timeLimit := 120
    keyVariable := "OPENROUTER_API_KEY" }

/-- The key that a variable's value holds, if it holds one. -/
def keyOf? (value : Option String) : Option String :=
  (value.map Text.trimmed).filter (· ≠ "")

end BackendConfig

/-- A command that has to succeed for a change to hold. The time limit is in seconds. -/
structure Check where
  name : String
  command : List String
  timeLimit : Nat
  environment : List (String × String)
  deriving DecidableEq, Repr

/-- The command of a check in a repository, if there is one. -/
def Check.command? (root : String) (c : Check) : Option Command :=
  Command.ofLine? c.name root c.command c.timeLimit c.environment

structure Config where
  maxAttempts : Nat
  batchSize : Nat
  radius : Nat
  strategies : List Strategy
  policy : Policy
  backend : BackendConfig
  producers : List Producer
  checks : List Check
  deriving DecidableEq, Repr

namespace Config

def standard : Config :=
  { maxAttempts := 3
    batchSize := Priority.defaultBatchSize
    radius := FixContext.defaultRadius
    strategies := Strategy.all
    policy := .highestConfidence
    backend := .standard
    producers := []
    checks := [] }

/-- The elements of a list, each at its first place only. -/
def firsts (strategies : List Strategy) : List Strategy :=
  strategies.foldl (fun kept s => if kept.contains s then kept else kept ++ [s]) []

/-- The settings with nothing in them that would stop all work: limits are at least one, there are strategies and none
twice, and no command is empty. -/
def validated (c : Config) : Config :=
  { c with
    maxAttempts := max c.maxAttempts 1
    batchSize := max c.batchSize 1
    strategies := firsts (if c.strategies.isEmpty then Strategy.all else c.strategies)
    backend := { c.backend with maxTokens := max c.backend.maxTokens 1, timeLimit := max c.backend.timeLimit 1 }
    producers := c.producers.filter (!·.command.isEmpty)
    checks := c.checks.filter (!·.command.isEmpty) }

/-- The commands that have to succeed in a repository. -/
def suite (c : Config) (root : String) : List Command := c.checks.filterMap (·.command? root)

/-- The generator that the settings ask for. -/
def generator (c : Config) : Generator :=
  { ((Generator.standard.withStrategies c.strategies).withMaxTokens c.backend.maxTokens) with
    radius := c.radius
    policy := c.policy }

end Config

/-!
## Settings in files

The settings are in a file at the root of the repository. What the file leaves out has its standard value, and a file
that does not fit counts as missing.
-/

open Json Number

namespace Producer

def ofJson? (manner : Manner) (value : Json) : Option Producer := do
  let m ← membersIn? manner ["name", "kind", "command", "timeout_secs", "env"] value
  return {
    name := ← m.required "name" text?
    kind := ← m.required "kind" (oneOf? DefectKind.ofName? manner.isNothing)
    command := ← m.required "command" (list? text?)
    timeLimit := ← m.defaulted "timeout_secs" Command.standardLimit (natural? bound64)
    environment := ← m.defaulted "env" [] (dictionary? text?) }

def toJson (p : Producer) : Json :=
  .record [("name", .text p.name), ("kind", .text p.kind.name), ("command", .ofList .text p.command),
    ("timeout_secs", .nat p.timeLimit), ("env", .record (p.environment.map fun (name, value) => (name, .text value)))]

end Producer

namespace Check

def ofJson? (manner : Manner) (value : Json) : Option Check := do
  let m ← membersIn? manner ["name", "command", "timeout_secs", "env"] value
  return {
    name := ← m.required "name" text?
    command := ← m.required "command" (list? text?)
    timeLimit := ← m.defaulted "timeout_secs" Command.standardLimit (natural? bound64)
    environment := ← m.defaulted "env" [] (dictionary? text?) }

def toJson (c : Check) : Json :=
  .record [("name", .text c.name), ("command", .ofList .text c.command), ("timeout_secs", .nat c.timeLimit),
    ("env", .record (c.environment.map fun (name, value) => (name, .text value)))]

end Check

namespace BackendConfig

def ofJson? (manner : Manner) (value : Json) : Option BackendConfig := do
  let m ← membersIn? manner ["model", "base_url", "max_tokens", "timeout_secs", "api_key_env"] value
  return {
    model := ← m.defaulted "model" standard.model text?
    baseUrl := ← m.defaulted "base_url" standard.baseUrl text?
    maxTokens := ← m.defaulted "max_tokens" standard.maxTokens (natural? bound32)
    timeLimit := ← m.defaulted "timeout_secs" standard.timeLimit (natural? bound64)
    keyVariable := ← m.defaulted "api_key_env" standard.keyVariable text? }

def toJson (c : BackendConfig) : Json :=
  .record [("model", .text c.model), ("base_url", .text c.baseUrl), ("max_tokens", .nat c.maxTokens),
    ("timeout_secs", .nat c.timeLimit), ("api_key_env", .text c.keyVariable)]

end BackendConfig

namespace Config

def ofJson? (manner : Manner) (value : Json) : Option Config := do
  let m ← membersIn? manner ["max_attempts", "batch_size", "context_radius", "strategies", "consensus", "reasoning",
    "producers", "verification"] value
  return {
    maxAttempts := ← m.defaulted "max_attempts" standard.maxAttempts (natural? bound32)
    batchSize := ← m.defaulted "batch_size" standard.batchSize (natural? bound64)
    radius := ← m.defaulted "context_radius" standard.radius (natural? bound64)
    strategies := ← m.defaulted "strategies" standard.strategies (list? (oneOf? Strategy.ofName? manner.isNothing))
    policy := ← m.defaulted "consensus" standard.policy (oneOf? Policy.ofName? manner.isNothing)
    backend := ← m.defaulted "reasoning" standard.backend (BackendConfig.ofJson? manner)
    producers := ← m.defaulted "producers" standard.producers (list? (Producer.ofJson? manner))
    checks := ← m.defaulted "verification" standard.checks (list? (Check.ofJson? manner)) }

def toJson (c : Config) : Json :=
  .record [("max_attempts", .nat c.maxAttempts), ("batch_size", .nat c.batchSize), ("context_radius", .nat c.radius),
    ("strategies", .ofList (fun s => .text s.name) c.strategies), ("consensus", .text c.policy.name),
    ("reasoning", c.backend.toJson), ("producers", .ofList Producer.toJson c.producers),
    ("verification", .ofList Check.toJson c.checks)]

/-- The settings that a text spells. -/
def ofText? (text : String) : Option Config :=
  ((Toml.parse? text).bind (ofJson? .toml)).map validated

/-- The name of the file with the settings. -/
def fileName : String := "remedy.toml"

/-- The settings of a repository. -/
def load (tree : Files.Tree) (root : String) : Config :=
  match tree.readText (Path.within root fileName) with
  | .ok text => (ofText? text).getD standard
  | .error _ => standard

end Config

end GatedRepair
