import SuiteMigration.Configuration.Basic
import SuiteMigration.Toml.Document

/-!
Configurations in TOML documents. What a document leaves out has its default, and keys that mean
nothing are ignored; a value of the wrong type spoils the whole document. A section is a table, or
an array with the values of its fields in order.
-/

set_option autoImplicit false
set_option relaxedAutoImplicit false

namespace SuiteMigration.Configuration

open SuiteMigration.Toml

abbrev Decoder (α : Type) := Value → Option α

def text : Decoder String
  | .text s => some s
  | _ => none

def flag : Decoder Bool
  | .boolean b => some b
  | _ => none

/-- A natural number below a bound. -/
def natural (bound : Nat) : Decoder Nat
  | .integer i => if 0 ≤ i && i.toNat < bound then some i.toNat else none
  | _ => none

def count : Decoder Nat :=
  natural (Nat.pow 2 64)

def single : Decoder Float32
  | .real x => some x.toFloat32
  | .integer i =>
      let size := i.natAbs.toUInt64.toFloat32
      some (if i < 0 then -size else size)
  | _ => none

def list {α : Type} (item : Decoder α) : Decoder (List α)
  | .array items | .tables items => items.mapM item
  | _ => none

/-- A table whose values are all of one type. -/
def map {α : Type} (item : Decoder α) : Decoder (Assoc α)
  | .table _ entries => do
      return Assoc.ofList (← entries.mapM fun (key, value) ↦ do return (key, ← item value))
  | _ => none

/-- The values of the fields of a section, as far as they are given. A date is a section without
known fields. -/
def fields (names : List String) : Decoder (List (Option Value))
  | .table _ entries => some (names.map fun name ↦ entries.lookup name)
  | .array items | .tables items => some ((List.range names.length).map fun i ↦ items[i]?)
  | .moment => some (names.map fun _ ↦ none)
  | _ => none

/-- The value of a field, or its default. -/
def field {α : Type} (default : α) (decode : Decoder α) : Option Value → Option α
  | some value => decode value
  | none => some default

def optional {α : Type} (decode : Decoder α) (value : Value) : Option (Option α) :=
  (decode value).map some

def Paths.decode (value : Value) : Option Paths := do
  match ← fields ["target_root", "source_roots", "roles"] value with
  | [root, roots, roles] =>
      let d : Paths := {}
      return { targetRoot := ← field d.targetRoot text root
               sourceRoots := ← field d.sourceRoots (list text) roots
               roles := ← field d.roles (map (list text)) roles }
  | _ => none

def Reading.decode (value : Value) : Option Reading := do
  match ← fields ["max_workers", "min_interval_ms", "backoff_secs"] value with
  | [workers, interval, backoff] =>
      let d : Reading := {}
      return { maxWorkers := ← field d.maxWorkers count workers
               minIntervalMs := ← field d.minIntervalMs count interval
               backoffSeconds := ← field d.backoffSeconds (list count) backoff }
  | _ => none

def Committing.decode (value : Value) : Option Committing := do
  match ← fields ["batch_size", "retry_delay_secs"] value with
  | [size, delay] =>
      let d : Committing := {}
      return { batchSize := ← field d.batchSize count size
               retryDelaySeconds := ← field d.retryDelaySeconds count delay }
  | _ => none

def aiFields : List String :=
  ["enabled", "provider", "model", "region", "base_url", "timeout_secs", "max_tokens",
   "temperature"]

def Ai.decode (value : Value) : Option Ai := do
  match ← fields aiFields value with
  | [enabled, provider, model, region, url, timeout, tokens, temperature] =>
      let d : Ai := {}
      return { enabled := ← field d.enabled flag enabled
               provider := ← field d.provider text provider
               model := ← field d.model text model
               region := ← field d.region (optional text) region
               baseUrl := ← field d.baseUrl (optional text) url
               timeoutSeconds := ← field d.timeoutSeconds count timeout
               maxTokens := ← field d.maxTokens (natural (Nat.pow 2 32)) tokens
               temperature := ← field d.temperature single temperature }
  | _ => none

/-- The configuration of a document. -/
def parse? (document : String) : Option Configuration := do
  let entries ← Toml.parse? document
  return { library := ← field defaultLibrary text (entries.lookup "library")
           paths := ← field {} Paths.decode (entries.lookup "paths")
           reading := ← field {} Reading.decode (entries.lookup "reader")
           committing := ← field {} Committing.decode (entries.lookup "commit")
           ai := ← field {} Ai.decode (entries.lookup "ai") }

end SuiteMigration.Configuration
