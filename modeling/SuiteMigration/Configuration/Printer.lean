import SuiteMigration.Configuration.Basic
import SuiteMigration.Json
import SuiteMigration.Text.Decimal

/-!
The TOML document of a configuration.
-/

set_option autoImplicit false
set_option relaxedAutoImplicit false

namespace SuiteMigration.Configuration

/-- A character of a basic text: a quote, a backslash and controls are escaped. -/
def printChar (c : Char) : List Char :=
  if c.toNat == 127 then ['\\', 'u', '0', '0', '7', 'f'] else Json.quoteChar c

def printText (s : String) : String :=
  String.ofList (['"'] ++ s.toList.flatMap printChar ++ ['"'])

def printList {α : Type} (item : α → String) (items : List α) : String :=
  "[" ++ String.intercalate ", " (items.map item) ++ "]"

def printSingle (x : Float32) : String :=
  if x.isNaN then "nan"
  else if x.isInf then if x < 0 then "-inf" else "inf"
  else Text.expansion x.toFloat

def printOptional (key : String) (value : Option String) : List String :=
  match value with
  | some s => [key ++ " = " ++ printText s]
  | none => []

def Paths.print (p : Paths) : List String :=
  ["[paths]",
   "target_root = " ++ printText p.targetRoot,
   "source_roots = " ++ printList printText p.sourceRoots,
   "[paths.roles]"] ++
  p.roles.map fun (key, directories) ↦ printText key ++ " = " ++ printList printText directories

def Reading.print (r : Reading) : List String :=
  ["[reader]",
   s!"max_workers = {r.maxWorkers}",
   s!"min_interval_ms = {r.minIntervalMs}",
   "backoff_secs = " ++ printList (fun n : Nat ↦ toString n) r.backoffSeconds]

def Committing.print (c : Committing) : List String :=
  ["[commit]",
   s!"batch_size = {c.batchSize}",
   s!"retry_delay_secs = {c.retryDelaySeconds}"]

def Ai.print (a : Ai) : List String :=
  ["[ai]",
   "enabled = " ++ (if a.enabled then "true" else "false"),
   "provider = " ++ printText a.provider,
   "model = " ++ printText a.model] ++
  printOptional "region" a.region ++ printOptional "base_url" a.baseUrl ++
  [s!"timeout_secs = {a.timeoutSeconds}",
   s!"max_tokens = {a.maxTokens}",
   "temperature = " ++ printSingle a.temperature]

/-- The document of a configuration. -/
def print (c : Configuration) : String :=
  String.join ((["library = " ++ printText c.library] ++ c.paths.print ++ c.reading.print ++
    c.committing.print ++ c.ai.print).map (· ++ "\n"))

/-- Whether two configurations agree; what is no number agrees with nothing. -/
def agrees (a b : Configuration) : Bool :=
  a.library == b.library && a.paths == b.paths && a.reading == b.reading &&
    a.committing == b.committing && a.ai.enabled == b.ai.enabled &&
    a.ai.provider == b.ai.provider && a.ai.model == b.ai.model && a.ai.region == b.ai.region &&
    a.ai.baseUrl == b.ai.baseUrl && a.ai.timeoutSeconds == b.ai.timeoutSeconds &&
    a.ai.maxTokens == b.ai.maxTokens && a.ai.temperature == b.ai.temperature

end SuiteMigration.Configuration
