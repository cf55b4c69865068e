import SuiteMigration.Assoc
import SuiteMigration.Commit.Writing
import SuiteMigration.Completion.Assistant
import SuiteMigration.Engine
import SuiteMigration.Reading.Pool

/-!
The configuration of the program: what runs share, and which paths have which roles.
-/

set_option autoImplicit false
set_option relaxedAutoImplicit false

namespace SuiteMigration

open SuiteMigration.Text

namespace Configuration

structure Paths where
  targetRoot : String := "robot"
  /-- The default ones when there are none. -/
  sourceRoots : List String := []
  /-- Directories whose files have a role, by the name of the role. -/
  roles : Assoc (List String) := []
  deriving DecidableEq, Repr

structure Reading where
  maxWorkers : Nat := 3
  minIntervalMs : Nat := 500
  backoffSeconds : List Nat := [20, 30, 40]
  deriving DecidableEq, Repr

structure Committing where
  batchSize : Nat := 10
  retryDelaySeconds : Nat := 5
  deriving DecidableEq, Repr

structure Ai where
  enabled : Bool := false
  provider : String := "openrouter"
  model : String := "anthropic/claude-sonnet-4.5"
  region : Option String := none
  baseUrl : Option String := none
  timeoutSeconds : Nat := 120
  maxTokens : Nat := 8192
  temperature : Float32 := 0.1

end Configuration

structure Configuration where
  library : String := defaultLibrary
  paths : Configuration.Paths := {}
  reading : Configuration.Reading := {}
  committing : Configuration.Committing := {}
  ai : Configuration.Ai := {}

namespace Configuration

/-- The role that a key names; case, hyphens and spaces do not matter. -/
def role? (key : String) : Option Role :=
  let name := (toLower (trim key)).map fun c ↦ if c == '-' || c == ' ' then '_' else c
  Role.all.find? fun role ↦ role.key == name

/-- The paths with given roles, in the order of the roles. Keys that name no role are left out. -/
def rolePaths (c : Configuration) : List (Role × List String) :=
  Role.all.filterMap fun role ↦
    let named := c.paths.roles.filter fun (key, _) ↦ role? key == some role
    if named.isEmpty then none else some (role, named.flatMap Prod.snd)

def readPolicy (c : Configuration) : SuiteMigration.Reading.Policy :=
  { maxWorkers := max c.reading.maxWorkers 1
    minInterval := c.reading.minIntervalMs
    backoff := c.reading.backoffSeconds.map (1000 * ·) }

def commitPolicy (c : Configuration) : Commit.Policy :=
  { batchSize := max c.committing.batchSize 1
    retryDelay := 1000 * c.committing.retryDelaySeconds }

def aiTimeoutSeconds (c : Configuration) : Nat :=
  max c.ai.timeoutSeconds 1

def completionOptions (c : Configuration) : Completion.Options :=
  { provider := c.ai.provider
    model := c.ai.model
    timeoutMs := 1000 * c.aiTimeoutSeconds }

end Configuration

end SuiteMigration
