import SuiteMigration.Mode
import SuiteMigration.Role

/-!
What a run is asked to do.
-/

set_option autoImplicit false
set_option relaxedAutoImplicit false

namespace SuiteMigration.Run

structure AiSettings where
  enabled : Bool := false
  provider : String := ""
  model : String := ""
  region : Option String := none
  deriving DecidableEq, Repr

structure Request where
  operation : Operation := .migration
  sourceBranch : String := "main"
  /-- The branch for the output; a new name is made when there is none. -/
  targetBranch : Option String := none
  /-- Directories to search; all of the repository when there are none. -/
  sourcePaths : List String := []
  /-- Paths whose files have a given role. -/
  rolePaths : List (Role × List String) := []
  targetRoot : String := "robot"
  mode : Mode := .enhanced
  tier : Tier := .quickRefresh
  force : Bool := false
  ai : AiSettings := {}
  batchSize : Nat := 10
  dryRun : Bool := false
  createPullRequest : Bool := false
  deriving Repr

/-- The branch that the files of a run are read from. -/
def Request.readBranch (r : Request) : String :=
  match r.operation with
  | .transformation => r.targetBranch.getD r.sourceBranch
  | _ => r.sourceBranch

end SuiteMigration.Run
