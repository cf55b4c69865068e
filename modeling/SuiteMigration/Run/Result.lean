import SuiteMigration.Completion.Assistant
import SuiteMigration.Engine
import SuiteMigration.Repository.Error
import SuiteMigration.Run.Phase

/-!
What a run reports: one result for each discovered file, and counts of what happened to them.
-/

set_option autoImplicit false
set_option relaxedAutoImplicit false

namespace SuiteMigration.Run

inductive Verdict where
  | success (note : Option String)
  | failed (reason : String)
  deriving DecidableEq, Repr

def Verdict.isSuccess : Verdict → Bool
  | .success _ => true
  | .failed _ => false

def Verdict.reason? : Verdict → Option String
  | .success _ => none
  | .failed reason => some reason

def Verdict.note? : Verdict → Option String
  | .success note => note
  | .failed _ => none

/-- What became of a source file. -/
structure FileResult where
  source : String
  target : Option String
  verdict : Verdict
  deriving DecidableEq, Repr

def FileResult.success (source target : String) (note : Option String) : FileResult :=
  ⟨source, some target, .success note⟩

def FileResult.failed (source : String) (target : Option String) (reason : String) : FileResult :=
  ⟨source, target, .failed reason⟩

structure Summary where
  discovered : Nat := 0
  readFailures : Nat := 0
  transformed : Nat := 0
  transformFailures : Nat := 0
  /-- Files that became placeholders because of an error. -/
  degraded : Nat := 0
  validationFailures : Nat := 0
  /-- Migrated files that were left as they were. -/
  unchanged : Nat := 0
  committed : Nat := 0
  commitFailures : Nat := 0
  batches : Nat := 0
  skeletonFiles : Nat := 0
  deriving DecidableEq, Repr

/-- A discovered file with its result, once there is one. -/
structure Entry where
  file : DiscoveredFile
  result : Option FileResult := none
  deriving DecidableEq, Repr

/-- Sets the result of the file at a path. -/
def Entry.resolve (path : String) (result : FileResult) (e : Entry) : Entry :=
  if e.file.path == path then { e with result := some result } else e

/-- The result of a file; one that no phase has settled failed for the given reason. -/
def Entry.settled (reason : String) (e : Entry) : FileResult :=
  e.result.getD (.failed e.file.path none reason)

/-- The answer to a request. -/
structure Response where
  status : Status
  results : List FileResult
  summary : Summary
  usage : Completion.Usage
  failure : Option Failure

def Response.isSuccess (r : Response) : Bool :=
  r.status.phase == .completed

end SuiteMigration.Run
