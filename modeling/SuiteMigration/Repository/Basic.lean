import SuiteMigration.Repository.Error

/-!
What a run needs of a repository: branches with files, commits and pull requests. Every operation
gives a result and the repository afterwards.
-/

set_option autoImplicit false
set_option relaxedAutoImplicit false

namespace SuiteMigration

/-- A file to be written to a repository. -/
structure FileWrite where
  path : String
  content : String
  deriving DecidableEq, Repr

namespace Repository

/-- A file of a listing; its size is in bytes, if it is known. -/
structure FileHandle where
  path : String
  size : Option Nat
  deriving DecidableEq, Repr

structure PullRequest where
  title : String
  body : String
  head : String
  base : String
  deriving DecidableEq, Repr

end Repository

open Repository in
/-- Access to a repository whose state is of type `R`. -/
class Repository (R : Type) where
  listBranches : R → Except Error (List String) × R
  createBranch : (name base : String) → R → Except Error Unit × R
  deleteBranch : (name : String) → R → Except Error Unit × R
  /-- The files at or below a directory whose names match a pattern. Without a branch, the default
  one is read. -/
  listFiles : (directory pattern : String) → (branch : Option String) → R →
    Except Error (List FileHandle) × R
  readFile : (path : String) → (branch : Option String) → R → Except Error String × R
  /-- Writes one file as a commit and gives the commit's name. -/
  writeFile : (file : FileWrite) → (message branch : String) → R → Except Error String × R
  /-- Whether several files can be written as one commit. -/
  writesMany : R → Bool
  writeFiles : (files : List FileWrite) → (message branch : String) → R → Except Error String × R
  /-- Opens a pull request and gives its address. -/
  openPullRequest : PullRequest → R → Except Error String × R

namespace Repository

def missingBranch (branch : String) : Error :=
  ⟨.notFound, "branch '" ++ branch ++ "' does not exist"⟩

variable {R α : Type}

/-- A result with the changed repository, or an error that changes nothing. -/
def keepOnError (r : R) : Except Error (α × R) → Except Error α × R
  | .ok (a, next) => (.ok a, next)
  | .error e => (.error e, r)

/-- Whether a file can be read; any failure but a missing file stays a failure. -/
def fileExists [Repository R] (path : String) (branch : Option String) (r : R) :
    Except Error Bool × R :=
  match Repository.readFile path branch r with
  | (.ok _, next) => (.ok true, next)
  | (.error e, next) => (if e.kind == .notFound then .ok false else .error e, next)

end Repository

end SuiteMigration
