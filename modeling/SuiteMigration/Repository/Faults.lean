import SuiteMigration.Assoc
import SuiteMigration.Repository.Basic

/-!
A repository with a script of faults in front. A call takes the next entry of its script; an entry
without fault, or a script that has run out, lets the call through.
-/

set_option autoImplicit false
set_option relaxedAutoImplicit false

namespace SuiteMigration.Repository

structure Faults where
  /-- Faults of the reads of each path. -/
  reads : Assoc (List (Option Error)) := []
  writes : List (Option Error) := []
  listings : List (Option Error) := []
  listBranches : Option Error := none
  createBranch : Option Error := none
  pullRequest : Option Error := none
  deriving Repr

structure Faulty (R : Type) where
  inner : R
  faults : Faults

variable {R α : Type}

/-- Runs an operation on the repository behind the faults. -/
def Faulty.through (f : Faulty R) (operation : R → Except Error α × R) :
    Except Error α × Faulty R :=
  let (result, inner) := operation f.inner
  (result, { f with inner })

/-- A fault, or the operation if there is none. -/
def Faulty.guarded (f : Faulty R) (fault : Option Error) (operation : R → Except Error α × R) :
    Except Error α × Faulty R :=
  match fault with
  | some e => (.error e, f)
  | none => f.through operation

/-- Takes the next fault of the reads of a path. -/
def Faulty.nextRead (f : Faulty R) (path : String) : Option Error × Faulty R :=
  match f.faults.reads.lookup path with
  | some (fault :: rest) =>
      (fault, { f with faults := { f.faults with reads := Assoc.insert path rest f.faults.reads } })
  | _ => (none, f)

def Faulty.nextWrite (f : Faulty R) : Option Error × Faulty R :=
  match f.faults.writes with
  | fault :: rest => (fault, { f with faults := { f.faults with writes := rest } })
  | [] => (none, f)

def Faulty.nextListing (f : Faulty R) : Option Error × Faulty R :=
  match f.faults.listings with
  | fault :: rest => (fault, { f with faults := { f.faults with listings := rest } })
  | [] => (none, f)

instance [Repository R] : Repository (Faulty R) where
  listBranches f := f.guarded f.faults.listBranches Repository.listBranches
  createBranch name base f :=
    f.guarded f.faults.createBranch (Repository.createBranch name base)
  deleteBranch name f := f.through (Repository.deleteBranch name)
  listFiles directory pattern branch f :=
    let (fault, next) := f.nextListing
    next.guarded fault (Repository.listFiles directory pattern branch)
  readFile path branch f :=
    let (fault, next) := f.nextRead path
    next.guarded fault (Repository.readFile path branch)
  writeFile file message branch f :=
    let (fault, next) := f.nextWrite
    next.guarded fault (Repository.writeFile file message branch)
  writesMany f := Repository.writesMany f.inner
  writeFiles files message branch f :=
    let (fault, next) := f.nextWrite
    next.guarded fault (Repository.writeFiles files message branch)
  openPullRequest request f :=
    f.guarded f.faults.pullRequest (Repository.openPullRequest request)

end SuiteMigration.Repository
