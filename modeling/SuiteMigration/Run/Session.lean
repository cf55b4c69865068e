import SuiteMigration.Reading.Pool
import SuiteMigration.Run.Result

/-!
The state of a run, and steps on it. A step ends with a value, with a failure of the run or with a
crash; what it has done to the state until then stays.
-/

set_option autoImplicit false
set_option relaxedAutoImplicit false

namespace SuiteMigration.Run

structure Session (R : Type) where
  repo : R
  /-- Milliseconds since the start of the run. -/
  now : Nat := 0
  /-- The reads of files so far. -/
  calls : List Reading.Call := []
  /-- The reports to the observer so far. -/
  events : List Event := []
  status : Status := {}
  entries : List Entry := []
  summary : Summary := {}
  assistant : Option Completion.Assistant := none

/-- Why a run ends before its time. -/
inductive Stop where
  | failure (f : Failure)
  | crash (message : String)

/-- The failure that is reported for a stopped run. -/
def Stop.toFailure : Stop → Failure
  | .failure f => f
  | .crash message => ⟨.internal, "unexpected internal error: " ++ message⟩

abbrev Step (R : Type) := ExceptT Stop (StateM (Session R))

variable {R : Type}

/-- Reports to the observer, whose crash ends the run. -/
def notify (observer : Observer) (event : Event) : Step R Unit := do
  let session ← get
  set { session with events := session.events ++ [event] }
  match observer session.events.length event with
  | some message => throw (.crash message)
  | none => return ()

/-- Enters a phase. -/
def enter (phase : Phase) (percent : Nat) : Step R Unit :=
  modify fun s ↦ { s with status := s.status.enter phase percent }

/-- Enters a phase and reports it. -/
def announce (observer : Observer) (message : String) (phase : Phase) (percent : Nat) :
    Step R Unit := do
  enter phase percent
  notify observer ⟨message, phase, (← get).status.percent⟩

/-- Sets the result of the file at a path. -/
def resolve (path : String) (result : FileResult) : Step R Unit :=
  modify fun s ↦ { s with entries := s.entries.map (Entry.resolve path result) }

def count (update : Summary → Summary) : Step R Unit :=
  modify fun s ↦ { s with summary := update s.summary }

/-- Calls the repository. -/
def access {α : Type} (operation : R → Except Repository.Error α × R) :
    Step R (Except Repository.Error α) := do
  let session ← get
  let (result, repo) := operation session.repo
  set { session with repo }
  return result

/-- Calls the repository; its error ends the run. -/
def accessOr {α : Type} (failure : Repository.Error → Failure)
    (operation : R → Except Repository.Error α × R) : Step R α := do
  match ← access operation with
  | .ok a => return a
  | .error e => throw (.failure (failure e))

/-- Reads a single file. -/
def readBack [Repository R] (path branch : String) : Step R (Except Repository.Error String) := do
  modify fun s ↦ { s with calls := s.calls ++ [⟨s.now, path, branch⟩] }
  access (Repository.readFile path (some branch))

end SuiteMigration.Run
