/-!
The phases of a run, and what an observer sees of them.
-/

set_option autoImplicit false
set_option relaxedAutoImplicit false

namespace SuiteMigration.Run

inductive Phase where
  | notStarted
  | validating
  | analyzing
  | transforming
  | generating
  | committing
  | completed
  | failed
  deriving DecidableEq, Repr

def Phase.text : Phase → String
  | .notStarted => "Ready"
  | .validating => "Validating access..."
  | .analyzing => "Analyzing sources..."
  | .transforming => "Transforming..."
  | .generating => "Generating skeleton..."
  | .committing => "Committing..."
  | .completed => "Complete!"
  | .failed => "Failed"

/-- The name of a phase in data. -/
def Phase.key : Phase → String
  | .notStarted => "not_started"
  | .validating => "validating"
  | .analyzing => "analyzing"
  | .transforming => "transforming"
  | .generating => "generating"
  | .committing => "committing"
  | .completed => "completed"
  | .failed => "failed"

/-- Whether no phase follows. -/
def Phase.isTerminal : Phase → Bool
  | .completed | .failed => true
  | _ => false

/-- How far a run has come. -/
structure Status where
  phase : Phase := .notStarted
  percent : Nat := 0
  /-- The branch that the output goes to. -/
  branch : Option String := none
  pullRequest : Option String := none
  deriving DecidableEq, Repr

/-- Enters a phase; the percentage is at most 100. -/
def Status.enter (s : Status) (phase : Phase) (percent : Nat) : Status :=
  { s with phase, percent := min percent 100 }

/-- The percentage of a phase that covers `span` from `start` on. -/
def scaled (start span done total : Nat) : Nat :=
  if total == 0 then start else start + min (span * done / total) span

/-- A report to the observer. -/
structure Event where
  message : String
  phase : Phase
  percent : Nat
  deriving DecidableEq, Repr

/-- An observer crashes at some of its calls: the text of the crash is given for the number of the
call, counted from zero, and the event. -/
abbrev Observer := Nat → Event → Option String

/-- An observer that never crashes. -/
def Observer.quiet : Observer :=
  fun _ _ ↦ none

end SuiteMigration.Run
