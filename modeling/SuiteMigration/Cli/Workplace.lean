import SuiteMigration.Cli.Program
import SuiteMigration.Git.Clone

/-!
A working directory in memory: its files, and the repository that it holds, if it holds one.
-/

set_option autoImplicit false
set_option relaxedAutoImplicit false

namespace SuiteMigration.Cli

open SuiteMigration.Text

structure Workplace where
  files : Assoc String := []
  clone : Option Git.Clone := none
  environment : Configuration.Environment := []

/-- The segments of a path below the working directory; points alone do not count. -/
def relativeSegments? (path : String) : Option (List String) :=
  if startsWith path "/" then none
  else some ((splitOn '/' path).filter fun s ↦ !s.isEmpty && s != ".")

/-- The text of the file at a path. -/
def Workplace.readText (w : Workplace) (path : String) : Option String := do
  let segments ← relativeSegments? path
  w.files.lookup (String.intercalate "/" segments)

/-- Whether a path leads to the directory itself, to one of its files or to the data of its
repository. -/
def Workplace.holds (w : Workplace) (path : String) : Bool :=
  match relativeSegments? path with
  | none => false
  | some segments =>
      segments.isEmpty || (w.readText path).isSome || (w.clone.isSome && segments == [".git"])

/-- Opens the repository that a path lies in. -/
def Workplace.openRepository (w : Workplace) (path : String) : Opened Git.Clone :=
  if w.holds path then
    match w.clone with
    | some clone => .repository clone
    | none => .unusable ("could not find repository at '" ++ path ++ "'")
  else if path == "/" then .unusable "could not find repository at '/'"
  else .missing "No such file or directory (os error 2)"

def Workplace.surroundings (w : Workplace) (newBranch runId : String) : Surroundings Git.Clone :=
  { readText := w.readText
    environment := w.environment
    openRepository := w.openRepository
    newBranch
    runId }

end SuiteMigration.Cli
