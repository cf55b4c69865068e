import SuiteMigration.Text.Basic

/-!
Names of branches. A name is a path of segments; repeated slashes count as one.
-/

set_option autoImplicit false
set_option relaxedAutoImplicit false

namespace SuiteMigration.Git

open SuiteMigration.Text

/-- Characters that no name has: controls, the space and those with a meaning in revisions. -/
def isForbidden (c : Char) : Bool :=
  decide (c.toNat ≤ 32) || "~^:\\?[*".toList.contains c

def isSegment (segment : String) : Bool :=
  !startsWith segment "." && !segment.toList.any isForbidden && !contains segment ".." &&
    !contains segment "@\x7b" && !endsWith segment ".lock"

/-- A name without leading slashes. -/
def withoutLeadingSlashes (name : String) : String :=
  dropStartWhile (· == '/') name

/-- The name under which a branch is kept, if the given name is valid. -/
def branchName? (name : String) : Option String :=
  let segments := splitOn '/' (withoutLeadingSlashes name)
  let kept := segments.filter fun s ↦ !s.isEmpty
  if segments.getLast? == some "" || endsWith name "." || !kept.all isSegment then none
  else some (String.intercalate "/" kept)

/-- Whether one name is a directory of the other. -/
def collide (a b : String) : Bool :=
  startsWith a (b ++ "/") || startsWith b (a ++ "/")

end SuiteMigration.Git
