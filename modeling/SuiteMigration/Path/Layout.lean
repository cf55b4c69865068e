import SuiteMigration.Path.FileName
import SuiteMigration.Role

/-!
Target paths. A source path is moved from its source root to the target root, and its file name gets
the extension of its role. A path below the target root stays where it is.
-/

set_option autoImplicit false
set_option relaxedAutoImplicit false

namespace SuiteMigration.Path

open SuiteMigration.Text

def defaultSourceRoots : List String :=
  ["src/test/java", "src/test/resources", "src/main/java", "src/test", "src"]

/-- Where the files of a suite stand before and after their migration. -/
structure Layout where
  targetRoot : String
  /-- Source roots, longest first. -/
  sourceRoots : List String
  deriving Repr

/-- A layout for the given roots. Blank source roots are dropped, and a blank target root means
`robot`. -/
def Layout.withSourceRoots (targetRoot : String) (sourceRoots : List String) : Layout :=
  let roots := (sourceRoots.map normalize).filter fun r ↦ !r.isEmpty
  let target := normalize targetRoot
  { targetRoot := if target.isEmpty then "robot" else target
    sourceRoots := roots.mergeSort fun a b ↦ decide (byteSize b ≤ byteSize a) }

def Layout.ofTargetRoot (targetRoot : String) : Layout :=
  .withSourceRoots targetRoot defaultSourceRoots

def Layout.isUnderTarget (l : Layout) (path : String) : Bool :=
  path == l.targetRoot || startsWith path (l.targetRoot ++ "/")

/-- The path below the first source root that it lies in. -/
def Layout.relative (l : Layout) (path : String) : String :=
  (l.sourceRoots.findSome? fun root ↦ afterStart? (root ++ "/") path).getD path

/-- The target path of a file. -/
def Layout.targetPath (l : Layout) (path : String) (role : Role) : String :=
  let normalized := normalize path
  if normalized.isEmpty || normalized == l.targetRoot then l.targetRoot
  else
    let rooted :=
      if l.isUnderTarget normalized then normalized
      else l.targetRoot ++ "/" ++ l.relative normalized
    match breakOnLast? "/" rooted with
    | some (directory, name) =>
        if directory.isEmpty then targetFileName name role.extension
        else directory ++ "/" ++ targetFileName name role.extension
    | none => targetFileName rooted role.extension

/-- The steps up from the directory of a target file to the target root. -/
def Layout.relativeToRoot (l : Layout) (target : String) : String :=
  let normalized := normalize target
  let inside := (afterStart? (l.targetRoot ++ "/") normalized).getD normalized
  String.join (List.replicate (inside.toList.count '/') "../")

end SuiteMigration.Path
