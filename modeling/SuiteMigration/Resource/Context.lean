import SuiteMigration.Path.FileName
import SuiteMigration.Robot.File

/-!
What the generators of keyword files share: the settings for one file, its title, and names that do
not collide.
-/

set_option autoImplicit false
set_option relaxedAutoImplicit false

namespace SuiteMigration

open SuiteMigration.Text SuiteMigration.Robot SuiteMigration.Keyword

/-- Settings for the migration of one file. -/
structure Context where
  mode : Mode
  library : String
  sourcePath : String
  deriving Repr

def Context.marker (ctx : Context) : Marker :=
  { mode := ctx.mode, tier := 1 }

/-- The title of a file that has no better one: the words of its name. -/
def Context.title (ctx : Context) : String :=
  ofIdentifier (Path.displayName ctx.sourcePath)

/-- The title of a class, or else that of its file. -/
def Context.classTitle (ctx : Context) (className : Option String) : String :=
  match className with
  | some name => ofIdentifier name
  | none => ctx.title

/-- A resource file with marker, documentation and library import. -/
def Context.resourceFile (ctx : Context) (title : String) : File :=
  { marker := some ctx.marker
    documentation := [title, generatedNote ctx.mode 1]
    settings := [row ["Library", ctx.library]] }

/-- The remark for review in front of a mapped body. -/
def reviewRemark (subject : String) : String :=
  "# REVIEW: verify mapped actions for '" ++ subject ++ "'"

def numbered (name : String) (n : Nat) : String :=
  s!"{name} {n}"

/-- The name with the least number from two on that is not in use, up to case. -/
def freshName (used : List String) (name : String) : String :=
  let isFree := fun i ↦ !used.contains (toLower (numbered name (i + 2)))
  match (List.range (used.length + 1)).find? isFree with
  | some i => numbered name (i + 2)
  | none => numbered name (used.length + 3)

/-- Numbers the names that repeat an earlier one up to case. -/
def uniqueNamesFrom (used : List String) : List String → List String
  | [] => []
  | name :: rest =>
      let chosen := if used.contains (toLower name) then freshName used name else name
      chosen :: uniqueNamesFrom (toLower chosen :: used) rest

/-- Blocks with names that differ up to case. -/
def withUniqueNames (blocks : List Block) : List Block :=
  List.zipWith (fun block name ↦ { block with name }) blocks
    (uniqueNamesFrom [] (blocks.map Block.name))

end SuiteMigration
