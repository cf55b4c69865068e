import SuiteMigration.Resource.Context

/-!
Placeholder files: keywords without bodies, to be filled in by hand.
-/

set_option autoImplicit false
set_option relaxedAutoImplicit false

namespace SuiteMigration

open SuiteMigration.Text SuiteMigration.Robot SuiteMigration.Keyword

/-- A keyword without body for each name. -/
def placeholderBlocks (names : List String) (remark : String) : List Block :=
  names.map fun name ↦
    { name := ofIdentifier name, body := ["# TODO: " ++ remark, "No Operation"] }

/-- A placeholder for a file with the given methods. Without methods it has one keyword, named after
the file. -/
def placeholderFile (names : List String) (ctx : Context) (reason : Option String) : File :=
  let file := ctx.resourceFile ("Placeholder for " ++ ctx.title)
  { file with
    header := reason.toList.map fun text ↦
      "# TODO: automatic migration failed: " ++ collapse text
    keywords := placeholderBlocks (if names.isEmpty then [ctx.title] else names)
      ("migrate manually from " ++ ctx.sourcePath) }

end SuiteMigration
