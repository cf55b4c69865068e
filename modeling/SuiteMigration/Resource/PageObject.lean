import SuiteMigration.Resource.Steps

/-!
Resources for page objects: the elements become variables, the public methods keywords.
-/

set_option autoImplicit false
set_option relaxedAutoImplicit false

namespace SuiteMigration

open SuiteMigration.Text SuiteMigration.Java SuiteMigration.Robot SuiteMigration.Keyword

/-- The rows of a method body. -/
def methodRows (m : Method) (elements : Assoc Locator) : List String :=
  rowsOfActions (extractActions m.body elements)

/-- The keyword for a method of a page object. -/
def methodKeyword (m : Method) (elements : Assoc Locator) (ctx : Context) : Block :=
  let mapped := methodRows m elements
  let review := if ctx.mode == .hybrid then [reviewRemark m.name] else []
  let body :=
    if mapped.isEmpty then ["# TODO: no actions found in the method body", "No Operation"]
    else mapped
  { name := ofIdentifier m.name
    args := m.params.map scalar
    documentation := some ("Page object method: " ++ m.name)
    body := review ++ body }

/-- The public methods; of overloads the first, and no constructors. -/
def Java.Outline.pageMethods (o : Outline) : List Method :=
  (o.methods.filter fun m ↦ m.isPublic && !m.isConstructor).foldl
    (fun kept m ↦ if kept.any (fun k ↦ k.name == m.name) then kept else kept ++ [m]) []

/-- The resource for a page object, if it has elements or public methods. -/
def pageObjectResource (source : String) (ctx : Context) :
    Except OutlineError (Option Generated) := do
  let o ← outline source
  let elements := elementNames o
  let methods := o.pageMethods
  let declarations := elementVariables o
  if methods.isEmpty && declarations.isEmpty then return none
  let file := ctx.resourceFile ("Page object migrated from " ++ ctx.classTitle o.name)
  let semantic := methods.any fun m ↦
    (methodRows m elements).any fun line ↦ !startsWith line "#"
  return some
    ⟨{ file with declarations, keywords := methods.map fun m ↦ methodKeyword m elements ctx },
     contentStrategy semantic⟩

end SuiteMigration
