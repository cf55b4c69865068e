import SuiteMigration.Java.Signature
import SuiteMigration.Resource.Placeholder

/-!
Resources for files that are not test code: helper classes and property files.
-/

set_option autoImplicit false
set_option relaxedAutoImplicit false

namespace SuiteMigration

open SuiteMigration.Text SuiteMigration.Robot SuiteMigration.Keyword

/-- A keyword without body for each method of a helper class. -/
def utilityResource (source : String) (ctx : Context) : File :=
  let names := Java.signatureNames source
  { ctx.resourceFile ("Utility stub for " ++ ctx.title) with
    keywords := placeholderBlocks (if names.isEmpty then [ctx.title] else names)
      ("port helper logic from " ++ ctx.sourcePath) }

/-- The key and the value of a property line, which the first equals sign or colon separates. -/
def splitProperty (line : String) : String × String :=
  let cs := line.toList
  let isSeparator := fun c : Char ↦ c == '=' || c == ':'
  let key := cs.takeWhile fun c ↦ !isSeparator c
  (trim (String.ofList key), trim (String.ofList (cs.drop (key.length + 1))))

/-- The variable name for a property key: its alphanumeric parts as constants. -/
def propertyName (key : String) : String :=
  let parts := (splitBy (fun c ↦ !(isAsciiLetter c || isAsciiDigit c)) key).filter fun part ↦
    !part.isEmpty
  String.intercalate "_" (parts.map constant)

def isPropertyLine (line : String) : Bool :=
  !line.isEmpty && !startsWith line "#" && !startsWith line "!"

/-- The variables for the properties of a file; of two with one name the first counts. -/
def propertyVariables (content : String) : List Variable :=
  (((lines content).map trim).filter isPropertyLine).foldl (fun done line ↦
    let (key, value) := splitProperty line
    let name := propertyName key
    if name.isEmpty || done.any (fun v ↦ v.name == name) then done
    else done ++ [{ name, value := escapeCell value }]) []

/-- The resource for a property file. -/
def propertyResource (content : String) (ctx : Context) : File :=
  let declarations := propertyVariables content
  { ctx.resourceFile ("Variables migrated from " ++ ctx.title) with
    header :=
      if declarations.isEmpty then ["# TODO: no properties found in " ++ ctx.sourcePath] else []
    declarations
    keywords := placeholderBlocks [ofIdentifier ctx.title ++ " Loaded"]
      "variables only; remove if unused" }

end SuiteMigration
