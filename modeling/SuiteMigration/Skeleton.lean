import SuiteMigration.Path.FileName
import SuiteMigration.Repository.Basic
import SuiteMigration.Robot.File

/-!
The files that every migrated project shares: a common resource that imports all generated
resources, the initialization of the suites, and the list of required packages.
-/

set_option autoImplicit false
set_option relaxedAutoImplicit false

namespace SuiteMigration

open SuiteMigration.Text SuiteMigration.Robot SuiteMigration.Keyword SuiteMigration.Path

namespace Skeleton

/-- Path of the common resource below the project root. -/
def commonResource : String :=
  "resources/common.resource"

def package (library : String) : String :=
  match library with
  | "Browser" => "robotframework-browser"
  | "AppiumLibrary" => "robotframework-appiumlibrary"
  | "RequestsLibrary" => "robotframework-requests"
  | _ => "robotframework-seleniumlibrary"

def below (root path : String) : String :=
  let root := trimSlashes root
  if root.isEmpty then path else root ++ "/" ++ path

/-- The resources to import, relative to the root, sorted and each once. -/
def importPaths (root : String) (resources : List String) : List String :=
  let start := trimSlashes root ++ "/"
  dedup (sort ((resources.map fun path ↦ (afterStart? start path).getD path).filter fun path ↦
    endsWith path ".resource" && path != commonResource))

def importRow (path : String) : String :=
  row ["Resource", scalar "CURDIR" ++ "/../" ++ path]

def commonLines (root library : String) (mode : Mode) (resources : List String) : List String :=
  [({ mode, tier := 1 } : Marker).render,
   "*** Settings ***",
   row ["Documentation", "Shared settings for the migrated suites"],
   row ["...", generatedNote mode 1],
   row ["Library", library]] ++
  (importPaths root resources).map importRow ++
  ["",
   "*** Variables ***",
   row [scalar "BASE_URL", "http://localhost:8080"],
   row [scalar "BROWSER", "chrome"],
   row [scalar "TIMEOUT", "10s"],
   "",
   "*** Keywords ***",
   "Open Test Browser",
   separator ++ row ["Open Browser", scalar "BASE_URL", scalar "BROWSER"],
   separator ++ row ["Set Selenium Timeout", scalar "TIMEOUT"],
   "    Maximize Browser Window",
   "",
   "Close Test Browser",
   "    Close All Browsers"]

def initLines (mode : Mode) : List String :=
  [({ mode, tier := 1 } : Marker).render,
   "*** Settings ***",
   row ["Documentation", "Migrated test suites"],
   row ["Resource", scalar "CURDIR" ++ "/" ++ commonResource],
   row ["Suite Setup", "Open Test Browser"],
   row ["Suite Teardown", "Close Test Browser"]]

def text (content : List String) : String :=
  String.join (content.map (· ++ "\n"))

/-- The shared files of a project. `resources` are the target paths of the generated files. -/
def files (root library : String) (mode : Mode) (resources : List String) :
    Except Failure (List FileWrite) :=
  let library := trim library
  if library.isEmpty then
    .error ⟨.skeleton, "cannot generate the project skeleton without an automation library"⟩
  else
    .ok
      [⟨below root commonResource, text (commonLines root library mode resources)⟩,
       ⟨below root "__init__.robot", text (initLines mode)⟩,
       ⟨below root "requirements.txt", text ["robotframework>=7.0", package library]⟩]

end Skeleton

end SuiteMigration
