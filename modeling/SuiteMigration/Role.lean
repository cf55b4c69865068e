/-!
The roles of files in a test suite.
-/

set_option autoImplicit false
set_option relaxedAutoImplicit false

namespace SuiteMigration

/-- What a file is for. The order of the roles is the order of reports. -/
inductive Role where
  | scenario
  | stepDefinition
  | pageObject
  | locator
  | utility
  | resource
  | other
  deriving DecidableEq, Repr

def Role.all : List Role :=
  [.scenario, .stepDefinition, .pageObject, .locator, .utility, .resource, .other]

def Role.label : Role → String
  | .scenario => "scenario"
  | .stepDefinition => "step definition"
  | .pageObject => "page object"
  | .locator => "locator"
  | .utility => "utility"
  | .resource => "resource"
  | .other => "other"

/-- The name of a role in data. -/
def Role.key : Role → String
  | .scenario => "scenario"
  | .stepDefinition => "step_definition"
  | .pageObject => "page_object"
  | .locator => "locator"
  | .utility => "utility"
  | .resource => "resource"
  | .other => "other"

/-- The heading for several files of a role. -/
def Role.plural : Role → String
  | .scenario => "Scenarios"
  | .stepDefinition => "Step definitions"
  | .pageObject => "Page objects"
  | .locator => "Locators"
  | .utility => "Utilities"
  | .resource => "Resources"
  | .other => "Other files"

/-- The extension of the migrated file. -/
def Role.extension : Role → String
  | .scenario => "robot"
  | _ => "resource"

end SuiteMigration
