import SuiteMigration.Role

/-!
Requests to a completion service for the migration of a file.
-/

set_option autoImplicit false
set_option relaxedAutoImplicit false

namespace SuiteMigration.Completion

/-- The task for a file of a role. -/
def task : Role → String
  | .stepDefinition =>
      "Convert every step-definition method into one keyword.\n" ++
      "- Keyword name: the step pattern in Title Case with placeholders replaced by words (a string " ++
      "placeholder becomes \"Text\", a number becomes \"Number\").\n" ++
      "- One [Arguments] entry per method parameter, named after the parameter.\n" ++
      "- First body line after arguments: [Documentation] with the step kind and the original pattern."
  | .pageObject =>
      "Convert the page object into a resource file.\n" ++
      "- Every located element (@FindBy or By field) becomes a variable in *** Variables *** named in " ++
      "UPPER_SNAKE_CASE.\n" ++
      "- Every public method becomes a keyword using those variables."
  | .locator =>
      "Convert the locator class into a resource file.\n" ++
      "- Every locator constant becomes a variable in *** Variables *** with the converted locator.\n" ++
      "- Append a comment rating the locator: # quality: Stable, Moderate or Fragile."
  | .scenario =>
      "Convert the Gherkin feature into a Robot Framework suite.\n" ++
      "- Feature name and description go into Documentation; feature tags into Force Tags.\n" ++
      "- Each scenario becomes a test case; expand Scenario Outlines into one test per Examples row.\n" ++
      "- Each step becomes a keyword call: Title Case text with quoted strings and numbers passed as " ++
      "arguments.\n" ++
      "- Background steps go into a \"Background Steps\" keyword used as Test Setup.\n" ++
      "- Import $\x7bCURDIR\x7d/<root>resources/common.resource and use Open Test Browser / Close All " ++
      "Browsers as suite setup and teardown."
  | .utility | .resource | .other =>
      "Convert this file into an equivalent Robot Framework resource file."

/-- The request for one file. -/
def userPrompt (role : Role) (path library content : String) : String :=
  "FILE: " ++ path ++ "\nROLE: " ++ role.label ++ "\nLIBRARY: " ++ library ++ "\n\nTASK:\n" ++
    task role ++ "\n\nSOURCE:\n" ++ content

end SuiteMigration.Completion
