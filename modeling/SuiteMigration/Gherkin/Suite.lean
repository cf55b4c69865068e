import SuiteMigration.Gherkin.Feature
import SuiteMigration.Keyword.StepCall
import SuiteMigration.Resource.Context

/-!
Test suites for features. Every step becomes a call of the keyword that its definition is migrated
to, and every row of examples becomes a test case.
-/

set_option autoImplicit false
set_option relaxedAutoImplicit false

namespace SuiteMigration.Gherkin

open SuiteMigration.Text SuiteMigration.Robot SuiteMigration.Keyword

/-- Puts the values of an examples row in place of the parameters. -/
def substitute (text : String) (header values : List String) : String :=
  (header.zip values).foldl (fun acc (name, value) ↦ replace ("<" ++ name ++ ">") value acc) text

/-- The row that calls the keyword of a step. -/
def callRow (s : Step) : String :=
  let call := stepCall s.text
  row (call.name :: call.args.map escapeCell)

/-- The remark on an attachment, which is not migrated. -/
def attachmentRemark : Attachment → String
  | .table rows => s!"# TODO: data table with {rows.length} row(s) was not migrated"
  | .document _ => "# TODO: doc string argument was not migrated"

def stepRows (s : Step) : List String :=
  callRow s :: s.attachment.toList.map attachmentRemark

/-- The body of a test case or of the background. -/
def bodyRows (steps : List Step) (ctx : Context) (name : String) : List String :=
  (if ctx.mode == .hybrid then [reviewRemark name] else []) ++ steps.flatMap stepRows

def testName (name : String) : String :=
  let title := titleCase name
  if title.isEmpty then "Unnamed Scenario" else escapeCell title

/-- The rows of all examples, each with its table. -/
def Scenario.exampleRows (s : Scenario) : List (Examples × List String) :=
  s.examples.flatMap fun e ↦ e.rows.map fun values ↦ (e, values)

/-- The test case of a scenario that is not expanded. -/
def plainTest (s : Scenario) (ctx : Context) : Block :=
  let remark := if s.isOutline then ["# TODO: scenario outline has no examples"] else []
  { name := testName s.name, tags := s.tags, body := remark ++ bodyRows s.steps ctx s.name }

/-- The test case of one row of examples. -/
def exampleTest (s : Scenario) (ctx : Context) (number : Nat) (e : Examples)
    (values : List String) : Block :=
  let steps := s.steps.map fun step ↦ { step with text := substitute step.text e.header values }
  { name := testName (substitute s.name e.header values) ++ s!" - Example {number}"
    tags := s.tags ++ e.tags
    body := bodyRows steps ctx s.name }

/-- The test cases of a scenario: one for each row of examples of an outline, otherwise one. -/
def testsOfScenario (ctx : Context) (s : Scenario) : List Block :=
  if s.isOutline && !s.exampleRows.isEmpty then
    s.exampleRows.mapIdx fun i (e, values) ↦ exampleTest s ctx (i + 1) e values
  else [plainTest s ctx]

/-- The test case of a scenario that is left to be written by hand. -/
def manualTest (s : Scenario) : Block :=
  { name := testName s.name
    tags := s.tags
    body := ["# TODO: implement scenario steps", "No Operation"] }

def suiteSettings (f : Feature) (ctx : Context) (rootPath : String) : List String :=
  [row ["Library", ctx.library],
   row ["Resource", scalar "CURDIR" ++ "/" ++ rootPath ++ "resources/common.resource"],
   row ["Suite Setup", "Open Test Browser"],
   row ["Suite Teardown", "Close All Browsers"]] ++
  (if f.background.isSome then [row ["Test Setup", "Background Steps"]] else []) ++
  (if f.tags.isEmpty then [] else [row ("Force Tags" :: f.tags)])

def backgroundKeyword (ctx : Context) (steps : List Step) : Block :=
  { name := "Background Steps"
    body :=
      if ctx.mode == .manual then ["# TODO: implement background steps", "No Operation"]
      else bodyRows steps ctx "Background" }

/-- The suite for a feature. `rootPath` leads from the directory of the suite to the root. -/
def suite (f : Feature) (ctx : Context) (rootPath : String) : File :=
  let tests :=
    if ctx.mode == .manual then f.scenarios.map manualTest
    else f.scenarios.flatMap (testsOfScenario ctx)
  { marker := some ctx.marker
    documentation :=
      (if f.name.isEmpty then ctx.title else f.name) :: f.description ++
        [generatedNote ctx.mode 1]
    settings := suiteSettings f ctx rootPath
    testCases := withUniqueNames tests
    keywords := f.background.toList.map (backgroundKeyword ctx) }

end SuiteMigration.Gherkin
