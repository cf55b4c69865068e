import SuiteMigration.Action.StepDefinition
import SuiteMigration.Keyword.Pattern
import SuiteMigration.Resource.Context
import SuiteMigration.Resource.Heuristic
import SuiteMigration.Robot.ActionRow

/-!
Resources for step definitions: one keyword for each step, named after its pattern.
-/

set_option autoImplicit false
set_option relaxedAutoImplicit false

namespace SuiteMigration

open SuiteMigration.Text SuiteMigration.Java SuiteMigration.Robot SuiteMigration.Keyword

/-- A generated file and where its content came from. -/
structure Generated where
  file : File
  strategy : Strategy
  deriving DecidableEq, Repr

/-- Content that came from actions in the source is semantic. -/
def contentStrategy (semantic : Bool) : Strategy :=
  if semantic then .semantic else .heuristic

/-- Whether any action of a step is known. -/
def StepDefinition.isSemantic (s : StepDefinition) : Bool :=
  s.actions.any fun a ↦ !a.isUnmapped

/-- The arguments of the keyword for a step: the parameters of the method, or else one for each
placeholder. -/
def StepDefinition.arguments (s : StepDefinition) : List String :=
  if s.params.isEmpty then
    (List.range (ofPattern s.pattern).placeholders).map fun i ↦ scalar s!"arg{i + 1}"
  else s.params.map scalar

def StepDefinition.keywordName (s : StepDefinition) : String :=
  let name := (ofPattern s.pattern).name
  if name.isEmpty then ofIdentifier s.methodName else name

/-- The keyword for a step. Without known actions its body is made from the pattern. -/
def stepKeyword (s : StepDefinition) (ctx : Context) : Block :=
  let review := if ctx.mode == .hybrid then [reviewRemark (collapse s.pattern)] else []
  let guess := if s.isSemantic then [] else Heuristic.rowsOfPattern s.pattern s.arguments
  { name := s.keywordName
    args := s.arguments
    documentation := some (s.kind.label ++ ": " ++ escapeCell s.pattern)
    body := review ++ guess ++ rowsOfActions s.actions }

/-- The variable for a declared element. The value of an unknown strategy is kept with a remark. -/
def elementVariable (d : ElementDeclaration) : Variable :=
  match renderLocator? d.locator with
  | some locator => { name := constant d.name, value := escapeCell locator }
  | none =>
      { name := constant d.name
        value := escapeCell d.locator.value
        comment := some ("TODO: unmapped locator strategy '" ++ d.locator.strategy ++ "'") }

def elementVariables (o : Outline) : List Variable :=
  (elementDeclarations o).map elementVariable

/-- The resource for the step definitions of a source, if it has any. -/
def stepResource (source : String) (ctx : Context) : Except OutlineError (Option Generated) := do
  let o ← outline source
  let steps := stepsOfOutline o
  if steps.isEmpty then return none
  let file := ctx.resourceFile ("Step definitions migrated from " ++ ctx.classTitle o.name)
  return some
    ⟨{ file with
        declarations := elementVariables o
        keywords := withUniqueNames (steps.map fun s ↦ stepKeyword s ctx) },
     contentStrategy (steps.any StepDefinition.isSemantic)⟩

end SuiteMigration
