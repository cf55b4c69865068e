import SuiteMigration.Action.Extraction

/-!
Step definitions: methods that carry step annotations, with the actions of their bodies.
-/

set_option autoImplicit false
set_option relaxedAutoImplicit false

namespace SuiteMigration

open SuiteMigration.Java

inductive StepKind where
  | givenStep
  | whenStep
  | thenStep
  | andStep
  | butStep
  deriving DecidableEq, Repr

def StepKind.label : StepKind → String
  | .givenStep => "Given"
  | .whenStep => "When"
  | .thenStep => "Then"
  | .andStep => "And"
  | .butStep => "But"

def StepKind.ofLabel? : String → Option StepKind
  | "Given" => some .givenStep
  | "When" => some .whenStep
  | "Then" => some .thenStep
  | "And" => some .andStep
  | "But" => some .butStep
  | _ => none

structure StepDefinition where
  kind : StepKind
  pattern : String
  methodName : String
  params : List String
  actions : List Action
  deriving DecidableEq, Repr

/-- The step that an annotation of a method defines: one with a step keyword and a pattern. -/
def stepOfAnnotation? (m : Method) (elements : Assoc Locator) (a : AnnotationUse) :
    Option StepDefinition := do
  let kind ← StepKind.ofLabel? a.name
  let pattern ← a.literal?
  return ⟨kind, pattern, m.name, m.params, extractActions m.body elements⟩

/-- The steps of a class, one for each step annotation, in order. -/
def stepsOfOutline (o : Outline) : List StepDefinition :=
  let elements := elementNames o
  o.methods.flatMap fun m ↦ m.annotations.filterMap (stepOfAnnotation? m elements)

/-- The steps that a source defines. -/
def extractSteps (source : String) : Except OutlineError (List StepDefinition) :=
  (outline source).map stepsOfOutline

end SuiteMigration
