/-!
Features: scenarios made of steps, with the tables and texts attached to them.
-/

set_option autoImplicit false
set_option relaxedAutoImplicit false

namespace SuiteMigration.Gherkin

/-- A table or text that belongs to a step. -/
inductive Attachment where
  | table (rows : List (List String))
  | document (text : String)
  deriving DecidableEq, Repr

structure Step where
  keyword : String
  text : String
  attachment : Option Attachment := none
  deriving DecidableEq, Repr

/-- Values for the parameters of a scenario outline. -/
structure Examples where
  tags : List String := []
  header : List String := []
  rows : List (List String) := []
  deriving DecidableEq, Repr

structure Scenario where
  name : String
  tags : List String := []
  isOutline : Bool := false
  steps : List Step := []
  examples : List Examples := []
  deriving DecidableEq, Repr

structure Feature where
  name : String
  description : List String := []
  tags : List String := []
  background : Option (List Step) := none
  scenarios : List Scenario := []
  deriving DecidableEq, Repr

/-- Why a text is not a feature. Lines count from one. -/
inductive FeatureError where
  | missingFeature
  | stepOutsideScenario (line : Nat)
  | unterminatedDocument (line : Nat)
  deriving DecidableEq, Repr

def FeatureError.message : FeatureError → String
  | .missingFeature => "no Feature: line found"
  | .stepOutsideScenario line => s!"line {line}: step outside of a scenario or background"
  | .unterminatedDocument line => s!"doc string opened on line {line} is never closed"

end SuiteMigration.Gherkin
