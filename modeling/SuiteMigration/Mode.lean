import SuiteMigration.Text.Basic

/-!
How a run works: which half of the pipeline it executes, how much of a file it fills in, and how
deeply it processes a file that exists already.
-/

set_option autoImplicit false
set_option relaxedAutoImplicit false

namespace SuiteMigration

inductive Operation where
  /-- Fresh migration of source files into a branch. -/
  | migration
  /-- Processing of files that have been migrated already. -/
  | transformation
  /-- Migration that processes the targets that exist already. -/
  | migrationAndTransformation
  deriving DecidableEq, Repr

def Operation.label : Operation → String
  | .migration => "migration"
  | .transformation => "transformation"
  | .migrationAndTransformation => "migration+transformation"

/-- A run that only processes existing targets makes neither a branch nor a skeleton. -/
def Operation.isTransformationOnly : Operation → Bool
  | .transformation => true
  | _ => false

inductive Mode where
  /-- Placeholders to be filled in by hand. -/
  | manual
  /-- Extracted and mapped bodies. -/
  | enhanced
  /-- Extracted bodies with remarks for review. -/
  | hybrid
  deriving DecidableEq, Repr

def Mode.label : Mode → String
  | .manual => "manual"
  | .enhanced => "enhanced"
  | .hybrid => "hybrid"

def Mode.ofLabel? (text : String) : Option Mode :=
  match Text.toLower (Text.trim text) with
  | "manual" => some .manual
  | "enhanced" => some .enhanced
  | "hybrid" => some .hybrid
  | _ => none

inductive Tier where
  /-- Writes the header of the file anew. -/
  | quickRefresh
  /-- Also checks the file. -/
  | validation
  /-- Derives the whole file from its source again. -/
  | deepRegeneration
  deriving DecidableEq, Repr

def Tier.number : Tier → Nat
  | .quickRefresh => 1
  | .validation => 2
  | .deepRegeneration => 3

def Tier.ofNumber? : Nat → Option Tier
  | 1 => some .quickRefresh
  | 2 => some .validation
  | 3 => some .deepRegeneration
  | _ => none

/-- Where the content of a file came from. -/
inductive Strategy where
  | ai
  | semantic
  | heuristic
  | placeholder
  | manual
  | stub
  | tier
  | unchanged
  deriving DecidableEq, Repr

end SuiteMigration
