import SuiteMigration.Path.FileName
import SuiteMigration.Role

/-!
Roles of files by their paths. An ordered list of rules looks at the directories, the stem and the
extension of a path in lower case, and the first rule that applies gives the role.
-/

set_option autoImplicit false
set_option relaxedAutoImplicit false

namespace SuiteMigration.Path

open SuiteMigration.Text

/-- A path in lower case, cut into its parts. -/
structure Parts where
  directories : List String
  stem : String
  extension : String

def Parts.ofPath (path : String) : Parts :=
  let segs := segments (toLower path)
  let (stem, extension) := splitExtension (segs.getLastD "")
  ⟨segs.dropLast, stem, extension.getD ""⟩

def Parts.hasDirectory (p : Parts) (names : List String) : Bool :=
  p.directories.any names.contains

def Parts.directoryContains (p : Parts) (part : String) : Bool :=
  p.directories.any fun d ↦ contains d part

def Parts.stemEndsWith (p : Parts) (endings : List String) : Bool :=
  endings.any fun e ↦ endsWith p.stem e

structure Rule where
  name : String
  applies : Parts → Bool
  role : Role

def isPageObject (p : Parts) : Bool :=
  p.hasDirectory ["pages", "page", "pageobjects", "pageobject"] ||
    p.stemEndsWith ["page", "pageobject"]

def isStepDefinition (p : Parts) : Bool :=
  p.directoryContains "stepdefinition" || p.hasDirectory ["steps", "stepdefs", "step"] ||
    p.stemEndsWith ["steps", "stepdefs", "stepdefinitions", "stepdefinition"]

def isLocator (p : Parts) : Bool :=
  p.directoryContains "locator" || contains p.stem "locator"

def isUtility (p : Parts) : Bool :=
  p.hasDirectory ["utils", "util", "utilities", "helpers", "helper"] ||
    contains p.stem "util" || contains p.stem "helper"

def isResource (p : Parts) : Bool :=
  ["resource", "properties", "json", "yaml", "yml", "csv", "xml"].contains p.extension

/-- The rules, in the order in which they are tried. -/
def rules : List Rule :=
  [⟨"gherkin feature", fun p ↦ p.extension == "feature", .scenario⟩,
   ⟨"page object", isPageObject, .pageObject⟩,
   ⟨"step definition", isStepDefinition, .stepDefinition⟩,
   ⟨"locator", isLocator, .locator⟩,
   ⟨"utility", isUtility, .utility⟩,
   ⟨"robot suite", fun p ↦ p.extension == "robot", .scenario⟩,
   ⟨"resource file", isResource, .resource⟩]

/-- The first rule that applies to a path. -/
def rule? (path : String) : Option Rule :=
  let parts := Parts.ofPath path
  rules.find? fun rule ↦ rule.applies parts

def classify (path : String) : Role :=
  match rule? path with
  | some rule => rule.role
  | none => .other

/-- How many files have a role, and the names of some of them. -/
structure RoleSummary where
  role : Role
  count : Nat
  samples : List String
  deriving DecidableEq, Repr

/-- The first three different names. -/
def sampleNames (names : List String) : List String :=
  names.foldl (fun samples name ↦
    if samples.length < 3 && !samples.contains name then samples ++ [name] else samples) []

/-- The files of each role that occurs, in the order of the roles. -/
def summarizeRoles (files : List (String × Role)) : List RoleSummary :=
  Role.all.filterMap fun role ↦
    let paths := (files.filter fun (_, r) ↦ r == role).map Prod.fst
    if paths.isEmpty then none
    else some ⟨role, paths.length, sampleNames (paths.map displayName)⟩

end SuiteMigration.Path
