import SuiteMigration.Completion.Assistant
import SuiteMigration.Gherkin.Parser
import SuiteMigration.Gherkin.Suite
import SuiteMigration.Path.Layout
import SuiteMigration.Resource.Locators
import SuiteMigration.Resource.PageObject
import SuiteMigration.Resource.Utility
import SuiteMigration.Robot.Refresh

/-!
Migration of single files. A source file is offered to the assistant, if there is one, and otherwise
goes through the generators for its role; a file that cannot be read becomes a placeholder. A target
file that exists already goes through a tier.
-/

set_option autoImplicit false
set_option relaxedAutoImplicit false

namespace SuiteMigration

open SuiteMigration.Text SuiteMigration.Java SuiteMigration.Robot

/-- Why the generators give no file. -/
inductive GenerationError where
  | outline (e : OutlineError)
  | feature (e : Gherkin.FeatureError)
  deriving DecidableEq, Repr

def GenerationError.message : GenerationError → String
  | .outline e => e.message
  | .feature e => e.message

/-- Whether the error is a failure of the generators themselves. -/
def GenerationError.isCrash : GenerationError → Bool
  | .outline (.unreadableName ..) => true
  | _ => false

/-- The reason that is given in a placeholder. -/
def GenerationError.reason (e : GenerationError) : String :=
  if e.isCrash then "generator panicked: " ++ e.message else e.message

structure DiscoveredFile where
  path : String
  role : Role
  branch : String
  deriving DecidableEq, Repr

structure TransformedFile where
  sourcePath : String
  targetPath : String
  role : Role
  content : String
  /-- The report on the content; a blank source has none. -/
  validation : Option Report
  isSuccess : Bool := true
  strategy : Strategy
  error : Option String := none
  deriving DecidableEq, Repr

def TransformedFile.isValid (f : TransformedFile) : Bool :=
  f.validation.any Report.isValid

structure Engine where
  mode : Mode
  library : String
  layout : Path.Layout
  deriving Repr

def defaultLibrary : String :=
  "SeleniumLibrary"

/-- An engine; a blank library means the default one. -/
def Engine.new (mode : Mode) (library : String) (layout : Path.Layout) : Engine :=
  { mode, layout, library := if isBlankText library then defaultLibrary else library }

def Engine.context (e : Engine) (path : String) : Context :=
  ⟨e.mode, e.library, path⟩

/-- A generated text and where it came from. -/
structure Output where
  content : String
  strategy : Strategy
  deriving DecidableEq, Repr

abbrev Generator := String → Context → Except OutlineError (Option Generated)

/-- The generators for a source of a role; the first that gives a file counts. -/
def generatorsFor (role : Role) (content : String) : List Generator :=
  match role with
  | .pageObject =>
      if hasStepAnnotations content then [stepResource, pageObjectResource]
      else [pageObjectResource]
  | .locator => [locatorResource, pageObjectResource]
  | _ => [stepResource, pageObjectResource]

/-- The first file that a list of generators gives. -/
def firstGenerated (content : String) (ctx : Context) :
    List Generator → Except OutlineError (Option Generated)
  | [] => .ok none
  | generator :: rest => do
      match ← generator content ctx with
      | some generated => return some generated
      | none => firstGenerated content ctx rest

def generateSuite (e : Engine) (ctx : Context) (content target : String) :
    Except GenerationError Output := do
  let feature ← (Gherkin.parse content).mapError .feature
  let file := Gherkin.suite feature ctx (e.layout.relativeToRoot target)
  return ⟨file.render, if e.mode == .manual then .manual else .semantic⟩

/-- A placeholder for a file that is neither code nor properties. -/
def dataPlaceholder (ctx : Context) : File :=
  let file := placeholderFile [] ctx none
  { file with header := file.header ++ ["# TODO: convert " ++ ctx.sourcePath ++ " manually"] }

def generateCode (ctx : Context) (role : Role) (content : String) :
    Except GenerationError Output := do
  match ← (firstGenerated content ctx (generatorsFor role content)).mapError .outline with
  | some generated => return ⟨generated.file.render, generated.strategy⟩
  | none => return ⟨(placeholderFile (signatureNames content) ctx none).render, .placeholder⟩

/-- The output of the generators for a source file. -/
def Engine.generate (e : Engine) (path : String) (role : Role) (content : String) :
    Except GenerationError Output :=
  let ctx := e.context path
  if endsWith (toLower path) ".feature" then
    generateSuite e ctx content (e.layout.targetPath path role)
  else if e.mode == .manual then
    .ok ⟨(placeholderFile (signatureNames content) ctx none).render, .manual⟩
  else
    match role with
    | .utility => .ok ⟨(utilityResource content ctx).render, .stub⟩
    | .resource =>
        if endsWith (toLower path) ".properties" then
          .ok ⟨(propertyResource content ctx).render, .semantic⟩
        else .ok ⟨(dataPlaceholder ctx).render, .stub⟩
    | _ => generateCode ctx role content

/-- The output of the generators, or a placeholder that gives the reason why there is none. -/
def Engine.generateOrPlaceholder (e : Engine) (path : String) (role : Role) (content : String) :
    Output × Option String :=
  match e.generate path role content with
  | .ok output => (output, none)
  | .error err =>
      let file := placeholderFile (signatureNames content) (e.context path) (some err.reason)
      (⟨file.render, .placeholder⟩, some err.reason)

/-- Whether files of a role are offered to the assistant. -/
def Engine.offersRole (e : Engine) (role : Role) : Bool :=
  role != .utility && e.mode != .manual

/-- Fresh migration without an assistant. -/
def Engine.migrateAlone (e : Engine) (file : DiscoveredFile) (content : String) :
    TransformedFile :=
  let targetPath := e.layout.targetPath file.path file.role
  if isBlankText content then
    { sourcePath := file.path, targetPath, role := file.role, content := ""
      validation := none, isSuccess := false, strategy := .placeholder
      error := some "source file is empty" }
  else
    let (output, error) := e.generateOrPlaceholder file.path file.role content
    { sourcePath := file.path, targetPath, role := file.role, content := output.content
      validation := some (validate output.content), strategy := output.strategy, error }

/-- A file that the assistant produced. -/
def Engine.adopt (e : Engine) (file : DiscoveredFile) (text : String) : TransformedFile :=
  let content := ensureMarker text { mode := e.mode, tier := 1 }
  { sourcePath := file.path, targetPath := e.layout.targetPath file.path file.role
    role := file.role, content, validation := some (validate content), strategy := .ai }

/-- Fresh migration of a source file: the result, the assistant afterwards, and the milliseconds
that passed. -/
def Engine.migrate (e : Engine) (assistant : Option Completion.Assistant) (file : DiscoveredFile)
    (content : String) : TransformedFile × Option Completion.Assistant × Nat :=
  match assistant with
  | none => (e.migrateAlone file content, none, 0)
  | some a =>
      if isBlankText content || !e.offersRole file.role then
        (e.migrateAlone file content, some a, 0)
      else
        let (text, after, elapsed) := a.offer file.path file.role
        match text with
        | some text => (e.adopt file text, some after, elapsed)
        | none => (e.migrateAlone file content, some after, elapsed)

/-- Applies a tier to a target file that exists already. -/
def Engine.retransform (e : Engine) (file : DiscoveredFile) (existing : String) (tier : Tier)
    (force : Bool) (fresh : Option String) : TransformedFile :=
  let outcome := applyTier existing { mode := e.mode, tier, force, path := file.path } fresh
  { sourcePath := file.path
    targetPath := file.path
    role := file.role
    content := outcome.content
    validation := some (outcome.validation.getD (validate outcome.content))
    strategy := if outcome.changed then .tier else .unchanged }

end SuiteMigration
