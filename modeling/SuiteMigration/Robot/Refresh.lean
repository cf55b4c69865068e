import SuiteMigration.Keyword.Name
import SuiteMigration.Path.FileName
import SuiteMigration.Robot.File
import SuiteMigration.Robot.Validation

/-!
Processing of files that exist already. A tier renews the documentation, checks the file, or takes
over freshly generated content, and records itself in the marker line; a tier that is recorded
already does not run again unless it is forced.
-/

set_option autoImplicit false
set_option relaxedAutoImplicit false

namespace SuiteMigration.Robot

open SuiteMigration.Text SuiteMigration.Keyword

/-- Lines cut around a documentation setting: those before, those of the setting, those after. -/
structure DocumentationSpan where
  before : List String
  block : List String
  after : List String

def isContinuation (line : String) : Bool :=
  startsWith (trimStart line) "..."

def isDocumentationRow (line : String) : Bool :=
  equalIgnoringAsciiCase ((splitCells line).headD "") "documentation"

/-- The first documentation setting of lines that start inside or outside the settings. -/
def documentationSpanFrom : Bool → List String → Option DocumentationSpan
  | _, [] => none
  | inSettings, line :: rest =>
      let push := fun span : DocumentationSpan ↦ { span with before := line :: span.before }
      match sectionName? line with
      | some name => (documentationSpanFrom (name == "setting") rest).map push
      | none =>
          if inSettings && isDocumentationRow line then
            some ⟨[], line :: rest.takeWhile isContinuation, rest.dropWhile isContinuation⟩
          else (documentationSpanFrom inSettings rest).map push

def documentationSpan? (content : List String) : Option DocumentationSpan :=
  documentationSpanFrom false content

/-- How the note in generated files starts. -/
def noteStart : String :=
  "Generated by robomigrate"

/-- The first documentation cell that is not the note of a generated file. -/
def existingTitle? (content : String) : Option String := do
  let span ← documentationSpan? (lines content)
  (span.block.flatMap fun line ↦ (splitCells line).tail.map trim).find? fun cell ↦
    !cell.isEmpty && !startsWith cell noteStart

/-- The rows of a documentation setting whose texts are cells already. -/
def documentationBlock : List String → List String
  | [] => []
  | first :: rest => row ["Documentation", first] :: rest.map fun text ↦ row ["...", text]

/-- Puts the block in place of the documentation setting, or else after the header of the settings,
or else into a new settings section before the first section. -/
def placeDocumentation (block content : List String) : List String :=
  match documentationSpan? content with
  | some span => span.before ++ block ++ span.after
  | none =>
      let isSettings := fun line ↦ sectionName? line == some "setting"
      if content.any isSettings then
        let before := content.takeWhile fun line ↦ !isSettings line
        let rest := content.dropWhile fun line ↦ !isSettings line
        before ++ rest.take 1 ++ block ++ rest.drop 1
      else
        let notHeader := fun line ↦ !isHeader line
        content.takeWhile notHeader ++ "*** Settings ***" :: block ++ "" ::
          content.dropWhile notHeader

/-- Lines joined by line feeds, with a line feed at the end. -/
def joinLines (content : List String) : String :=
  String.intercalate "\n" content ++ "\n"

/-- Renews the documentation setting and keeps everything else. -/
def renewDocumentation (content : String) (documentation : List String) : String :=
  joinLines (placeDocumentation (documentationBlock documentation) (lines content))

def validationStart : String :=
  "# Validation:"

def validationComment (r : Report) : String :=
  validationStart ++ s!" {r.issues.length} issue(s)"

/-- Replaces the comments on earlier checks by one for this report, below the marker. -/
def annotateValidation (content : String) (r : Report) : String :=
  let kept := (lines content).filter fun line ↦ !startsWith line validationStart
  if r.isValid then joinLines kept
  else
    match kept with
    | first :: rest =>
        if isMarkerLine first then joinLines (first :: validationComment r :: rest)
        else joinLines (validationComment r :: first :: rest)
    | [] => joinLines [validationComment r]

structure TierRequest where
  mode : Mode
  tier : Tier
  force : Bool
  /-- Target path, which names a file without documentation. -/
  path : String
  deriving Repr

structure TierOutcome where
  content : String
  changed : Bool
  /-- The tier that ran. -/
  applied : Option Tier
  validation : Option Report
  deriving DecidableEq, Repr

/-- Regeneration without fresh content is only a check. -/
def effectiveTier (tier : Tier) (fresh : Option String) : Tier :=
  match tier, fresh with
  | .deepRegeneration, none => .validation
  | tier, _ => tier

/-- Whether a tier has been applied already, by what the marker records. -/
def isRecorded (recorded : Option Marker) (tier : Tier) : Bool :=
  recorded.any fun m ↦ decide (tier.number ≤ m.tier)

def fallbackTitle (path : String) : String :=
  "Migrated " ++ ofIdentifier (Path.displayName path)

/-- Runs a tier on an existing file, whatever is recorded. -/
def runTier (existing : String) (request : TierRequest) (fresh : Option String) : TierOutcome :=
  let recorded := Marker.parse? existing
  let effective := effectiveTier request.tier fresh
  let base := if effective == .deepRegeneration then fresh.getD existing else existing
  let title :=
    (existingTitle? existing <|> existingTitle? base).getD (fallbackTitle request.path)
  let tier := max ((recorded.map Marker.tier).getD 0) effective.number
  let documented := renewDocumentation base [title, generatedNote request.mode tier]
  let report := if effective == .quickRefresh then none else some (validate documented)
  let annotated :=
    match report with
    | some r => annotateValidation documented r
    | none => documented
  let marker : Marker :=
    { mode := request.mode, tier
      validated := report.isSome || recorded.any Marker.validated }
  let content := ensureMarker annotated marker
  ⟨content, content != existing, some effective, report⟩

/-- Applies a tier to an existing file. `fresh` is the content generated from its source, if there
is one. -/
def applyTier (existing : String) (request : TierRequest) (fresh : Option String) : TierOutcome :=
  if !request.force && isRecorded (Marker.parse? existing) request.tier then
    ⟨existing, false, none, none⟩
  else runTier existing request fresh

end SuiteMigration.Robot
