import SuiteMigration.Commit.Batch
import SuiteMigration.Robot.Marker
import SuiteMigration.Run.Discovery
import SuiteMigration.Run.Session

/-!
The transformation of the files of a run. A fresh migration may be merged with a target that exists
already; a target is regenerated from its source where the deepest tier asks for it.
-/

set_option autoImplicit false
set_option relaxedAutoImplicit false

namespace SuiteMigration.Run

open SuiteMigration.Repository

variable {R : Type} [Repository R]

/-- A fresh migration of a source file. -/
def migrateFile (engine : Engine) (file : DiscoveredFile) (content : String) :
    Step R TransformedFile := do
  let session ← get
  let (transformed, assistant, elapsed) := engine.migrate session.assistant file content
  set { session with assistant, now := session.now + elapsed }
  return transformed

/-- Processes a target that exists already and carries a marker, with the fresh output as its
regenerated text. -/
def mergeExisting (engine : Engine) (request : Request) (branch : String)
    (fresh : TransformedFile) : Step R TransformedFile := do
  match ← readBack fresh.targetPath branch with
  | .error _ => return fresh
  | .ok existing =>
      if (Robot.Marker.parse? existing).isNone then return fresh
      let target : DiscoveredFile := ⟨fresh.targetPath, fresh.role, branch⟩
      let merged :=
        engine.retransform target existing request.tier request.force (some fresh.content)
      return { merged with sourcePath := fresh.sourcePath }

/-- Source files by their target paths; of two with one target the later counts. -/
abbrev SourceIndex := Assoc DiscoveredFile

def indexSources (engine : Engine) (files : List DiscoveredFile) : SourceIndex :=
  Assoc.ofList (files.map fun file ↦ (engine.layout.targetPath file.path file.role, file))

/-- The sources of the targets of a request; none if they cannot be listed. -/
def sourceIndex (engine : Engine) (request : Request) : Step R SourceIndex := do
  match ← access (discover { request with operation := .migration }) with
  | .ok files => return indexSources engine files
  | .error _ => return []

/-- Generates a target from its source again. A crash of the generators ends the run. -/
def regenerate (engine : Engine) (source : DiscoveredFile) : Step R (Option String) := do
  match ← readBack source.path source.branch with
  | .error _ => return none
  | .ok content =>
      match engine.generate source.path source.role content with
      | .ok output => return some output.content
      | .error e => if e.isCrash then throw (.crash e.message) else return none

def transformFile (engine : Engine) (request : Request) (branch : String) (sources : SourceIndex)
    (file : DiscoveredFile) (content : String) : Step R TransformedFile := do
  match request.operation with
  | .transformation =>
      let regenerated ←
        match sources.lookup file.path with
        | some source => regenerate engine source
        | none => pure none
      return engine.retransform file content request.tier request.force regenerated
  | .migration => migrateFile engine file content
  | .migrationAndTransformation =>
      let fresh ← migrateFile engine file content
      if fresh.isSuccess then mergeExisting engine request branch fresh else return fresh

def unchangedNote : String :=
  "unchanged: already at the requested tier"

/-- What a transformed file adds to the counts. -/
def Summary.addTransformed (s : Summary) (t : TransformedFile) : Summary :=
  if t.isSuccess then
    { s with
      transformed := s.transformed + 1
      degraded := if t.error.isSome then s.degraded + 1 else s.degraded
      validationFailures :=
        if t.isValid then s.validationFailures else s.validationFailures + 1
      unchanged := if t.strategy == .unchanged then s.unchanged + 1 else s.unchanged }
  else { s with transformFailures := s.transformFailures + 1 }

/-- The result of a transformed file that is not committed. -/
def TransformedFile.result? (t : TransformedFile) : Option FileResult :=
  if !t.isSuccess then
    some (.failed t.sourcePath (some t.targetPath) (t.error.getD "transform failed"))
  else if t.strategy == .unchanged then
    some (.success t.sourcePath t.targetPath (some unchangedNote))
  else none

/-- Counts a transformed file, and gives its content to be committed or settles its result. -/
def record (t : TransformedFile) : Step R (Option Commit.Item) := do
  count fun s ↦ s.addTransformed t
  match TransformedFile.result? t with
  | some result =>
      resolve t.sourcePath result
      return none
  | none => return some ⟨t.targetPath, t.content, t.role, some t.sourcePath⟩

/-- Transforms files in order, from a number on, and gives what is to be committed. -/
def transformFrom (observer : Observer) (engine : Engine) (request : Request) (branch : String)
    (sources : SourceIndex) (total : Nat) :
    Nat → List (DiscoveredFile × String) → Step R (List Commit.Item)
  | _, [] => return []
  | done, (file, content) :: rest => do
      let transformed ← transformFile engine request branch sources file content
      let item ← record transformed
      notify observer ⟨"Transformed " ++ file.path, .transforming, scaled 40 30 (done + 1) total⟩
      let items ← transformFrom observer engine request branch sources total (done + 1) rest
      return item.toList ++ items

/-- Transforms the files that could be read. -/
def transformAll (observer : Observer) (engine : Engine) (request : Request) (branch : String)
    (loaded : List (DiscoveredFile × String)) : Step R (List Commit.Item) := do
  announce observer s!"Transforming {loaded.length} files" .transforming 40
  let sources ←
    if request.operation.isTransformationOnly && request.tier == .deepRegeneration then
      sourceIndex engine request
    else pure []
  let items ← transformFrom observer engine request branch sources loaded.length 0 loaded
  enter .transforming 70
  return items

end SuiteMigration.Run
