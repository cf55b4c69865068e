import SuiteMigration.Commit.Writing
import SuiteMigration.Run.Transformation
import SuiteMigration.Skeleton

/-!
A whole run, from the check of access to the pull request. A run always ends with a response: a
failure or a crash in any phase is reported in it, and every discovered file has one result.
-/

set_option autoImplicit false
set_option relaxedAutoImplicit false

namespace SuiteMigration.Run

open SuiteMigration.Repository

/-- What runs share. -/
structure Settings where
  library : String := defaultLibrary
  /-- The default ones when there are none. -/
  sourceRoots : List String := []
  reading : Reading.Policy := {}
  committing : Commit.Policy := {}
  assistant : Option Completion.Assistant := none
  /-- The branch of a migration whose request names none. -/
  newBranch : String

def Settings.engine (s : Settings) (request : Request) : Engine :=
  let layout :=
    if s.sourceRoots.isEmpty then Path.Layout.ofTargetRoot request.targetRoot
    else .withSourceRoots request.targetRoot s.sourceRoots
  .new request.mode s.library layout

/-- The assistant, if the request wants one. -/
def Settings.assistantFor (s : Settings) (request : Request) : Option Completion.Assistant :=
  if request.ai.enabled then s.assistant else none

variable {R : Type} [Repository R]

/-- Checks that the branch to be read is there, and gives all branches. -/
def validateAccess (observer : Observer) (request : Request) : Step R (List String) := do
  announce observer "Validating repository access" .validating 5
  let branches ← accessOr (Failure.ofAccess · request.readBranch) Repository.listBranches
  if branches.contains request.readBranch then return branches
  throw (.failure (.ofAccess (missingBranch request.readBranch) request.readBranch))

/-- Finds the files of the run. -/
def discoverFiles (observer : Observer) (request : Request) : Step R (List DiscoveredFile) := do
  announce observer "Discovering files" .analyzing 15
  let files ← accessOr (Failure.ofAccess · request.readBranch) (discover request)
  count fun s ↦ { s with discovered := files.length }
  modify fun s ↦ { s with entries := files.map fun file ↦ { file } }
  return files

def branchFailure (name : String) (e : Error) : Failure :=
  ⟨.branch, "could not create branch '" ++ name ++ "': " ++ e.message⟩

/-- The branch that the output goes to. A migration creates it, unless it is there already or the
run is dry. -/
def prepareBranch (settings : Settings) (request : Request) (branches : List String) :
    Step R String := do
  let branch :=
    if request.operation.isTransformationOnly then request.readBranch
    else request.targetBranch.getD settings.newBranch
  if !request.operation.isTransformationOnly && !request.dryRun && !branches.contains branch then
    accessOr (branchFailure branch) (Repository.createBranch branch request.sourceBranch)
  modify fun s ↦ { s with status := { s.status with branch := some branch } }
  return branch

def readEvent (total done : Nat) : Event :=
  ⟨s!"Read {done}/{total} files", .analyzing, scaled 20 20 done total⟩

/-- Reads files with a pool of workers, until the observer crashes. -/
def readPool (observer : Observer) (policy : Reading.Policy) (files : List DiscoveredFile) :
    Step R (List Reading.Outcome) := do
  let session ← get
  let stops := fun done ↦
    (observer (session.events.length + done - 1) (readEvent files.length done)).isSome
  let pool := Reading.readAll policy stops files session.repo session.now
  set { session with repo := pool.repo, now := pool.now, calls := session.calls ++ pool.calls }
  (List.range pool.finished.length).forM fun i ↦
    notify observer (readEvent files.length (i + 1))
  return pool.outcomes files.length

/-- Sorts the outcomes of reading: what was read goes on, and the rest has failed. -/
def collectRead : List Reading.Outcome → Step R (List (DiscoveredFile × String))
  | [] => return []
  | outcome :: rest => do
      match outcome.result with
      | .ok content => return (outcome.file, content) :: (← collectRead rest)
      | .error e =>
          count fun s ↦ { s with readFailures := s.readFailures + 1 }
          let path := outcome.file.path
          resolve path (.failed path none ("read failed: " ++ e.message))
          collectRead rest

def readFiles (observer : Observer) (policy : Reading.Policy) (files : List DiscoveredFile) :
    Step R (List (DiscoveredFile × String)) := do
  announce observer s!"Reading {files.length} files" .analyzing 20
  let outcomes ← readPool observer policy files
  enter .analyzing 40
  collectRead outcomes

/-- The files that all suites share. Their imports are the resources to be committed. -/
def skeletonItems (observer : Observer) (engine : Engine) (request : Request)
    (items : List Commit.Item) : Step R (List Commit.Item) := do
  if request.operation.isTransformationOnly then return []
  announce observer "Generating project skeleton" .generating 75
  match Skeleton.files engine.layout.targetRoot engine.library request.mode
      (items.map Commit.Item.path) with
  | .error f => throw (.failure f)
  | .ok files =>
      count fun s ↦ { s with skeletonFiles := files.length }
      return files.map fun file ↦ ⟨file.path, file.content, .resource, none⟩

def dryRunNote : String :=
  "dry run: not committed"

/-- A dry run settles its files without writing them. -/
def settleDry : List Commit.Item → Step R Unit
  | [] => return ()
  | item :: rest => do
      if let some source := item.source then
        resolve source (.success source item.path (some dryRunNote))
      settleDry rest

/-- Settles a file by the outcome of its batch. Shared files have no result. -/
def settleItem (result : Except Error (List String)) (item : Commit.Item) : Step R Unit := do
  if let some source := item.source then
    match result with
    | .ok _ =>
        count fun s ↦ { s with committed := s.committed + 1 }
        resolve source (.success source item.path none)
    | .error e =>
        count fun s ↦ { s with commitFailures := s.commitFailures + 1 }
        resolve source (.failed source (some item.path) ("commit failed: " ++ e.message))

def settleItems (result : Except Error (List String)) : List Commit.Item → Step R Unit
  | [] => return ()
  | item :: rest => do
      settleItem result item
      settleItems result rest

def settleOutcomes : List Commit.Outcome → Step R Unit
  | [] => return ()
  | outcome :: rest => do
      settleItems outcome.result outcome.items
      settleOutcomes rest

def batchEvent (total index : Nat) : Event :=
  ⟨s!"Committed batch {index + 1}/{total}", .committing, scaled 80 15 (index + 1) total⟩

/-- Writes batches until the observer crashes. -/
def writeBatches (observer : Observer) (policy : Commit.Policy) (branch : String)
    (batches : List (List Commit.Item)) : Step R (List Commit.Outcome) := do
  let session ← get
  let stops := fun index ↦
    (observer (session.events.length + index) (batchEvent batches.length index)).isSome
  let (outcomes, repo, now) :=
    Commit.commitBatches policy stops branch batches session.repo session.now
  set { session with repo, now }
  outcomes.forM fun outcome ↦ notify observer (batchEvent batches.length outcome.index)
  return outcomes

/-- The size of batches: that of the request, unless it is zero. -/
def batchSize (policy : Commit.Policy) (request : Request) : Nat :=
  if request.batchSize == 0 then policy.batchSize else request.batchSize

def commitFiles (observer : Observer) (policy : Commit.Policy) (request : Request)
    (branch : String) (items skeleton : List Commit.Item) : Step R Unit := do
  announce observer s!"Committing {items.length} files" .committing 80
  if request.dryRun then settleDry items
  else if !items.isEmpty || !skeleton.isEmpty then
    let batches := Commit.planBatches items skeleton (batchSize policy request)
    count fun s ↦ { s with batches := batches.length }
    settleOutcomes (← writeBatches observer policy branch batches)
  enter .committing 95

def pullRequestBody (request : Request) (summary : Summary) : String :=
  "Automated " ++ request.operation.label ++ " to Robot Framework.\n\n" ++
  s!"- Files discovered: {summary.discovered}\n" ++
  s!"- Files committed: {summary.committed}\n" ++
  s!"- Placeholders after errors: {summary.degraded}\n" ++
  s!"- Validation issues: {summary.validationFailures}\n" ++
  "- Mode: " ++ request.mode.label ++ s!", tier: {request.tier.number}\n"

def pullRequest (request : Request) (branch : String) (summary : Summary) : PullRequest :=
  { title := s!"Migrate {summary.committed} files to Robot Framework"
    body := pullRequestBody request summary
    head := branch
    base := request.sourceBranch }

def pullRequestFailure (e : Error) : Failure :=
  ⟨.pullRequest, "could not open pull request: " ++ e.message⟩

/-- Opens a pull request, if the request asks for it and there is something to pull. -/
def requestPull (observer : Observer) (request : Request) (branch : String) : Step R Unit := do
  let summary := (← get).summary
  if request.createPullRequest && !request.dryRun && decide (0 < summary.committed) &&
      branch != request.sourceBranch then
    announce observer "Opening pull request" .committing 97
    let url ← accessOr pullRequestFailure
      (Repository.openPullRequest (pullRequest request branch summary))
    modify fun s ↦ { s with status := { s.status with pullRequest := some url } }

/-- What happens to the files of a run that has some. -/
def process (observer : Observer) (settings : Settings) (engine : Engine) (request : Request)
    (branches : List String) (files : List DiscoveredFile) : Step R Unit := do
  let branch ← prepareBranch settings request branches
  let loaded ← readFiles observer settings.reading files
  let items ← transformAll observer engine request branch loaded
  let skeleton ← skeletonItems observer engine request items
  commitFiles observer settings.committing request branch items skeleton
  requestPull observer request branch
  announce observer "Migration complete" .completed 100

/-- All phases of a run. -/
def execute (observer : Observer) (settings : Settings) (engine : Engine) (request : Request) :
    Step R Unit := do
  let branches ← validateAccess observer request
  let files ← discoverFiles observer request
  if files.isEmpty then
    announce observer "No matching files found; nothing to do" .completed 100
  else process observer settings engine request branches files

/-- The last report of a run; a crash of the observer no longer matters. -/
def finalEvent (status : Status) (failure : Option Failure) : Event :=
  { message :=
      match failure with
      | some f => "Migration failed: " ++ f.describe
      | none => "Migration complete"
    phase := status.phase
    percent := status.percent }

/-- The reason of files that no phase has settled. -/
def unsettledReason (failure : Option Failure) : String :=
  match failure with
  | some f => "not processed: " ++ f.message
  | none => "not processed"

/-- Ends a run: its failure, if there is one, is entered and reported. -/
def Session.close (s : Session R) (failure : Option Failure) : Session R :=
  let status := if failure.isSome then s.status.enter .failed s.status.percent else s.status
  { s with status, events := s.events ++ [finalEvent status failure] }

def Session.response (s : Session R) (failure : Option Failure) : Response :=
  { status := s.status
    results := s.entries.map (Entry.settled (unsettledReason failure))
    summary := s.summary
    usage := (s.assistant.map Completion.Assistant.usage).getD {}
    failure }

/-- Runs a request on a repository: the response, and the session at its end. -/
def run (observer : Observer) (settings : Settings) (request : Request) (repo : R) :
    Response × Session R :=
  let start : Session R := { repo, assistant := settings.assistantFor request }
  let (outcome, last) := (execute observer settings (settings.engine request) request).run start
  let failure :=
    match outcome with
    | .ok _ => none
    | .error stop => some stop.toFailure
  let closed := last.close failure
  (closed.response failure, closed)

end SuiteMigration.Run
