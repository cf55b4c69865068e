import SuiteMigration.Cli.Arguments
import SuiteMigration.Cli.Report
import SuiteMigration.Configuration.Source
import SuiteMigration.Json
import SuiteMigration.Run.Execution
import SuiteMigration.Run.Json

/-!
The program behind the command line: it loads the configuration, opens the repository, runs the
request and shows the response. The surroundings of the process are given.
-/

set_option autoImplicit false
set_option relaxedAutoImplicit false

namespace SuiteMigration.Cli

open SuiteMigration.Run

/-- What a path to a repository leads to. -/
inductive Opened (R : Type) where
  /-- Nothing is there. -/
  | missing (reason : String)
  /-- What is there is no repository. -/
  | unusable (reason : String)
  | repository (repo : R)

/-- The surroundings of the process. -/
structure Surroundings (R : Type) where
  /-- The text of the file at a path, if it can be read. -/
  readText : String → Option String
  userConfiguration : Option String := none
  environment : Configuration.Environment := []
  openRepository : String → Opened R
  /-- The branch of a migration that names none. -/
  newBranch : String
  /-- The name of this run. -/
  runId : String

/-- What the process writes to its output. -/
inductive Output where
  | text (s : String)
  | json (fields : List (String × Json))

def Output.render : Output → String
  | .text s => s
  | .json fields => (Json.object fields).render ++ "\n"

/-- What the process has done. -/
structure Outcome (R : Type) where
  exitCode : Nat
  output : Output := .text ""
  errors : String := ""
  /-- The repository after the run, if there was one. -/
  repo : Option R := none

def versionText : String :=
  "robomigrate 0.3.0\n"

def helpText : String :=
  "Migrate Cucumber/Selenium Java test suites to Robot Framework\n\nUsage: robomigrate [OPTIONS]\n"

def keyWarning : String :=
  "  Warning: AI requested but neither ROBOMIGRATE_AI_API_KEY nor OPENROUTER_API_KEY is set; " ++
    "continuing without AI.\n"

/-- An error with its cause. -/
def causedBy (text reason : String) : String :=
  "Error: " ++ text ++ "\n\nCaused by:\n    " ++ reason ++ "\n"

def Options.request (o : Options) (c : Configuration) (aiEnabled : Bool) : Request :=
  { operation := o.operation
    sourceBranch := o.sourceBranch
    targetBranch := o.targetBranch
    sourcePaths := o.sourcePaths
    rolePaths := c.rolePaths
    targetRoot := c.paths.targetRoot
    mode := o.mode
    tier := o.tier
    force := o.force
    ai :=
      { enabled := aiEnabled, provider := c.ai.provider, model := o.model.getD c.ai.model
        region := c.ai.region }
    batchSize := o.batchSize.getD c.committing.batchSize
    dryRun := o.dryRun
    createPullRequest := o.createPullRequest }

/-- The assistant that a key opens. It has no connection, so that no offer is answered. -/
def Options.assistant (o : Options) (c : Configuration) : Completion.Assistant :=
  let options := c.completionOptions
  .new { options with model := o.model.getD options.model } []

variable {R : Type}

def Surroundings.configuration (s : Surroundings R) (o : Options) : Configuration :=
  (Configuration.loadFrom o.configuration.isSome
    { named := o.configuration.bind s.readText
      here := s.readText Configuration.localName
      user := s.userConfiguration }).configuration

/-- Runs the request of the options on a repository. -/
def execute [Repository R] (s : Surroundings R) (o : Options) (c : Configuration) (repo : R) :
    Outcome R :=
  let wantsAi := o.ai || c.ai.enabled
  let hasKey := (Configuration.apiKey? s.environment).isSome
  let assistant := if wantsAi && hasKey then some (o.assistant c) else none
  let settings : Settings :=
    { library := c.library, sourceRoots := c.paths.sourceRoots, reading := c.readPolicy
      committing := c.commitPolicy, assistant, newBranch := s.newBranch }
  let (response, session) := run .quiet settings (o.request c assistant.isSome) repo
  let warning := if wantsAi && !hasKey then keyWarning else ""
  let progress := if o.json then "" else unlines (session.events.map eventLine)
  { exitCode := if response.isSuccess then 0 else 1
    output :=
      if o.json then .json (("run_id", .text s.runId) :: response.jsonFields)
      else .text (unlines (summaryLines response))
    errors := warning ++ progress
    repo := some session.repo }

/-- The whole program. -/
def perform [Repository R] (s : Surroundings R) (arguments : List String) : Outcome R :=
  match parse arguments with
  | .error .usage => { exitCode := 2 }
  | .error .help => { exitCode := 0, output := .text helpText }
  | .error .version => { exitCode := 0, output := .text versionText }
  | .ok o =>
      let c := s.configuration o
      match s.openRepository o.repository with
      | .missing reason =>
          { exitCode := 1
            errors := causedBy ("repository path " ++ o.repository ++ " does not exist") reason }
      | .unusable reason =>
          { exitCode := 1, errors := causedBy "failed to open git repository" reason }
      | .repository repo => execute s o c repo

end SuiteMigration.Cli
