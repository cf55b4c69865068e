import SuiteMigration.Configuration.Reader

/-!
Where the configuration comes from: a file that is named, else one in the working directory, else
one in the directory of the user. Secrets come from the environment.
-/

set_option autoImplicit false
set_option relaxedAutoImplicit false

namespace SuiteMigration.Configuration

open SuiteMigration.Text

/-- Name of the file in the working directory. -/
def localName : String :=
  "robomigrate.toml"

/-- Path of the file below the configuration directory of the user. -/
def userPath : String :=
  "robomigrate/config.toml"

inductive Place where
  | named
  | here
  | user
  deriving DecidableEq, Repr

/-- The texts of the files that exist. -/
structure Files where
  named : Option String := none
  here : Option String := none
  user : Option String := none
  deriving DecidableEq, Repr

/-- Where the configuration is looked for. A file that is named counts even if there is none. -/
def locate? (isNamed : Bool) (files : Files) : Option Place :=
  if isNamed then some .named
  else if files.here.isSome then some .here
  else if files.user.isSome then some .user
  else none

def Files.at (files : Files) : Place → Option String
  | .named => files.named
  | .here => files.here
  | .user => files.user

/-- A configuration that was loaded from a file. -/
structure Loaded where
  configuration : Configuration
  /-- Whether the file holds no configuration; it is then put aside. -/
  isCorrupt : Bool := false

/-- Loads a file. The defaults stand in for a missing or corrupt one. -/
def load (document : Option String) : Loaded :=
  match document with
  | none => { configuration := {} }
  | some text =>
      match parse? text with
      | some configuration => { configuration }
      | none => { configuration := {}, isCorrupt := true }

def loadFrom (isNamed : Bool) (files : Files) : Loaded :=
  load ((locate? isNamed files).bind files.at)

/-- Variables of the environment. -/
abbrev Environment := Assoc String

def notBlank (value : String) : Option String :=
  if isBlankText value then none else some value

/-- The variables that may hold the key of the completion service. -/
def keyVariables : List String :=
  ["ROBOMIGRATE_AI_API_KEY", "OPENROUTER_API_KEY"]

/-- The key of the completion service. The first variable that is set counts, even if it is
blank. -/
def apiKey? (environment : Environment) : Option String :=
  (keyVariables.findSome? fun name ↦ environment.lookup name).bind notBlank

/-- The token for pull requests. -/
def hostToken? (environment : Environment) : Option String :=
  (environment.lookup "GITHUB_TOKEN").bind notBlank

end SuiteMigration.Configuration
