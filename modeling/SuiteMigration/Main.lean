import SuiteMigration.Cli.Stamp
import SuiteMigration.Cli.Workplace

/-!
The command line. The files below the repository path are the tree of the branch `main`; what a run
commits is written below that path.
-/

set_option autoImplicit false
set_option relaxedAutoImplicit false

namespace SuiteMigration.Main

open SuiteMigration.Cli

/-- An entry for a path, through which its metadata can be reached. -/
def entry (path : String) : IO.FS.DirEntry :=
  { root := path, fileName := "." }

def readText? (path : String) : IO (Option String) := do
  match ← (IO.FS.readFile path).toBaseIO with
  | .ok text => return some text
  | .error _ => return none

/-- The text files below a directory by their paths, without the data of the repository. -/
partial def filesBelow (directory : IO.FS.DirEntry) (place : String) :
    IO (List (String × String)) := do
  let mut found := []
  for e in ← directory.path.readDir do
    let path := if place.isEmpty then e.fileName else place ++ "/" ++ e.fileName
    if e.fileName == ".git" then
      continue
    else if ← e.path.isDir then
      found := found ++ (← filesBelow e path)
    else
      match ← (IO.FS.readFile e.path).toBaseIO with
      | .ok text => found := found ++ [(path, text)]
      | .error _ => pure ()
  return found

/-- Seconds since the start of 1970, by the time of a new file. -/
def now : IO Nat := do
  let (_, path) ← IO.FS.createTempFile
  let time := (← path.metadata).modified.sec
  IO.FS.removeFile path
  return time.toNat

/-- Random digits. -/
def randomDigits (width : Nat) : IO String :=
  return Text.hexadecimal width (← IO.rand 0 (Nat.pow 16 width - 1))

/-- A random name for a run. -/
def newRunId : IO String := do
  let version := "4" ++ (← randomDigits 3)
  let variant := Text.hexadecimal 1 (← IO.rand 8 11) ++ (← randomDigits 3)
  return String.intercalate "-"
    [← randomDigits 8, ← randomDigits 4, version, variant, ← randomDigits 12]

def environment : IO Configuration.Environment := do
  let names := "GITHUB_TOKEN" :: Configuration.keyVariables
  let values ← names.mapM fun name ↦ return (name, ← IO.getEnv name)
  return Assoc.ofList (values.filterMap fun (name, value) ↦ value.map fun v ↦ (name, v))

/-- The configuration file of the user. -/
def userConfiguration : IO (Option String) := do
  let directory ←
    match ← IO.getEnv "XDG_CONFIG_HOME" with
    | some directory => pure (some directory)
    | none => return (← IO.getEnv "HOME").map (· ++ "/.config")
  match directory with
  | some directory => readText? (directory ++ "/" ++ Configuration.userPath)
  | none => return none

/-- Opens what stands at a path. -/
def openRepository (path : String) (token : Option String) : IO (Opened Git.Clone) := do
  if !(← (entry path).path.pathExists) then
    return .missing "No such file or directory (os error 2)"
  else if !(← (entry (path ++ "/.git")).path.pathExists) then
    return .unusable ("could not find repository at '" ++ path ++ "'")
  else
    let clone := Git.Clone.ofTree (← filesBelow (entry path) "") [] []
    return .repository { clone with token }

/-- Writes a file below a directory. -/
def writeBelow (directory : String) (path content : String) : IO Unit := do
  IO.FS.createDirAll (directory ++ "/" ++ Git.directoryOf path)
  IO.FS.writeFile (directory ++ "/" ++ path) content

/-- Writes what the commits of a run have changed. -/
def writeChanges (directory : String) (before after : Git.Clone) : IO Unit := do
  let tree := ((before.branches.lookup before.head).map Git.Branch.tree).getD []
  for (_, branch) in after.branches do
    for (path, content) in Git.changedFiles tree branch.tree do
      writeBelow directory path content

/-- The surroundings of the process for its options. -/
def surroundings (o : Options) : IO (Surroundings Git.Clone) := do
  let environment ← environment
  let named ← o.configuration.mapM fun path ↦ return (path, ← readText? path)
  let here ← readText? Configuration.localName
  let opened ← openRepository o.repository (Configuration.hostToken? environment)
  let texts := [(Configuration.localName, here)] ++ named.toList
  return {
    readText := fun path ↦ (texts.lookup path).join
    userConfiguration := ← userConfiguration
    environment
    openRepository := fun _ ↦ opened
    newBranch := generatedBranch (← now)
    runId := ← newRunId }

/-- Runs the program on arguments and gives its exit code. -/
def run (arguments : List String) : IO UInt32 := do
  let options := (Cli.parse arguments).toOption.getD {}
  let around ← surroundings options
  let outcome := perform around arguments
  IO.eprint outcome.errors
  IO.print outcome.output.render
  match around.openRepository options.repository, outcome.repo with
  | .repository before, some after => writeChanges options.repository before after
  | _, _ => pure ()
  return outcome.exitCode.toUInt32

end SuiteMigration.Main

def main (arguments : List String) : IO UInt32 :=
  SuiteMigration.Main.run arguments
