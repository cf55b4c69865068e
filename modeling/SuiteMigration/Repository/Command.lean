import SuiteMigration.Repository.Basic

/-!
Calls of a repository as data, and what they are answered with.
-/

set_option autoImplicit false
set_option relaxedAutoImplicit false

namespace SuiteMigration.Repository

inductive Command where
  | listBranches
  | createBranch (name base : String)
  | deleteBranch (name : String)
  | list (directory pattern : String) (branch : Option String)
  | read (path : String) (branch : Option String)
  | exists (path : String) (branch : Option String)
  | write (file : FileWrite) (message branch : String)
  | writeMany (files : List FileWrite) (message branch : String)
  | openPullRequest (request : PullRequest)
  deriving DecidableEq, Repr

inductive Reply where
  | done
  | names (branches : List String)
  | files (found : List FileHandle)
  | text (content : String)
  | truth (b : Bool)
  /-- The name of a commit. -/
  | commit (id : String)
  /-- The address of a pull request. -/
  | address (url : String)
  deriving DecidableEq, Repr

variable {R α : Type}

/-- Turns a result into a reply. -/
def replyWith (f : α → Reply) (result : Except Error α × R) : Except Error Reply × R :=
  (result.1.map f, result.2)

/-- Calls a repository. -/
def Command.run [Repository R] (command : Command) (repo : R) : Except Error Reply × R :=
  match command with
  | .listBranches => replyWith .names (Repository.listBranches repo)
  | .createBranch name base => replyWith (fun _ ↦ .done) (Repository.createBranch name base repo)
  | .deleteBranch name => replyWith (fun _ ↦ .done) (Repository.deleteBranch name repo)
  | .list directory pattern branch =>
      replyWith .files (Repository.listFiles directory pattern branch repo)
  | .read path branch => replyWith .text (Repository.readFile path branch repo)
  | .exists path branch => replyWith .truth (fileExists path branch repo)
  | .write file message branch =>
      replyWith .commit (Repository.writeFile file message branch repo)
  | .writeMany files message branch =>
      replyWith .commit (Repository.writeFiles files message branch repo)
  | .openPullRequest request =>
      replyWith .address (Repository.openPullRequest request repo)

end SuiteMigration.Repository
