import SuiteMigration.Git.Address
import SuiteMigration.Git.Reference
import SuiteMigration.Repository.Store

/-!
A local repository with branches, of which one is checked out. Every write makes a commit; files are
listed in the order of their paths.
-/

set_option autoImplicit false
set_option relaxedAutoImplicit false

namespace SuiteMigration.Git

open SuiteMigration.Text SuiteMigration.Repository

structure Branch where
  tree : Tree
  /-- The messages of the commits since the start, newest first. -/
  messages : List String := []
  deriving DecidableEq, Repr

structure Clone where
  branches : Assoc Branch
  /-- The branch that is checked out. -/
  head : String := "main"
  /-- The addresses of remotes by name. -/
  remotes : Assoc String := []
  /-- The token for pull requests. -/
  token : Option String := none
  deriving DecidableEq, Repr

/-- A repository whose branches all start from one tree. -/
def Clone.ofTree (files : List (String × String)) (branches : List String)
    (remotes : List (String × String)) : Clone :=
  let tree := Assoc.ofList files
  { branches := Assoc.ofList (("main" :: branches).map fun name ↦ (name, { tree }))
    remotes := Assoc.ofList remotes }

/-- The branch of a name, and the name it is kept under. -/
def Clone.branch (c : Clone) (name : String) : Except Error (String × Branch) :=
  let text := "cannot locate local branch '" ++ name ++ "'"
  match branchName? name with
  | none => .error ⟨.other, text⟩
  | some kept =>
      match c.branches.lookup kept with
      | some branch => .ok (kept, branch)
      | none => .error ⟨.notFound, text⟩

/-- The tree of a branch, or of the one that is checked out. -/
def Clone.tree (c : Clone) (name : Option String) : Except Error Tree := do
  let (_, branch) ← c.branch (name.getD c.head)
  return branch.tree

/-- The name under which a new branch is kept. -/
def Clone.newName (c : Clone) (name : String) : Except Error String :=
  if startsWith name "-" || name == "HEAD" then
    .error ⟨.other, "'" ++ name ++ "' is not a valid branch name"⟩
  else
    let reference := "refs/heads/" ++ withoutLeadingSlashes name
    match branchName? name with
    | none => .error ⟨.other, "the given reference name '" ++ reference ++ "' is not valid"⟩
    | some kept =>
        if Assoc.contains kept c.branches then
          .error ⟨.other, "failed to write reference '" ++ reference ++
            "': a reference with that name already exists"⟩
        else if c.branches.any fun (other, _) ↦ collide kept other then
          .error ⟨.other, "path to reference '" ++ reference ++ "' collides with existing one"⟩
        else .ok kept

def Clone.createBranch (c : Clone) (name base : String) : Except Error (Unit × Clone) := do
  let (_, source) ← c.branch base
  let kept ← c.newName name
  return ((), { c with branches := Assoc.insert kept source c.branches })

def Clone.deleteBranch (c : Clone) (name : String) : Except Error (Unit × Clone) := do
  let (kept, _) ← c.branch name
  if kept == c.head then
    throw ⟨.other, "cannot delete branch 'refs/heads/" ++ kept ++
      "' as it is the current HEAD of the repository"⟩
  return ((), { c with branches := Assoc.erase kept c.branches })

def Clone.listFiles (c : Clone) (directory pattern : String) (branch : Option String) :
    Except Error (List FileHandle) := do
  let tree ← c.tree branch
  return (tree.filter fun (path, _) ↦
    Path.isUnder path directory && Path.matchesPattern (Path.fileName path) pattern).map
      fun (path, _) ↦ ⟨path, none⟩

/-- Whether a path names a directory of a tree; one slash may follow it. -/
def isDirectory (tree : Tree) (path : String) : Bool :=
  let directory := (beforeEnd? "/" path).getD path
  tree.any fun (file, _) ↦ startsWith file (directory ++ "/")

/-- Whether a path starts inside the tree: with a segment that is a name. -/
def startsInside (path : String) : Bool :=
  match splitOn '/' path with
  | first :: _ => !(first.isEmpty || first == "." || first == "..")
  | [] => false

def Clone.readFile (c : Clone) (path : String) (branch : Option String) : Except Error String := do
  let tree ← c.tree branch
  if !startsInside path then throw ⟨.other, "repo path `" ++ path ++ "` should be relative"⟩
  match tree.lookup path with
  | some content => return content
  | none =>
      if isDirectory tree path then throw ⟨.other, "'" ++ path ++ "' is a directory"⟩
      else throw ⟨.notFound, "the path '" ++ path ++ "' does not exist in the given tree"⟩

/-- Names of the data of the repository; some file systems have the second for the first. -/
def dataNames : List String :=
  [".git", "git~1"]

/-- Whether some file system takes a segment for the data of the repository: by its name in any case
with points and spaces after it, or with a separator of its own. -/
def namesData (segment : String) : Bool :=
  dataNames.any fun name ↦
    match afterStart? name (toAsciiLower segment) with
    | some rest =>
        startsWith rest "\\" || startsWith rest ":" || rest.toList.all fun c ↦ c == '.' || c == ' '
    | none => false

/-- Whether a segment of a path would reach out of the tree or into the data of the repository. -/
def isReserved (segment : String) : Bool :=
  segment.isEmpty || segment == "." || segment == ".." || namesData segment

/-- Writes a file into a tree. A file takes the place of a directory of its name, and a directory on
its path that of a file. -/
def writePath (tree : Tree) (file : FileWrite) : Except Error Tree :=
  if (splitOn '/' file.path).any isReserved then
    .error ⟨.other, "invalid path: '" ++ file.path ++ "'"⟩
  else
    .ok (Assoc.insert file.path file.content
      (tree.filter fun (path, _) ↦ !collide path file.path))

/-- The message of a commit as it is shown. -/
def shownMessage (message : String) : String :=
  dropStartWhile (· == '\n') message

def Clone.commitCount (c : Clone) : Nat :=
  c.branches.foldl (fun n (_, branch) ↦ n + branch.messages.length) 0

def Clone.commit (c : Clone) (files : List FileWrite) (message name : String) :
    Except Error (String × Clone) := do
  let (kept, branch) ← c.branch name
  let tree ← files.foldlM writePath branch.tree
  let next : Branch := { tree, messages := shownMessage message :: branch.messages }
  return (hexadecimal 40 (c.commitCount + 1),
    { c with branches := Assoc.insert kept next c.branches })

/-- The names of remotes that may lead to the host, in order. -/
def remoteNames : List String :=
  ["origin", "upstream", "github"]

/-- The project that pull requests go to. -/
def Clone.project (c : Clone) : Except Error Project :=
  match remoteNames.findSome? fun name ↦ (c.remotes.lookup name).bind Project.ofAddress? with
  | some project => .ok project
  | none =>
      .error ⟨.notFound,
        "No GitHub remote found. Make sure you have a remote pointing to github.com"⟩

/-- Pull requests need a token, and a connection that a local repository does not have. -/
def sendPullRequest (token : Option String) : Except Error String :=
  match token with
  | none => .error ⟨.auth, "GITHUB_TOKEN is not set; cannot create a pull request"⟩
  | some _ => .error ⟨.network, "no connection to " ++ host⟩

instance : Repository Clone where
  listBranches c := (.ok (Assoc.keys c.branches), c)
  createBranch name base c := keepOnError c (c.createBranch name base)
  deleteBranch name c := keepOnError c (c.deleteBranch name)
  listFiles directory pattern branch c := (c.listFiles directory pattern branch, c)
  readFile path branch c := (c.readFile path branch, c)
  writeFile file message branch c := keepOnError c (c.commit [file] message branch)
  writesMany _ := true
  writeFiles files message branch c := keepOnError c (c.commit files message branch)
  openPullRequest _ c := (c.project.bind fun _ ↦ sendPullRequest c.token, c)

/-- The directory of a file, which a listing reports with it. -/
def directoryOf (path : String) : String :=
  match breakOnLast? "/" path with
  | some (directory, _) => directory
  | none => ""

/-- The files of a tree that an earlier tree does not have, or has with another content. -/
def changedFiles (before tree : Tree) : List (String × String) :=
  tree.filter fun (path, content) ↦ before.lookup path != some content

end SuiteMigration.Git
