import SuiteMigration.Assoc
import SuiteMigration.Path.FileName
import SuiteMigration.Path.Wildcard
import SuiteMigration.Repository.Basic

/-!
A repository in memory: branches map paths to contents, and commits and pull requests are recorded.
-/

set_option autoImplicit false
set_option relaxedAutoImplicit false

namespace SuiteMigration.Repository

open SuiteMigration.Text

abbrev Tree := Assoc String

structure CommitRecord where
  id : String
  branch : String
  message : String
  paths : List String
  deriving DecidableEq, Repr

structure Store where
  branches : Assoc Tree
  commits : List CommitRecord := []
  pullRequests : List PullRequest := []
  /-- Whether several files can be written as one commit. -/
  multiFile : Bool := false
  deriving DecidableEq, Repr

/-- A store with one branch. -/
def Store.ofBranch (branch : String) (files : List (String × String)) (multiFile : Bool) : Store :=
  { branches := [(branch, Assoc.ofList files)], multiFile }

/-- The branch that is read when none is named. -/
def Store.defaultBranch? (s : Store) : Option String :=
  match ["main", "master"].find? fun name ↦ Assoc.contains name s.branches with
  | some name => some name
  | none => s.branches.head?.map Prod.fst

def Store.branchName (s : Store) (branch : Option String) : Except Error String :=
  match branch <|> s.defaultBranch? with
  | some name => .ok name
  | none => .error ⟨.notFound, "repository has no branches"⟩

def Store.file? (s : Store) (branch path : String) : Option String :=
  (s.branches.lookup branch).bind fun tree ↦ tree.lookup path

/-- The name of a commit: its number in hexadecimal, with at least seven digits. -/
def commitId (number : Nat) : String :=
  hexadecimal 7 number

/-- Writes files into a tree in order, so that of two with one path the later counts. -/
def writeTree (tree : Tree) (files : List FileWrite) : Tree :=
  files.foldl (fun t file ↦ Assoc.insert file.path file.content t) tree

def Store.commit (s : Store) (files : List FileWrite) (message branch : String) :
    Except Error (String × Store) :=
  match s.branches.lookup branch with
  | none => .error (missingBranch branch)
  | some tree =>
      let id := commitId (s.commits.length + 1)
      .ok (id, { s with
        branches := Assoc.insert branch (writeTree tree files) s.branches
        commits := s.commits ++ [⟨id, branch, message, files.map FileWrite.path⟩] })

def Store.createBranch (s : Store) (name base : String) : Except Error (Unit × Store) :=
  if Assoc.contains name s.branches then
    .error ⟨.other, "branch '" ++ name ++ "' already exists"⟩
  else
    match s.branches.lookup base with
    | none => .error (missingBranch base)
    | some tree => .ok ((), { s with branches := Assoc.insert name tree s.branches })

def Store.deleteBranch (s : Store) (name : String) : Except Error (Unit × Store) :=
  if Assoc.contains name s.branches then
    .ok ((), { s with branches := Assoc.erase name s.branches })
  else .error (missingBranch name)

def Store.listFiles (s : Store) (directory pattern : String) (branch : Option String) :
    Except Error (List FileHandle) := do
  let name ← s.branchName branch
  match s.branches.lookup name with
  | none => throw (missingBranch name)
  | some tree =>
      return (tree.filter fun (path, _) ↦
        Path.isUnder path directory && Path.matchesPattern (Path.fileName path) pattern).map
          fun (path, content) ↦ ⟨path, some (byteSize content)⟩

def Store.readFile (s : Store) (path : String) (branch : Option String) : Except Error String := do
  let name ← s.branchName branch
  match s.file? name path with
  | some content => return content
  | none => throw ⟨.notFound, "'" ++ path ++ "' not found on '" ++ name ++ "'"⟩

def Store.openPullRequest (s : Store) (request : PullRequest) : Except Error (String × Store) :=
  if Assoc.contains request.head s.branches then
    let requests := s.pullRequests ++ [request]
    .ok (s!"memory://pulls/{requests.length}", { s with pullRequests := requests })
  else .error (missingBranch request.head)

def Store.writeFiles (s : Store) (files : List FileWrite) (message branch : String) :
    Except Error (String × Store) :=
  if s.multiFile then s.commit files message branch
  else .error ⟨.unsupported, "multi-file writes are disabled for this repository"⟩

instance : Repository Store where
  listBranches s := (.ok (Assoc.keys s.branches), s)
  createBranch name base s := keepOnError s (s.createBranch name base)
  deleteBranch name s := keepOnError s (s.deleteBranch name)
  listFiles directory pattern branch s := (s.listFiles directory pattern branch, s)
  readFile path branch s := (s.readFile path branch, s)
  writeFile file message branch s := keepOnError s (s.commit [file] message branch)
  writesMany s := s.multiFile
  writeFiles files message branch s := keepOnError s (s.writeFiles files message branch)
  openPullRequest request s := keepOnError s (s.openPullRequest request)

/-- Every branch and path of a commit, sorted, with the present content. -/
def Store.written (s : Store) : List (String × String × Option String) :=
  let pairs := s.commits.flatMap fun c ↦ c.paths.map fun path ↦ (c.branch, path)
  let branches := dedup (sort (pairs.map Prod.fst))
  branches.flatMap fun branch ↦
    (dedup (sort ((pairs.filter fun (b, _) ↦ b == branch).map Prod.snd))).map fun path ↦
      (branch, path, s.file? branch path)

end SuiteMigration.Repository
