import SuiteMigration.Assoc
import SuiteMigration.Engine
import SuiteMigration.Path.Classification
import SuiteMigration.Repository.Basic
import SuiteMigration.Run.Request

/-!
The files that a run is about: those at paths with a given role, then those found in the searched
directories, sorted by path. A fresh migration leaves out what lies below the target root, unless a
path with a given role names it.
-/

set_option autoImplicit false
set_option relaxedAutoImplicit false

namespace SuiteMigration.Run

open SuiteMigration.Repository

/-- Names of source files. -/
def sourcePattern : String :=
  "*.java|*.kt|*.feature|*.properties"

/-- Names of migrated files. -/
def targetPattern : String :=
  "*.robot|*.resource"

def Request.pattern (r : Request) : String :=
  if r.operation.isTransformationOnly then targetPattern else sourcePattern

/-- The directories that are searched. -/
def Request.roots (r : Request) : List String :=
  if r.operation.isTransformationOnly then [r.targetRoot]
  else if r.sourcePaths.isEmpty then [""]
  else r.sourcePaths

/-- The paths with given roles, in the order of the roles. -/
def Request.orderedRolePaths (r : Request) : List (Role × String) :=
  Role.all.flatMap fun role ↦
    (r.rolePaths.filter fun (given, _) ↦ given == role).flatMap fun (_, paths) ↦
      paths.map fun path ↦ (role, path)

/-- One listing of a discovery: a directory, and the role that its files have. -/
structure Search where
  directory : String
  role : Option Role

def Request.searches (r : Request) : List Search :=
  (r.orderedRolePaths.map fun (role, path) ↦ ⟨path, some role⟩) ++
    r.roots.map fun root ↦ ⟨root, none⟩

/-- The role of a file found by a search; none if the file is left out. -/
def Request.roleOf? (r : Request) (search : Search) (path : String) : Option Role :=
  match search.role with
  | some role => some role
  | none =>
      if !r.operation.isTransformationOnly && Path.isUnder path r.targetRoot then none
      else some (Path.classify path)

/-- Adds the files of a listing; of two roles for one path the first counts. -/
def Request.addFound (r : Request) (search : Search) (found : Assoc Role)
    (files : List FileHandle) : Assoc Role :=
  files.foldl (fun acc file ↦
    match r.roleOf? search file.path with
    | some role => Assoc.insertNew file.path role acc
    | none => acc) found

variable {R : Type} [Repository R]

/-- Runs searches in order and collects what they find. -/
def searchAll (r : Request) : Assoc Role → List Search → R → Except Error (Assoc Role) × R
  | found, [], repo => (.ok found, repo)
  | found, search :: rest, repo =>
      match Repository.listFiles search.directory r.pattern (some r.readBranch) repo with
      | (.ok files, next) => searchAll r (r.addFound search found files) rest next
      | (.error e, next) => (.error e, next)

/-- The files that a request is about. -/
def discover (r : Request) (repo : R) : Except Error (List DiscoveredFile) × R :=
  let (result, next) := searchAll r [] r.searches repo
  (result.map fun found ↦ found.map fun (path, role) ↦ ⟨path, role, r.readBranch⟩, next)

end SuiteMigration.Run
