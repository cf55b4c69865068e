import SuiteMigration.Proofs.Path.Segments
import SuiteMigration.Proofs.Path.TargetPath
import SuiteMigration.Proofs.Path.Wildcard
import SuiteMigration.Proofs.Repository.History
import SuiteMigration.Proofs.Run.ResultTable
import SuiteMigration.Repository.Store
import SuiteMigration.Run.Discovery

/-!
Which paths a discovery finds, and which of them lie below the target root. The patterns of its
listings ask for names with one of a few endings, and a listing gives the files below its directory
whose names end so, in the order of their paths. Names that start with a star are left out, because
the star of the pattern is spent on that of the name; only those that have nothing but the ending
behind it are found.

A path is found if a search lists it that is not told to leave it out; only the searches of
directories leave out what lies below the target root, and they read the root as it is written,
while the layout of the output normalizes it. So a fresh migration can find files of the output:
where a path with a given role names them, and where the two readings of the root differ.
-/

set_option autoImplicit false
set_option relaxedAutoImplicit false

namespace SuiteMigration.Run

open SuiteMigration.Text SuiteMigration.Repository

/-! ### Endings -/

def sourceEndings : List String :=
  [".java", ".kt", ".feature", ".properties"]

def targetEndings : List String :=
  [".robot", ".resource"]

def hasEnding (endings : List String) (name : String) : Bool :=
  endings.any fun ending ↦ endsWith name ending

/-- A name that starts with a star and has more than an ending behind it. -/
def isOverlooked (endings : List String) (name : String) : Bool :=
  startsWith name "*" && !endings.any fun ending ↦ name == "*" ++ ending

/-- The patterns are a star before each of the endings, which have no wildcards themselves. -/
structure AskFor (patterns : String) (endings : List String) : Prop where
  pieces : (Chars.splitOn '|' patterns.toList).map Chars.trim =
    endings.map fun ending ↦ '*' :: ending.toList
  literal : ∀ ending ∈ endings, ∀ q ∈ ending.toList, q ≠ '*' ∧ q ≠ '?'

theorem sourcePattern_askFor : AskFor sourcePattern sourceEndings :=
  ⟨by decide +kernel, by simp [sourceEndings]⟩

theorem targetPattern_askFor : AskFor targetPattern targetEndings :=
  ⟨by decide +kernel, by simp [targetEndings]⟩

theorem startsWith_star_iff {name : String} :
    startsWith name "*" = true ↔ name.toList.head? = some '*' := by
  rw [startsWith_iff]
  change ['*'] <+: name.toList ↔ _
  cases name.toList with
  | nil => simp
  | cons c rest => simp [eq_comm]

/-- A name matches such patterns exactly if it has one of the endings and is not overlooked. -/
theorem AskFor.matchesPattern_eq {patterns : String} {endings : List String}
    (h : AskFor patterns endings) (name : String) :
    Path.matchesPattern name patterns = (hasEnding endings name && !isOverlooked endings name) := by
  have hmatches : Path.matchesPattern name patterns = true ↔ ∃ ending ∈ endings,
      name.toList = '*' :: ending.toList ∨
        ending.toList <:+ name.toList ∧ name.toList.head? ≠ some '*' := by
    rw [Path.matchesPattern, h.pieces, List.any_map, List.any_eq_true]
    refine exists_congr fun ending ↦ and_congr_right fun hending ↦ ?_
    exact Path.wildcardMatch_star_iff (h.literal ending hending)
  have hending : hasEnding endings name = true ↔ ∃ ending ∈ endings,
      ending.toList <:+ name.toList := by
    simp [hasEnding, endsWith_iff]
  have hoverlooked : isOverlooked endings name = true ↔ name.toList.head? = some '*' ∧
      ∀ ending ∈ endings, name.toList ≠ '*' :: ending.toList := by
    have hsame (ending : String) : name = "*" ++ ending ↔ name.toList = '*' :: ending.toList := by
      rw [← String.toList_inj, String.toList_append]
      rfl
    simp [isOverlooked, startsWith_star_iff, hsame]
  rw [Bool.eq_iff_iff, Bool.and_eq_true, Bool.not_eq_true', ← Bool.not_eq_true, hmatches, hending,
    hoverlooked]
  constructor
  · rintro ⟨ending, hmem, hname | ⟨hsuffix, hhead⟩⟩
    · refine ⟨⟨ending, hmem, ?_⟩, fun hnot ↦ hnot.2 ending hmem hname⟩
      rw [hname]
      exact List.suffix_cons _ _
    · exact ⟨⟨ending, hmem, hsuffix⟩, fun hnot ↦ hhead hnot.1⟩
  · rintro ⟨⟨ending, hmem, hsuffix⟩, hnot⟩
    by_cases hhead : name.toList.head? = some '*'
    · have hexact : ∃ other ∈ endings, name.toList = '*' :: other.toList := by
        by_contra hnone
        exact hnot ⟨hhead, fun other hother hname ↦ hnone ⟨other, hother, hname⟩⟩
      obtain ⟨other, hother, hname⟩ := hexact
      exact ⟨other, hother, Or.inl hname⟩
    · exact ⟨ending, hmem, Or.inr ⟨hsuffix, hhead⟩⟩

/-! ### Listings -/

/-- The files at or below a directory whose names have one of the endings, in their order. -/
def candidates (endings : List String) (directory : String) (tree : Tree) : List FileHandle :=
  (tree.filter fun file ↦
    decide (Path.directorySegments directory <+: splitOn '/' file.1) &&
      hasEnding endings (Path.fileName file.1)).map fileHandle

/-- A listing with patterns that ask for endings gives the candidates but for those with names that
are overlooked. -/
theorem AskFor.listFiles_eq {patterns : String} {endings : List String}
    (h : AskFor patterns endings) {s : Store} {branch : Option String} {name : String} {tree : Tree}
    (hname : s.branchName branch = .ok name) (htree : s.Branch name tree) (directory : String) :
    s.listFiles directory patterns branch = .ok ((candidates endings directory tree).filter
      fun file ↦ !isOverlooked endings (Path.fileName file.path)) := by
  have hunder (path : String) : Path.isUnder path directory =
      decide (Path.directorySegments directory <+: splitOn '/' path) := by
    rw [Bool.eq_iff_iff, Path.isUnder_iff, decide_eq_true_iff]
  rw [Store.listFiles_eq hname htree, candidates, List.filter_map, List.filter_filter]
  refine congrArg (fun keep ↦ Except.ok ((tree.filter keep).map fileHandle)) (funext fun file ↦ ?_)
  rw [hunder, h.matchesPattern_eq, ← Bool.and_assoc, Function.comp_apply, fileHandle, Bool.and_comm]

/-- The listings of a repository in memory, whatever calls it has had, with the patterns for source
files and for migrated files. The files found are those at or below the directory whose names have
one of the endings, in the order of their paths, less those whose names start with a star and have
more than an ending behind it; so none is missed exactly if there is no such name. -/
theorem listings_complete_iff (start : String) (files : List (String × String)) (multiFile : Bool)
    (commands : List Command) {branch : Option String} {name : String} {tree : Tree}
    (hname : ((Store.ofBranch start files multiFile).after commands).branchName branch = .ok name)
    (htree : ((Store.ofBranch start files multiFile).after commands).Branch name tree)
    (directory patterns : String) (endings : List String)
    (hkind : (patterns, endings) ∈
      [(sourcePattern, sourceEndings), (targetPattern, targetEndings)]) :
    ∃ found, ((Store.ofBranch start files multiFile).after commands).listFiles directory patterns
        branch = .ok found ∧
      found = (candidates endings directory tree).filter
        (fun file ↦ !isOverlooked endings (Path.fileName file.path)) ∧
      (found.map FileHandle.path).Pairwise (· < ·) ∧
      (found = candidates endings directory tree ↔
        ∀ file ∈ candidates endings directory tree,
          isOverlooked endings (Path.fileName file.path) = false) := by
  have hask : AskFor patterns endings := by
    simp only [List.mem_cons, List.not_mem_nil, or_false, Prod.mk.injEq] at hkind
    obtain ⟨rfl, rfl⟩ | ⟨rfl, rfl⟩ := hkind
    · exact sourcePattern_askFor
    · exact targetPattern_askFor
  have hsorted : Assoc.Ascending tree :=
    (Store.sorted_ofBranch start files multiFile).after commands name tree htree
  refine ⟨_, hask.listFiles_eq hname htree directory, rfl, ?_, ?_⟩
  · have hkeys : (candidates endings directory tree).map FileHandle.path =
        (tree.filter _).map Prod.fst := List.map_map
    have hsublist := (List.filter_sublist (p := fun file ↦ !isOverlooked endings
      (Path.fileName file.path)) (l := candidates endings directory tree)).map FileHandle.path
    rw [hkeys] at hsublist
    exact List.Pairwise.sublist (hsublist.trans (List.filter_sublist.map Prod.fst)) hsorted
  · simp only [List.filter_eq_self, Bool.not_eq_true']

/-- A branch that was made from another and written to. Of its files with starred names the one that
has nothing but an ending behind the star is found; a file of a directory whose name goes on is not
below the directory. -/
theorem listings_complete_iff_written_branch :
    let store := (Store.ofBranch "main" [("src/b.java", "class B"), ("src/*.kt", "")] false).after
      [.createBranch "work" "main", .write ⟨"src/x/a.feature", ""⟩ "add" "work",
        .write ⟨"src/*c.java", ""⟩ "add" "work", .write ⟨"srcs/d.java", ""⟩ "add" "work"]
    let tree := [("src/*.kt", ""), ("src/*c.java", ""), ("src/b.java", "class B"),
      ("src/x/a.feature", ""), ("srcs/d.java", "")]
    store.branchName (some "work") = .ok "work" ∧ store.Branch "work" tree ∧
      (sourcePattern, sourceEndings) ∈
        [(sourcePattern, sourceEndings), (targetPattern, targetEndings)] ∧
      store.listFiles "/src/" sourcePattern (some "work") =
        .ok [⟨"src/*.kt", some 0⟩, ⟨"src/b.java", some 7⟩, ⟨"src/x/a.feature", some 0⟩] := by
  intro store tree
  have hname : store.branchName (some "work") = .ok "work" := rfl
  have htree : store.Branch "work" tree := by
    unfold Store.Branch
    decide +kernel
  obtain ⟨found, hlist, hfound, -, -⟩ := listings_complete_iff "main" _ false _ hname htree "/src/"
    sourcePattern sourceEndings List.mem_cons_self
  refine ⟨hname, htree, List.mem_cons_self, ?_⟩
  rw [hlist, hfound]
  decide +kernel

/-- A source file whose name starts with a star is not found. -/
theorem starred_source_overlooked :
    let store := Store.ofBranch "main" [("*a.java", "")] false
    store.listFiles "" sourcePattern (some "main") = .ok [] ∧
      candidates sourceEndings "" [("*a.java", "")] = [⟨"*a.java", some 0⟩] := by
  intro store
  exact ⟨rfl, by decide +kernel⟩

end SuiteMigration.Run

namespace SuiteMigration.Run

open SuiteMigration.Repository

variable {R : Type} [Repository R]

/-- What the searches list, each on the repository as the searches before it left it. -/
def listings (request : Request) : List Search → R → List (Search × List FileHandle)
  | [], _ => []
  | search :: rest, repo =>
      match Repository.listFiles search.directory request.pattern (some request.readBranch)
          repo with
      | (.ok files, next) => (search, files) :: listings request rest next
      | (.error _, _) => []

/-- A search that gives the files it finds a role, or one that does not, lists a path. -/
def ListedBy (request : Request) (repo : R) (givesRole : Bool) (path : String) : Prop :=
  ∃ search files, (search, files) ∈ listings request request.searches repo ∧
    search.role.isSome = givesRole ∧ path ∈ files.map FileHandle.path

/-! ### Found paths -/

/-- A listed file is added, or left out. -/
theorem addFound_cons_some {request : Request} {search : Search} {file : FileHandle} {role : Role}
    (h : request.roleOf? search file.path = some role) (found : Assoc Role)
    (rest : List FileHandle) :
    request.addFound search found (file :: rest) =
      request.addFound search (Assoc.insertNew file.path role found) rest := by
  simp only [Request.addFound, List.foldl_cons, h]

theorem addFound_cons_none {request : Request} {search : Search} {file : FileHandle}
    (h : request.roleOf? search file.path = none) (found : Assoc Role) (rest : List FileHandle) :
    request.addFound search found (file :: rest) = request.addFound search found rest := by
  simp only [Request.addFound, List.foldl_cons, h]

/-- A listing adds its paths but for those that are left out. -/
theorem mem_addFound_iff (request : Request) (search : Search) (found : Assoc Role)
    (files : List FileHandle) (path : String) :
    path ∈ Assoc.keys (request.addFound search found files) ↔
      path ∈ Assoc.keys found ∨
        path ∈ files.map FileHandle.path ∧ (request.roleOf? search path).isSome := by
  induction files generalizing found with
  | nil => simp [Request.addFound]
  | cons file rest ih =>
    rw [List.map_cons, List.mem_cons]
    cases hrole : request.roleOf? search file.path with
    | none =>
      rw [addFound_cons_none hrole, ih]
      have hother : (request.roleOf? search path).isSome → path ≠ file.path := by
        rintro hsome rfl
        rw [hrole] at hsome
        cases hsome
      exact or_congr_right (and_congr_left fun hsome ↦ (or_iff_right (hother hsome)).symm)
    | some role =>
      rw [addFound_cons_some hrole, ih, Assoc.mem_keys_insertNew]
      constructor
      · rintro ((rfl | hmem) | ⟨hmem, hsome⟩)
        · exact Or.inr ⟨Or.inl rfl, by rw [hrole]; rfl⟩
        · exact Or.inl hmem
        · exact Or.inr ⟨Or.inr hmem, hsome⟩
      · rintro (hmem | ⟨rfl | hmem, hsome⟩)
        · exact Or.inl (Or.inr hmem)
        · exact Or.inl (Or.inl rfl)
        · exact Or.inr ⟨hmem, hsome⟩

theorem mem_searchAll_iff {request : Request} {searches : List Search} {found last : Assoc Role}
    {repo : R} (h : (searchAll request found searches repo).1 = .ok last) (path : String) :
    path ∈ Assoc.keys last ↔ path ∈ Assoc.keys found ∨
      ∃ search files, (search, files) ∈ listings request searches repo ∧
        path ∈ files.map FileHandle.path ∧ (request.roleOf? search path).isSome := by
  induction searches generalizing found repo with
  | nil =>
    obtain rfl : found = last := Except.ok.inj h
    simp [listings]
  | cons search rest ih =>
    rw [searchAll] at h
    rw [listings]
    rcases hlist : Repository.listFiles search.directory request.pattern (some request.readBranch)
      repo with ⟨_ | files, next⟩
    · rw [hlist] at h
      cases h
    · rw [hlist] at h
      rw [ih h, mem_addFound_iff, or_assoc]
      refine or_congr_right ⟨?_, ?_⟩
      · rintro (hhere | ⟨other, others, hmem, hother⟩)
        · exact ⟨search, files, List.mem_cons_self, hhere⟩
        · exact ⟨other, others, List.mem_cons_of_mem _ hmem, hother⟩
      · rintro ⟨other, others, hmem, hother⟩
        obtain heq | hmem := List.mem_cons.mp hmem
        · obtain ⟨rfl, rfl⟩ := Prod.mk.inj heq
          exact Or.inl hother
        · exact Or.inr ⟨other, others, hmem, hother⟩

/-! ### Fresh migrations -/

/-- A fresh migration finds what a search for a given role lists, and of what the others list the
paths that are not below the target root as it is written. -/
theorem mem_discovered_iff {request : Request} {repo : R} {found : List DiscoveredFile}
    (hfresh : request.operation.isTransformationOnly = false)
    (h : (discover request repo).1 = .ok found) (path : String) :
    path ∈ found.map DiscoveredFile.path ↔ ListedBy request repo true path ∨
      ListedBy request repo false path ∧ Path.isUnder path request.targetRoot = false := by
  obtain ⟨pairs, hsearch, rfl⟩ := exists_found_of_discover h
  have hkept (search : Search) : (request.roleOf? search path).isSome ↔
      search.role.isSome = true ∨
        search.role.isSome = false ∧ Path.isUnder path request.targetRoot = false := by
    unfold Request.roleOf?
    rw [hfresh]
    cases search.role with
    | some role => simp
    | none => cases Path.isUnder path request.targetRoot <;> simp
  rw [List.map_map]
  change path ∈ Assoc.keys pairs ↔ _
  rw [mem_searchAll_iff hsearch]
  simp only [hkept, ListedBy, Assoc.keys, List.map_nil, List.not_mem_nil, false_or]
  constructor
  · rintro ⟨search, files, hmem, hpath, hrole | ⟨hrole, hunder⟩⟩
    · exact Or.inl ⟨search, files, hmem, hrole, hpath⟩
    · exact Or.inr ⟨⟨search, files, hmem, hrole, hpath⟩, hunder⟩
  · rintro (⟨search, files, hmem, hrole, hpath⟩ | ⟨⟨search, files, hmem, hrole, hpath⟩, hunder⟩)
    · exact ⟨search, files, hmem, hpath, Or.inl hrole⟩
    · exact ⟨search, files, hmem, hpath, Or.inr ⟨hrole, hunder⟩⟩

/-- Discovery and layout read the target root of a request in one way, on paths without backslashes,
exactly if it is written as it is normalized; the layout then takes every path as discovery would
take the normalized one. What a fresh migration finds below such a root are the paths that a search
for a given role lists, and no others. -/
theorem target_root_agreement_iff (request : Request) :
    let layout := Path.Layout.ofTargetRoot request.targetRoot
    ((∀ path, Path.IsRepositoryPath path → '\\' ∉ path.toList →
        Path.isUnder path request.targetRoot = layout.covers path) ↔
      Path.IsSettledRoot request.targetRoot) ∧
    (Path.IsSettledRoot request.targetRoot → ∀ path,
      layout.covers path = Path.isUnder (Path.normalize path) request.targetRoot ∧
        (Path.isUnder path request.targetRoot = true → layout.covers path = true)) ∧
    ∀ (R : Type) [Repository R] (repo : R) (found : List DiscoveredFile),
      request.operation.isTransformationOnly = false → (discover request repo).1 = .ok found →
      ∀ path,
        (path ∈ found.map DiscoveredFile.path ↔ ListedBy request repo true path ∨
          ListedBy request repo false path ∧ Path.isUnder path request.targetRoot = false) ∧
        (Path.IsSettledRoot request.targetRoot → Path.IsRepositoryPath path →
          '\\' ∉ path.toList → layout.covers path = true →
            (path ∈ found.map DiscoveredFile.path ↔ ListedBy request repo true path)) := by
  intro layout
  refine ⟨Path.isUnder_eq_covers_iff request.targetRoot,
    fun hroot path ↦ ⟨hroot.covers_eq path, hroot.covers_of_isUnder⟩, ?_⟩
  intro R _ repo found hfresh hfound path
  refine ⟨mem_discovered_iff hfresh hfound path, fun hroot hpath hbackslash hcovers ↦ ?_⟩
  have hunder : Path.isUnder path request.targetRoot = true :=
    (hroot.isUnder_eq hpath hbackslash).trans hcovers
  rw [mem_discovered_iff hfresh hfound path, hunder]
  simp

/-- A root with slashes at its ends is settled. Of the two files below it the one is found whose
directory is named for a given role. -/
theorem target_root_agreement_iff_slashed_root :
    let request : Request :=
      { targetRoot := "/out/robot/", sourcePaths := ["src", "out"],
        rolePaths := [(.pageObject, ["out/robot/pages"])] }
    let store := Store.ofBranch "main" [("src/A.java", ""), ("out/C.kt", ""),
      ("out/robot/B.java", ""), ("out/robot/pages/P.java", "")] false
    let found : List DiscoveredFile := [⟨"out/C.kt", .other, "main"⟩,
      ⟨"out/robot/pages/P.java", .pageObject, "main"⟩, ⟨"src/A.java", .other, "main"⟩]
    Path.IsSettledRoot request.targetRoot ∧
      request.operation.isTransformationOnly = false ∧
      (discover request store).1 = .ok found ∧
      (∀ path ∈ ["out/robot/B.java", "out/robot/pages/P.java"],
        Path.IsRepositoryPath path ∧ '\\' ∉ path.toList ∧
          (Path.Layout.ofTargetRoot request.targetRoot).covers path = true) ∧
      ListedBy request store true "out/robot/pages/P.java" ∧
      ¬ ListedBy request store true "out/robot/B.java" := by
  intro request store found
  have hroot : Path.IsSettledRoot request.targetRoot := by decide +kernel
  have hfound : (discover request store).1 = .ok found := by decide +kernel
  have hpaths : ∀ path ∈ ["out/robot/B.java", "out/robot/pages/P.java"],
      Path.IsRepositoryPath path ∧ '\\' ∉ path.toList ∧
        (Path.Layout.ofTargetRoot request.targetRoot).covers path = true := by
    decide +kernel
  obtain ⟨-, -, hdiscovered⟩ := target_root_agreement_iff request
  have hmem (path : String) (hpath : path ∈ ["out/robot/B.java", "out/robot/pages/P.java"]) :
      path ∈ found.map DiscoveredFile.path ↔ ListedBy request store true path :=
    (hdiscovered Store store found rfl hfound path).2 hroot (hpaths path hpath).1
      (hpaths path hpath).2.1 (hpaths path hpath).2.2
  refine ⟨hroot, rfl, hfound, hpaths, ?_, ?_⟩
  · exact (hmem _ (by simp)).mp (by decide +kernel)
  · exact fun hlisted ↦ absurd ((hmem _ (by simp)).mpr hlisted) (by decide +kernel)

/-- A root that starts with a point, or none at all, is read in two ways, and a path with a
backslash is read so even where the root is settled; a path with a given role is not compared with
the root. -/
theorem migrated_file_discovered :
    let files := [("robot/A.java", "")]
    let covered (root path : String) := (Path.Layout.ofTargetRoot root).covers path
    (Path.isUnder "robot/A.java" "./robot" = false ∧ covered "./robot" "robot/A.java" = true ∧
      (discover { targetRoot := "./robot" } (Store.ofBranch "main" files false)).1 =
        .ok [⟨"robot/A.java", .other, "main"⟩]) ∧
    (Path.isUnder "A.java" "" = true ∧ covered "" "A.java" = false ∧
      (discover { targetRoot := "" } (Store.ofBranch "main" [("A.java", "")] false)).1 =
        .ok []) ∧
    (Path.isUnder "robot\\A.java" "robot" = false ∧ covered "robot" "robot\\A.java" = true ∧
      (discover {} (Store.ofBranch "main" [("robot\\A.java", "")] false)).1 =
        .ok [⟨"robot\\A.java", .other, "main"⟩]) ∧
    (covered "robot" "robot/A.java" = true ∧
      (discover { rolePaths := [(.pageObject, ["robot"])] }
        (Store.ofBranch "main" files false)).1 = .ok [⟨"robot/A.java", .pageObject, "main"⟩]) := by
  decide +kernel

end SuiteMigration.Run
