import Mathlib.Data.String.Basic
import SuiteMigration.Gherkin.Suite
import SuiteMigration.Proofs.Path.Segments
import SuiteMigration.Proofs.Robot.Marker
import SuiteMigration.Proofs.Skeleton

/-!
Imports between generated files. A suite imports the common resource by steps up to the target root,
and the common resource imports the other resources relative to its own directory. Both are followed
here as a reader of the files does, and lead to the paths under which the files are written.
-/

set_option autoImplicit false
set_option relaxedAutoImplicit false

namespace SuiteMigration.Path

open SuiteMigration.Text SuiteMigration.Chars SuiteMigration.Robot SuiteMigration.Keyword

/-! ### Following a relative path -/

/-- One segment of a relative path: `..` leads up, any other segment down. -/
def enter (directory : List String) (segment : String) : List String :=
  if segment = ".." then directory.dropLast else directory ++ [segment]

/-- The path that a relative path means in a directory. -/
def resolve (directory path : String) : String :=
  pathOf ((segments path).foldl enter (segments directory))

/-- The directory of a file. -/
def directoryOf (path : String) : String :=
  ((breakOnLast? "/" path).map Prod.fst).getD ""

/-- The file that a row imports into a file of the given directory. -/
def importedFile? (directory line : String) : Option String :=
  (Text.afterStart? (row ["Resource", scalar "CURDIR" ++ "/"]) line).map (resolve directory)

theorem resolve_pathOf {directory path : List String} (hdirectory : ∀ s ∈ directory, IsSegment s)
    (hpath : ∀ s ∈ path, IsSegment s) :
    resolve (pathOf directory) (pathOf path) = pathOf (path.foldl enter directory) := by
  rw [resolve, segments_pathOf hpath, segments_pathOf hdirectory]

theorem foldl_enter_down {path : List String} (h : ∀ s ∈ path, s ≠ "..") (directory : List String) :
    path.foldl enter directory = directory ++ path := by
  induction path generalizing directory with
  | nil => simp
  | cons s rest ih =>
    rw [List.foldl_cons, enter, if_neg (h s List.mem_cons_self),
      ih fun t ht ↦ h t (List.mem_cons_of_mem _ ht), List.append_assoc, List.singleton_append]

/-- As many steps up as there are directories lead to where they start. -/
theorem foldl_enter_up (root directories : List String) :
    (List.replicate directories.length "..").foldl enter (root ++ directories) = root := by
  induction directories using List.reverseRecOn with
  | nil => simp
  | append_singleton front last ih =>
    rw [List.length_append, List.length_singleton, List.replicate_succ, List.foldl_cons, enter,
      if_pos rfl, ← List.append_assoc, List.dropLast_concat, ih]

theorem isSegment_parent : IsSegment ".." :=
  ⟨by decide, by decide, by simp [isSlash]⟩

theorem directoryOf_pathOf {front : List String} {name : String} (hne : front ≠ [])
    (hname : IsSegment name) : directoryOf (pathOf (front ++ [name])) = pathOf front := by
  rw [directoryOf, breakOnLast?_pathOf hne hname]
  rfl

/-! ### The common resource -/

section Common

variable {root : List String}

/-- The segments of the common resource below the root. -/
def commonSegments : List String :=
  ["resources", "common.resource"]

theorem isSegment_commonSegments : ∀ s ∈ commonSegments, IsSegment s ∧ s ≠ ".." := by
  intro s hs
  simp only [commonSegments, List.mem_cons, List.not_mem_nil, or_false] at hs
  rcases hs with rfl | rfl <;> exact ⟨⟨by decide, by decide, by simp [isSlash]⟩, by decide⟩

theorem below_pathOf (hne : root ≠ []) (hroot : ∀ s ∈ root, IsSegment s) {path : List String}
    (hpath : path ≠ []) : Skeleton.below (pathOf root) (pathOf path) = pathOf (root ++ path) := by
  have hempty : (pathOf root).isEmpty = false := by simpa using pathOf_ne_empty hroot hne
  rw [Skeleton.below, trimSlashes_pathOf hroot, hempty, if_neg Bool.false_ne_true,
    pathOf_append hne hpath]

theorem commonResource_eq : Skeleton.commonResource = pathOf commonSegments := by decide

theorem below_commonResource (hne : root ≠ []) (hroot : ∀ s ∈ root, IsSegment s) :
    Skeleton.below (pathOf root) Skeleton.commonResource = pathOf (root ++ commonSegments) := by
  rw [commonResource_eq]
  exact below_pathOf hne hroot (List.cons_ne_nil _ _)

/-- Steps up in front of a path. -/
theorem join_replicate_append_pathOf (n : Nat) {path : List String} (hpath : path ≠ []) :
    String.join (List.replicate n "../") ++ pathOf path =
      pathOf (List.replicate n ".." ++ path) := by
  induction n with
  | zero => rfl
  | succ n ih =>
    have hne : List.replicate n ".." ++ path ≠ [] := by simp [hpath]
    rw [List.replicate_succ, List.replicate_succ, List.cons_append, pathOf_cons _ hne, ← ih]
    apply String.toList_injective
    simp

/-- The steps up from a target lead to the root. -/
theorem relativeToRoot_pathOf {layout : Layout} (hlayout : layout.targetRoot = pathOf root)
    (hne : root ≠ []) (hroot : ∀ s ∈ root, IsSegment s) {directories : List String} {name : String}
    (h : ∀ s ∈ directories ++ [name], IsSegment s) :
    layout.relativeToRoot (pathOf (root ++ (directories ++ [name]))) =
      String.join (List.replicate directories.length "../") := by
  have hsegments : ∀ s ∈ root ++ (directories ++ [name]), IsSegment s := by
    intro s hs
    exact (List.mem_append.mp hs).elim (hroot s) (h s)
  have hinside : Text.afterStart? (pathOf root ++ "/") (pathOf (root ++ (directories ++ [name]))) =
      some (pathOf (directories ++ [name])) :=
    (afterStart?_pathOf hroot hne hsegments).mpr ⟨_, by simp, rfl, rfl⟩
  rw [Layout.relativeToRoot, normalize_pathOf hsegments, hlayout, hinside, Option.getD_some,
    count_slash_pathOf h, List.length_append, List.length_singleton, Nat.add_sub_cancel]

/-- The steps up from a target and the path of the common resource lead to the common resource. -/
theorem resolve_relativeToRoot {layout : Layout} (hlayout : layout.targetRoot = pathOf root)
    (hne : root ≠ []) (hroot : ∀ s ∈ root, IsSegment s) {directories : List String} {name : String}
    (h : ∀ s ∈ directories ++ [name], IsSegment s) :
    resolve (directoryOf (pathOf (root ++ (directories ++ [name]))))
        (layout.relativeToRoot (pathOf (root ++ (directories ++ [name]))) ++
          Skeleton.commonResource) =
      Skeleton.below (pathOf root) Skeleton.commonResource := by
  have hcommonne : commonSegments ≠ [] := List.cons_ne_nil _ _
  have hname : IsSegment name := h name (by simp)
  have hdirectory : ∀ s ∈ root ++ directories, IsSegment s := by
    intro s hs
    exact (List.mem_append.mp hs).elim (hroot s) fun hs ↦ h s (List.mem_append_left _ hs)
  have hpath : ∀ s ∈ List.replicate directories.length ".." ++ commonSegments, IsSegment s := by
    intro s hs
    rcases List.mem_append.mp hs with hs | hs
    · exact List.eq_of_mem_replicate hs ▸ isSegment_parent
    · exact (isSegment_commonSegments s hs).1
  rw [relativeToRoot_pathOf hlayout hne hroot h, below_commonResource hne hroot, commonResource_eq,
    join_replicate_append_pathOf _ hcommonne, ← List.append_assoc,
    directoryOf_pathOf (by simp [hne]) hname, resolve_pathOf hdirectory hpath, List.foldl_append,
    foldl_enter_up, foldl_enter_down fun s hs ↦ (isSegment_commonSegments s hs).2]

/-- From the directory of the common resource, one step up and the path of a target below the root
lead to the target. -/
theorem resolve_resources (hne : root ≠ []) (hroot : ∀ s ∈ root, IsSegment s) {path : List String}
    (hpath : path ≠ []) (h : ∀ s ∈ path, IsSegment s ∧ s ≠ "..") :
    resolve (Skeleton.below (pathOf root) "resources") ("../" ++ pathOf path) =
      pathOf (root ++ path) := by
  have hresources : Skeleton.below (pathOf root) "resources" = pathOf (root ++ ["resources"]) := by
    rw [← below_pathOf hne hroot (List.cons_ne_nil _ _), pathOf_singleton]
  have hup : "../" ++ pathOf path = pathOf (".." :: path) := by
    rw [pathOf_cons _ hpath]
    apply String.toList_injective
    simp
  have hdirectory : ∀ s ∈ root ++ ["resources"], IsSegment s := by
    intro s hs
    rcases List.mem_append.mp hs with hs | hs
    · exact hroot s hs
    · exact List.mem_singleton.mp hs ▸ ⟨by decide, by decide, by simp [isSlash]⟩
  have hsegments : ∀ s ∈ ".." :: path, IsSegment s := by
    intro s hs
    rcases List.mem_cons.mp hs with rfl | hs
    · exact isSegment_parent
    · exact (h s hs).1
  rw [hresources, hup, resolve_pathOf hdirectory hsegments, List.foldl_cons, enter, if_pos rfl,
    List.dropLast_concat, foldl_enter_down fun s hs ↦ (h s hs).2]

end Common

/-! ### Rows -/

theorem importedFile?_row (directory path : String) :
    importedFile? directory (row ["Resource", scalar "CURDIR" ++ "/" ++ path]) =
      some (resolve directory path) := by
  have hrow : row ["Resource", scalar "CURDIR" ++ "/" ++ path] =
      row ["Resource", scalar "CURDIR" ++ "/"] ++ path := by
    apply String.toList_injective
    simp [row]
  rw [importedFile?, hrow, afterStart?_start_append, Option.map_some]

/-- A row whose first character is another one imports nothing. -/
theorem importedFile?_eq_none {line : String} (h : line.toList.head? ≠ some 'R')
    (directory : String) : importedFile? directory line = none := by
  rw [importedFile?, Text.afterStart?, Option.map_eq_none_iff, Option.map_eq_none_iff]
  cases hline : line.toList with
  | nil => rfl
  | cons c rest =>
    have hc : 'R' ≠ c := fun heq ↦ h (by rw [hline, heq]; rfl)
    exact if_neg hc

theorem importRow_eq (path : String) :
    Skeleton.importRow path = row ["Resource", scalar "CURDIR" ++ "/" ++ ("../" ++ path)] := by
  apply String.toList_injective
  simp [Skeleton.importRow, row]

/-- Rows are in the order of the paths that they import. -/
theorem importRow_lt {path other : String} (h : path < other) :
    Skeleton.importRow path < Skeleton.importRow other := by
  have hrow (s : String) : (Skeleton.importRow s).toList =
      (Skeleton.importRow "").toList ++ s.toList := by
    simp [Skeleton.importRow, row]
  rw [String.lt_iff_toList_lt, hrow path, hrow other]
  exact List.append_left_lt (String.lt_iff_toList_lt.mp h)

/-- The rows of the common resource that import a file are those for the generated resources. -/
theorem filter_commonLines (directory root library : String) (mode : Mode)
    (resources : List String) :
    (Skeleton.commonLines root library mode resources).filter
        (fun line ↦ (importedFile? directory line).isSome) =
      (Skeleton.importPaths root resources).map Skeleton.importRow := by
  have hother {lines : List String} (h : ∀ line ∈ lines, line.toList.head? ≠ some 'R') :
      lines.filter (fun line ↦ (importedFile? directory line).isSome) = [] := by
    refine List.filter_eq_nil_iff.mpr fun line hline ↦ ?_
    rw [importedFile?_eq_none (h line hline)]
    exact Bool.false_ne_true
  have hrows : ((Skeleton.importPaths root resources).map Skeleton.importRow).filter
      (fun line ↦ (importedFile? directory line).isSome) =
        (Skeleton.importPaths root resources).map Skeleton.importRow := by
    refine List.filter_eq_self.mpr fun line hline ↦ ?_
    obtain ⟨path, _, rfl⟩ := List.mem_map.mp hline
    rw [importRow_eq, importedFile?_row]
    rfl
  obtain ⟨rest, hmarker⟩ := ({ mode, tier := 1 } : Marker).render_eq_cons
  rw [Skeleton.commonLines, List.filter_append, List.filter_append, hrows, hother, hother,
    List.nil_append, List.append_nil]
  · decide +kernel
  · simp [row, hmarker]

/-- The only file that a suite imports is the one at the given path from its directory. -/
theorem filterMap_suiteSettings (f : Gherkin.Feature) (ctx : Context)
    (directory rootPath : String) :
    (Gherkin.suiteSettings f ctx rootPath).filterMap (importedFile? directory) =
      [resolve directory (rootPath ++ Skeleton.commonResource)] := by
  have hrow : row ["Resource", scalar "CURDIR" ++ "/" ++ rootPath ++ "resources/common.resource"] =
      row ["Resource", scalar "CURDIR" ++ "/" ++ (rootPath ++ Skeleton.commonResource)] := by
    rw [@String.append_assoc _ rootPath]
    rfl
  have hother {line : String} (h : line.toList.head? ≠ some 'R') :
      importedFile? directory line = none := importedFile?_eq_none h directory
  have hlibrary : importedFile? directory (row ["Library", ctx.library]) = none :=
    hother (by simp [row])
  have htags : importedFile? directory (row ("Force Tags" :: f.tags)) = none :=
    hother (by cases f.tags <;> simp [row])
  have hsetup : importedFile? directory (row ["Suite Setup", "Open Test Browser"]) = none :=
    hother (by decide)
  have hteardown : importedFile? directory (row ["Suite Teardown", "Close All Browsers"]) = none :=
    hother (by decide)
  have hbackground : importedFile? directory (row ["Test Setup", "Background Steps"]) = none :=
    hother (by decide)
  rw [Gherkin.suiteSettings, hrow]
  split <;> split <;>
    simp [importedFile?_row, hlibrary, htags, hsetup, hteardown, hbackground]

/-! ### Imports of generated files -/

/-- A slash before a path is no part of an ending without slashes. -/
theorem endsWith_append_slash {ending : String} (h : '/' ∉ ending.toList) (front path : String) :
    endsWith (front ++ "/" ++ path) ending = endsWith path ending := by
  rw [Bool.eq_iff_iff, Text.endsWith_iff, Text.endsWith_iff]
  have hchars : (front ++ "/" ++ path).toList = front.toList ++ '/' :: path.toList := by simp
  rw [hchars]
  constructor
  · intro hsuffix
    rcases List.suffix_or_suffix_of_suffix hsuffix (List.suffix_append _ _) with hcons | hcons
    · rcases List.suffix_cons_iff.mp hcons with heq | hpath
      · exact absurd (heq ▸ List.mem_cons_self) h
      · exact hpath
    · exact absurd (hcons.mem List.mem_cons_self) h
  · exact fun hsuffix ↦ hsuffix.trans ((List.suffix_cons _ _).trans (List.suffix_append _ _))

/-- What the common resource imports for a target: the path below the root leads back to the target,
and it is a resource other than the common one exactly if the target is. -/
theorem import_target {root path : List String} (hne : root ≠ []) (hroot : ∀ s ∈ root, IsSegment s)
    (hpath : path ≠ []) (h : ∀ s ∈ path, IsSegment s ∧ s ≠ "..") :
    let relative := Skeleton.relativePath (pathOf root) (pathOf (root ++ path))
    resolve (Skeleton.below (pathOf root) "resources") ("../" ++ relative) =
        pathOf (root ++ path) ∧
      endsWith relative ".resource" = endsWith (pathOf (root ++ path)) ".resource" ∧
      (relative ≠ Skeleton.commonResource ↔
        pathOf (root ++ path) ≠ Skeleton.below (pathOf root) Skeleton.commonResource) := by
  intro relative
  have hsegments : ∀ s ∈ root ++ path, IsSegment s := by
    intro s hs
    exact (List.mem_append.mp hs).elim (hroot s) fun hs ↦ (h s hs).1
  have hrelative : relative = pathOf path := by
    have hafter : Text.afterStart? (pathOf root ++ "/") (pathOf (root ++ path)) =
        some (pathOf path) :=
      (afterStart?_pathOf hroot hne hsegments).mpr ⟨path, hpath, rfl, rfl⟩
    change (Text.afterStart? (trimSlashes (pathOf root) ++ "/") _).getD _ = _
    rw [trimSlashes_pathOf hroot, hafter, Option.getD_some]
  refine ⟨hrelative ▸ resolve_resources hne hroot hpath h, ?_, ?_⟩
  · rw [hrelative, pathOf_append hne hpath, endsWith_append_slash (by decide)]
  · rw [hrelative, ← below_pathOf hne hroot hpath]
    exact not_congr ⟨congrArg _, Skeleton.below_injective⟩

theorem directoryOf_common {root : List String} (hne : root ≠ [])
    (hroot : ∀ s ∈ root, IsSegment s) :
    directoryOf (Skeleton.below (pathOf root) Skeleton.commonResource) =
      Skeleton.below (pathOf root) "resources" := by
  have hname : IsSegment "common.resource" := ⟨by decide, by decide, by simp [isSlash]⟩
  have hsplit : root ++ commonSegments = (root ++ ["resources"]) ++ ["common.resource"] := by
    simp [commonSegments]
  rw [below_commonResource hne hroot, hsplit,
    directoryOf_pathOf (by simp) hname, ← below_pathOf hne hroot (List.cons_ne_nil _ _),
    pathOf_singleton]

/-- Imports lead to the files that are written. For all roots, the common resource stands where the
steps up from each target lead, so that every suite imports it and nothing else; its own rows are in
ascending order, and from its directory they lead to the generated resources, each once, and nowhere
else. -/
theorem imports_resolve (targetRoot : String) (sourceRoots : List String)
    (sources : List (String × Role))
    (hsources : ∀ source ∈ sources,
      (Layout.withSourceRoots targetRoot sourceRoots).Moves source.1)
    (library : String) (hlibrary : Text.trim library ≠ "") (mode : Mode) :
    let layout := Layout.withSourceRoots targetRoot sourceRoots
    let targets := sources.map fun source ↦ layout.targetPath source.1 source.2
    let lines := Skeleton.commonLines layout.targetRoot (Text.trim library) mode targets
    ∃ common others,
      Skeleton.files layout.targetRoot library mode targets =
        .ok (⟨common, Skeleton.text lines⟩ :: others) ∧
      (∀ target ∈ targets,
        resolve (directoryOf target)
          (layout.relativeToRoot target ++ "resources/common.resource") = common ∧
        ∀ feature ctx, (Gherkin.suiteSettings feature ctx
          (layout.relativeToRoot target)).filterMap (importedFile? (directoryOf target)) =
            [common]) ∧
      let rows := lines.filter fun line ↦ (importedFile? (directoryOf common) line).isSome
      rows.Pairwise (· < ·) ∧
        ∀ file, (∃ row ∈ rows, importedFile? (directoryOf common) row = some file) ↔
          file ∈ targets ∧ endsWith file ".resource" = true ∧ file ≠ common := by
  intro layout targets lines
  obtain ⟨root, hne, hroot, hlayout⟩ := Layout.exists_targetRoot_eq targetRoot sourceRoots
  -- every target is the root, directories and a file name
  have htargets : ∀ target ∈ targets, ∃ directories name,
      (∀ s ∈ directories ++ [name], IsSegment s ∧ s ≠ "..") ∧
        target = pathOf (root ++ (directories ++ [name])) := by
    intro target htarget
    obtain ⟨source, hsource, rfl⟩ := List.mem_map.mp htarget
    exact Layout.exists_targetPath_eq hne hroot hlayout (hsources source hsource) source.2
  have hfiles : ∃ others, Skeleton.files layout.targetRoot library mode targets =
      .ok (⟨Skeleton.below layout.targetRoot Skeleton.commonResource, Skeleton.text lines⟩ ::
        others) := by
    have hempty : (Text.trim library).isEmpty = false := by simpa using hlibrary
    rw [Skeleton.files, hempty]
    exact ⟨_, rfl⟩
  obtain ⟨others, hothers⟩ := hfiles
  have hdirectory := directoryOf_common hne hroot
  rw [← hlayout] at hdirectory
  refine ⟨_, others, hothers, fun target htarget ↦ ?_, ?_⟩
  · obtain ⟨directories, name, hsegments, rfl⟩ := htargets target htarget
    have hresolve := resolve_relativeToRoot hlayout hne hroot
      fun s hs ↦ (hsegments s hs).1
    rw [← hlayout] at hresolve
    exact ⟨hresolve, fun feature ctx ↦ by rw [filterMap_suiteSettings, hresolve]⟩
  · rw [filter_commonLines, hdirectory]
    refine ⟨List.pairwise_map.mpr
      ((Skeleton.importPaths_pairwise _ _).imp importRow_lt), fun file ↦ ?_⟩
    have himport : ∀ target ∈ targets,
        let relative := Skeleton.relativePath layout.targetRoot target
        resolve (Skeleton.below layout.targetRoot "resources") ("../" ++ relative) = target ∧
          endsWith relative ".resource" = endsWith target ".resource" ∧
          (relative ≠ Skeleton.commonResource ↔
            target ≠ Skeleton.below layout.targetRoot Skeleton.commonResource) := by
      intro target htarget
      obtain ⟨directories, name, hsegments, rfl⟩ := htargets target htarget
      exact hlayout.symm ▸ import_target hne hroot (by simp) hsegments
    constructor
    · rintro ⟨line, hline, hfile⟩
      obtain ⟨path, hpath, rfl⟩ := List.mem_map.mp hline
      obtain ⟨⟨target, htarget, rfl⟩, hending, hother⟩ := Skeleton.mem_importPaths.mp hpath
      obtain ⟨hresolve, hsame, hiff⟩ := himport target htarget
      rw [importRow_eq, importedFile?_row, hresolve] at hfile
      obtain rfl := Option.some.inj hfile
      exact ⟨htarget, hsame.symm.trans hending, hiff.mp hother⟩
    · rintro ⟨htarget, hending, hother⟩
      obtain ⟨hresolve, hsame, hiff⟩ := himport file htarget
      refine ⟨_, List.mem_map_of_mem (Skeleton.mem_importPaths.mpr
        ⟨⟨file, htarget, rfl⟩, hsame.trans hending, hiff.mpr hother⟩), ?_⟩
      rw [importRow_eq, importedFile?_row, hresolve]

/-- A root of two segments and paths with backslashes, points and a space, one of them below the
root already. -/
theorem imports_resolve_nested_root :
    let layout := Layout.withSourceRoots ".\\tests//robot/" ["src/test/java/"]
    let sources := [("src\\test\\java/./acme/Login Steps.java", Role.stepDefinition),
      ("tests/robot/features/web/login.feature", Role.scenario)]
    let targets := ["tests/robot/acme/Login_Steps.resource", "tests/robot/features/web/login.robot"]
    (∀ source ∈ sources, layout.Moves source.1) ∧ Text.trim " Browser " ≠ "" ∧
      sources.map (fun source ↦ layout.targetPath source.1 source.2) = targets ∧
      targets.map layout.relativeToRoot = ["../", "../../"] ∧
      ∃ common content others,
        Skeleton.files layout.targetRoot " Browser " .hybrid targets =
          .ok (⟨common, content⟩ :: others) ∧
        ∀ target ∈ targets, resolve (directoryOf target)
          (layout.relativeToRoot target ++ "resources/common.resource") = common := by
  intro layout sources targets
  have hlayout : layout = ⟨"tests/robot", ["src/test/java"]⟩ := by
    have hroots : (["src/test/java/"].map normalize).filter (fun r ↦ !r.isEmpty) =
        ["src/test/java"] := by decide +kernel
    have htarget : normalize ".\\tests//robot/" = "tests/robot" := by decide +kernel
    simp only [layout, Layout.withSourceRoots, hroots, htarget, List.mergeSort_singleton]
    rfl
  have hsources : ∀ source ∈ sources, layout.Moves source.1 := by
    rintro source hsource
    simp only [sources, List.mem_cons, List.not_mem_nil, or_false] at hsource
    rcases hsource with rfl | rfl <;>
      exact ⟨by decide +kernel, by decide +kernel, by decide +kernel⟩
  have hlibrary : Text.trim " Browser " ≠ "" := by decide +kernel
  have htargets : sources.map (fun source ↦ layout.targetPath source.1 source.2) = targets := by
    rw [hlayout]
    decide +kernel
  obtain ⟨common, others, hfiles, hcommon, _⟩ :=
    imports_resolve ".\\tests//robot/" ["src/test/java/"] sources hsources " Browser " hlibrary
      .hybrid
  rw [htargets] at hfiles hcommon
  have hsteps : targets.map layout.relativeToRoot = ["../", "../../"] := by
    rw [hlayout]
    decide +kernel
  exact ⟨hsources, hlibrary, htargets, hsteps, common, _, others, hfiles,
    fun target htarget ↦ (hcommon target htarget).1⟩

end SuiteMigration.Path
