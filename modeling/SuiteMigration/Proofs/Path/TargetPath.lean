import SuiteMigration.Proofs.Path.Segments

/-!
The shape of target paths, and two readings of a target root. Every target is the target root,
directories and a file name of keyword files, with no space in the name; a path of that shape is its
own target, and so is the root. Hence moving a path twice is moving it once, whatever the roots are
and however the path is written.

A listing compares paths with the root as it is written, less the slashes at its ends; a layout
normalizes the root and the path first, and takes `robot` for a root without segments. For paths
without backslashes the two agree exactly if the root is written as it is normalized.
-/

set_option autoImplicit false
set_option relaxedAutoImplicit false

namespace SuiteMigration.Path

open SuiteMigration.Text SuiteMigration.Chars

/-! ### File names -/

/-- A file name that a target can have: a stem without spaces and an extension of keyword files. -/
def IsTargetName (name : String) : Prop :=
  ∃ stem extension, stem ≠ [] ∧ ' ' ∉ stem ∧ extension ∈ targetExtensions ∧
    name.toList = stem ++ '.' :: extension.toList

theorem underscored_extension {extension : String} (h : extension ∈ targetExtensions) :
    ('.' :: extension.toList).map underscored = '.' :: extension.toList := by
  simp only [targetExtensions, List.mem_cons, List.not_mem_nil, or_false] at h
  rcases h with rfl | rfl <;> decide

theorem isTargetName_targetFileName {name : String} (h : name ≠ "") (role : Role) :
    IsTargetName (targetFileName name role.extension) := by
  obtain ⟨stem, extension, hextension, _, hstem, heq⟩ := exists_targetFileName_eq name role
  have hchars : (String.ofList stem ++ "." ++ extension).toList =
      stem ++ '.' :: extension.toList := by simp
  refine ⟨stem.map underscored, extension, by simpa using hstem h, fun hspace ↦ ?_, hextension, ?_⟩
  · obtain ⟨c, _, hc⟩ := List.mem_map.mp hspace
    exact underscored_ne_space c hc
  · rw [heq, toList_replace_space, hchars, List.map_append, underscored_extension hextension]

theorem IsTargetName.no_space {name : String} (h : IsTargetName name) : ' ' ∉ name.toList := by
  obtain ⟨stem, extension, _, hstem, hextension, heq⟩ := h
  have hend : ' ' ∉ '.' :: extension.toList := by
    simp only [targetExtensions, List.mem_cons, List.not_mem_nil, or_false] at hextension
    rcases hextension with rfl | rfl <;> decide
  rw [heq, List.mem_append, not_or]
  exact ⟨hstem, hend⟩

theorem IsTargetName.endsWith {name : String} (h : IsTargetName name) :
    Text.endsWith name ".robot" = true ∨ Text.endsWith name ".resource" = true := by
  obtain ⟨stem, extension, _, _, hextension, heq⟩ := h
  simp only [targetExtensions, List.mem_cons, List.not_mem_nil, or_false] at hextension
  rw [Text.endsWith_iff, Text.endsWith_iff, heq]
  rcases hextension with rfl | rfl
  · exact Or.inl (List.suffix_append _ _)
  · exact Or.inr (List.suffix_append _ _)

/-- A file name that a target can have is kept, whatever extension is asked for. -/
theorem IsTargetName.targetFileName_eq {name : String} (h : IsTargetName name)
    (extension : String) : targetFileName name extension = name := by
  have hspace := h.no_space
  obtain ⟨stem, known, hstem, _, hknown, heq⟩ := h
  have hpoint : '.' ∉ known.toList := by
    simp only [targetExtensions, List.mem_cons, List.not_mem_nil, or_false] at hknown
    rcases hknown with rfl | rfl <;> decide
  have hsplit : splitExtension name = (String.ofList stem, some known) := by
    have hbreak : breakOnLast? "." name = some (String.ofList stem, known) := by
      rw [Text.breakOnLast?, heq]
      change (Chars.breakOnLast? ['.'] _).map _ = _
      rw [breakOnLast?_singleton hpoint]
      simp
    have hne : (String.ofList stem).isEmpty = false := by simpa using hstem
    rw [splitExtension, hbreak]
    dsimp only
    rw [hne]
    rfl
  have hkept : ∀ c ∈ name.toList, underscored c = c := by
    intro c hc
    refine if_neg ?_
    rintro rfl
    exact hspace hc
  unfold targetFileName
  rw [hsplit]
  dsimp only
  rw [if_pos (by simpa using hknown), ← String.toList_inj, toList_replace_space,
    List.map_congr_left hkept, List.map_id']

/-! ### Paths -/

/-- A path of the shape that targets below a root have. -/
structure IsTargetBelow (root : List String) (target : String) (directories : List String)
    (name : String) : Prop where
  segments : ∀ s ∈ root ++ (directories ++ [name]), IsSegment s
  isTargetName : IsTargetName name
  path : target = pathOf (root ++ (directories ++ [name]))

section Below

variable {root directories : List String} {target name : String}

theorem IsTargetBelow.normalize_eq (h : IsTargetBelow root target directories name) :
    normalize target = target := by
  rw [h.path]
  exact normalize_pathOf h.segments

theorem IsTargetBelow.exists_append (h : IsTargetBelow root target directories name)
    (hroot : root ≠ []) : ∃ below, below ≠ "" ∧ target = pathOf root ++ "/" ++ below := by
  have hbelow : directories ++ [name] ≠ [] := by simp
  refine ⟨pathOf (directories ++ [name]), ?_, ?_⟩
  · exact pathOf_ne_empty (fun s hs ↦ h.segments s (List.mem_append_right _ hs)) hbelow
  · rw [h.path, pathOf_append hroot hbelow]

theorem IsTargetBelow.splitOn_eq (h : IsTargetBelow root target directories name) :
    splitOn '/' target = root ++ (directories ++ [name]) := by
  rw [h.path]
  exact splitOn_pathOf (by simp) h.segments

theorem IsTargetBelow.no_backslash (h : IsTargetBelow root target directories name) :
    '\\' ∉ target.toList := by
  rw [h.path]
  exact no_backslash_pathOf h.segments

theorem IsTargetBelow.fileName_eq (h : IsTargetBelow root target directories name)
    (hroot : root ≠ []) : fileName target = name := by
  have hname : IsSegment name := h.segments name (by simp)
  have hfront : root ++ directories ≠ [] := by simp [hroot]
  rw [fileName, h.path, ← List.append_assoc, breakOnLast?_pathOf hfront hname]

end Below

section Layout

variable {targetRoot path : String} {sourceRoots root : List String}
  (hne : root ≠ []) (hroot : ∀ s ∈ root, IsSegment s)
  (htarget : (Layout.withSourceRoots targetRoot sourceRoots).targetRoot = pathOf root)
include hne hroot htarget

/-- A path that is moved goes to a target below the root. -/
theorem Layout.exists_isTargetBelow (hempty : normalize path ≠ "")
    (hpath : normalize path ≠ (Layout.withSourceRoots targetRoot sourceRoots).targetRoot)
    (role : Role) :
    ∃ directories name, IsTargetBelow root
      ((Layout.withSourceRoots targetRoot sourceRoots).targetPath path role) directories name := by
  obtain ⟨directories, name, hall, _, heq⟩ :=
    Layout.exists_directories_eq hne hroot htarget hempty hpath role
  have hname : IsSegment name := (hall name (by simp)).1
  refine ⟨directories, _, fun s hs ↦ ?_, isTargetName_targetFileName hname.ne_empty role, heq⟩
  simp only [List.mem_append, List.mem_singleton] at hs
  rcases hs with hs | hs | rfl
  · exact hroot s hs
  · exact (hall s (List.mem_append_left _ hs)).1
  · exact (isSegment_targetFileName hname role).1

/-- A target below the root is its own target. -/
theorem Layout.targetPath_eq_self {target name : String} {directories : List String}
    (h : IsTargetBelow root target directories name) (role : Role) :
    (Layout.withSourceRoots targetRoot sourceRoots).targetPath target role = target := by
  obtain ⟨below, hbelow, hsplit⟩ := h.exists_append hne
  have hempty : normalize target ≠ "" := by
    rw [h.normalize_eq, hsplit]
    simp
  have hother : normalize target ≠ (Layout.withSourceRoots targetRoot sourceRoots).targetRoot := by
    rw [h.normalize_eq, htarget, h.path]
    intro hsame
    have := pathOf_injective h.segments hroot hsame
    simp at this
  have hunder : (Layout.withSourceRoots targetRoot sourceRoots).isUnderTarget
      (normalize target) = true := by
    have hstart : Text.startsWith target (pathOf root ++ "/") = true := by
      have hchars : target.toList = (pathOf root ++ "/").toList ++ below.toList := by
        rw [hsplit]
        exact String.toList_append
      rw [Text.startsWith, Chars.startsWith, hchars, afterStart?_append]
      rfl
    rw [Layout.isUnderTarget, h.normalize_eq, htarget, hstart, Bool.or_true]
  obtain ⟨others, last, hall, hkept, heq⟩ :=
    Layout.exists_directories_eq hne hroot htarget hempty hother role
  have hsame : root ++ (directories ++ [name]) = root ++ (others ++ [last]) := by
    refine pathOf_injective h.segments (fun s hs ↦ ?_) ?_
    · exact (List.mem_append.mp hs).elim (hroot s) fun hs ↦ (hall s hs).1
    · rw [← h.path, ← hkept hunder, h.normalize_eq]
  obtain ⟨rfl, hlast⟩ := List.append_inj' (List.append_cancel_left hsame) rfl
  obtain rfl := List.cons.inj hlast |>.1
  rw [heq, h.isTargetName.targetFileName_eq, ← h.path]

omit hne in
/-- The root is its own target, and so is what amounts to it. -/
theorem Layout.targetPath_targetRoot (role : Role) :
    (Layout.withSourceRoots targetRoot sourceRoots).targetPath
        (Layout.withSourceRoots targetRoot sourceRoots).targetRoot role =
      (Layout.withSourceRoots targetRoot sourceRoots).targetRoot := by
  have hnormal : normalize (Layout.withSourceRoots targetRoot sourceRoots).targetRoot =
      (Layout.withSourceRoots targetRoot sourceRoots).targetRoot := by
    rw [htarget]
    exact normalize_pathOf hroot
  unfold Layout.targetPath
  dsimp only
  rw [hnormal, beq_self_eq_true, Bool.or_true, if_pos rfl]

end Layout

/-- Moving a path to its target twice is moving it once, for all roots, paths and roles. The target
of a path that is neither empty nor the target root lies strictly below that root; it holds no
backslash and no empty or `.` segment, and its file name holds no space and has an extension of
keyword files. -/
theorem target_paths_settled (targetRoot : String) (sourceRoots : List String) (path : String)
    (role : Role) :
    let layout := Layout.withSourceRoots targetRoot sourceRoots
    let target := layout.targetPath path role
    layout.targetPath target role = target ∧
      (normalize path ≠ "" → normalize path ≠ layout.targetRoot →
        (∃ below, below ≠ "" ∧ target = layout.targetRoot ++ "/" ++ below) ∧
        '\\' ∉ target.toList ∧ (∀ s ∈ splitOn '/' target, s ≠ "" ∧ s ≠ ".") ∧
        ' ' ∉ (fileName target).toList ∧
        (Text.endsWith (fileName target) ".robot" = true ∨
          Text.endsWith (fileName target) ".resource" = true)) := by
  intro layout target
  obtain ⟨root, hne, hroot, htarget⟩ := Layout.exists_targetRoot_eq targetRoot sourceRoots
  by_cases hmoves : normalize path ≠ "" ∧ normalize path ≠ layout.targetRoot
  · obtain ⟨directories, name, hbelow⟩ :=
      Layout.exists_isTargetBelow hne hroot htarget hmoves.1 hmoves.2 role
    refine ⟨Layout.targetPath_eq_self hne hroot htarget hbelow role, fun _ _ ↦ ?_⟩
    rw [hbelow.fileName_eq hne, hbelow.splitOn_eq, htarget]
    exact ⟨hbelow.exists_append hne, hbelow.no_backslash,
      fun s hs ↦ ⟨(hbelow.segments s hs).ne_empty, (hbelow.segments s hs).ne_point⟩,
      hbelow.isTargetName.no_space, hbelow.isTargetName.endsWith⟩
  · refine ⟨?_, fun hempty hpath ↦ absurd ⟨hempty, hpath⟩ hmoves⟩
    have hstays : target = layout.targetRoot := by
      have hcondition :
          ((normalize path).isEmpty || normalize path == layout.targetRoot) = true := by
        rw [← not_or, not_not] at hmoves
        simpa using hmoves
      change layout.targetPath path role = _
      unfold Layout.targetPath
      dsimp only
      rw [hcondition, if_pos rfl]
    rw [hstays]
    exact Layout.targetPath_targetRoot hroot htarget role

/-- A path with backslashes, points and spaces that stands in two source roots, and whose file name
ends in a point. -/
theorem target_paths_settled_nested_roots :
    let layout := Layout.withSourceRoots "out\\.//robot/" ["src", "src/a b/"]
    let path := ".\\src//a b\\.\\my dir/..x y."
    let target := "out/robot/my dir/..x_y.resource"
    layout.targetPath path .utility = target ∧
      normalize path ≠ "" ∧ normalize path ≠ layout.targetRoot ∧
      layout.targetPath target .utility = target ∧
      (∃ below, below ≠ "" ∧ target = layout.targetRoot ++ "/" ++ below) ∧
      ' ' ∉ (fileName target).toList := by
  intro layout path target
  have hlayout : layout = ⟨"out/robot", ["src/a b", "src"]⟩ := by
    have hroots : (["src", "src/a b/"].map normalize).filter (fun r ↦ !r.isEmpty) =
        ["src", "src/a b"] := by decide +kernel
    have htarget : normalize "out\\.//robot/" = "out/robot" := by decide +kernel
    have hsorted : ["src", "src/a b"].mergeSort
        (fun a b ↦ decide (byteSize b ≤ byteSize a)) = ["src/a b", "src"] := by
      have hlonger : decide (byteSize "src/a b" ≤ byteSize "src") = false := by decide +kernel
      simp [List.mergeSort, List.MergeSort.Internal.splitInTwo, hlonger]
    simp only [layout, Layout.withSourceRoots, hroots, htarget, hsorted]
    rfl
  have hpath : layout.targetPath path .utility = target := by
    rw [hlayout]
    decide +kernel
  have hempty : normalize path ≠ "" := by decide +kernel
  have hother : normalize path ≠ layout.targetRoot := by
    rw [hlayout]
    decide +kernel
  obtain ⟨hsettled, hshape⟩ :=
    target_paths_settled "out\\.//robot/" ["src", "src/a b/"] path .utility
  obtain ⟨hbelow, _, _, hspace, _⟩ := hshape hempty hother
  change layout.targetPath (layout.targetPath path .utility) .utility = _ at hsettled
  change ∃ below, below ≠ "" ∧ layout.targetPath path .utility = _ at hbelow
  change ' ' ∉ (fileName (layout.targetPath path .utility)).toList at hspace
  rw [hpath] at hsettled hbelow hspace
  exact ⟨hpath, hempty, hother, hsettled, hbelow, hspace⟩

/-! ### Paths of a repository -/

/-- A path as a repository has it: its segments are separated by single slashes, and none of them is
a point. A segment may hold backslashes. -/
def IsRepositoryPath (path : String) : Prop :=
  ∀ s ∈ Text.splitOn '/' path, s ≠ "" ∧ s ≠ "."

instance (path : String) : Decidable (IsRepositoryPath path) :=
  inferInstanceAs (Decidable (∀ s ∈ Text.splitOn '/' path, s ≠ "" ∧ s ≠ "."))

theorem pathOf_splitOn (path : String) : pathOf (Text.splitOn '/' path) = path := by
  rw [← String.toList_inj, toList_pathOf, map_toList_splitOn, join_splitBy]

theorem mem_of_mem_splitOn {path s : String} (h : s ∈ Text.splitOn '/' path) {c : Char}
    (hc : c ∈ s.toList) : c ∈ path.toList := by
  rw [← pathOf_splitOn path, toList_pathOf]
  exact mem_join_of_mem (List.mem_map_of_mem h) hc _

theorem IsRepositoryPath.isSegment {path : String} (h : IsRepositoryPath path)
    (hbackslash : '\\' ∉ path.toList) : ∀ s ∈ Text.splitOn '/' path, IsSegment s := by
  intro s hs
  obtain ⟨hempty, hpoint⟩ := h s hs
  refine ⟨hempty, hpoint, fun c hc ↦ ?_⟩
  have hslash : c ≠ '/' := by
    rintro rfl
    obtain ⟨part, hpart, rfl⟩ := List.mem_map.mp hs
    rw [String.toList_ofList] at hc
    cases not_of_mem_splitBy hpart _ hc
  have hback : c ≠ '\\' := by
    rintro rfl
    exact hbackslash (mem_of_mem_splitOn hs hc)
  simp [isSlash, hslash, hback]

theorem IsRepositoryPath.normalize_eq {path : String} (h : IsRepositoryPath path)
    (hbackslash : '\\' ∉ path.toList) : normalize path = path := by
  rw [← pathOf_splitOn path]
  exact normalize_pathOf (h.isSegment hbackslash)

theorem isRepositoryPath_pathOf {segs : List String} (hne : segs ≠ [])
    (h : ∀ s ∈ segs, IsSegment s) : IsRepositoryPath (pathOf segs) := by
  intro s hs
  rw [splitOn_pathOf hne h] at hs
  exact ⟨(h s hs).ne_empty, (h s hs).ne_point⟩

/-! ### Slashes at the ends -/

/-- The pieces of a text between slashes and backslashes that are not empty. -/
def pieces (cs : List Char) : List (List Char) :=
  (Chars.splitBy isSlash cs).filter fun piece ↦ !piece.isEmpty

theorem segments_eq (path : String) : segments path = (pieces path.toList).map String.ofList := by
  have hempty : (fun s : String ↦ !s.isEmpty) ∘ String.ofList = fun piece ↦ !piece.isEmpty := by
    funext piece
    cases piece <;> simp
  unfold segments Text.splitBy
  rw [List.filter_map, hempty]
  rfl

theorem pieces_dropWhile (cs : List Char) : pieces (cs.dropWhile (· == '/')) = pieces cs := by
  induction cs with
  | nil => rfl
  | cons c rest ih =>
    by_cases hc : c = '/'
    · subst hc
      exact ih
    · rw [List.dropWhile_cons, beq_false_of_ne hc, if_neg Bool.false_ne_true]

theorem pieces_dropEndWhile (cs : List Char) :
    pieces (Chars.dropEndWhile (· == '/') cs) = pieces cs := by
  induction cs using List.reverseRecOn with
  | nil => rfl
  | append_singleton front c ih =>
    by_cases hc : c = '/'
    · subst hc
      have hdrop : Chars.dropEndWhile (· == '/') (front ++ ['/']) =
          Chars.dropEndWhile (· == '/') front := by
        simp [Chars.dropEndWhile]
      have hsplit : Chars.splitBy isSlash (front ++ ['/']) = Chars.splitBy isSlash front ++ [[]] :=
        splitBy_append rfl front []
      rw [hdrop, ih, pieces, pieces, hsplit, List.filter_append]
      simp
    · simp [Chars.dropEndWhile, hc]

theorem pieces_append_slash (front rest : List Char) :
    pieces (front ++ '/' :: rest) = pieces front ++ pieces rest := by
  have hsplit : Chars.splitBy isSlash (front ++ '/' :: rest) =
      Chars.splitBy isSlash front ++ Chars.splitBy isSlash rest := splitBy_append rfl front rest
  rw [pieces, hsplit, List.filter_append]
  rfl

theorem normalize_trimSlashes (path : String) : normalize (trimSlashes path) = normalize path := by
  have hpieces : pieces (trimSlashes path).toList = pieces path.toList := by
    unfold trimSlashes Text.dropEndWhile dropStartWhile
    dsimp only
    rw [String.toList_ofList, String.toList_ofList]
    exact (pieces_dropEndWhile _).trans (pieces_dropWhile _)
  rw [normalize, segments_eq, hpieces, ← segments_eq, normalize]

/-- Behind segments and a slash, normalizing goes on with what follows. -/
theorem exists_normalize_append_eq {path : String} {segs : List String} {rest : List Char}
    (hsegs : ∀ s ∈ segs, IsSegment s) (hpath : path.toList = (pathOf segs).toList ++ '/' :: rest) :
    ∃ more, (∀ s ∈ more, IsSegment s) ∧ normalize path = pathOf (segs ++ more) := by
  have hsegments : segments path = segs ++ (pieces rest).map String.ofList := by
    rw [segments_eq, hpath, pieces_append_slash, List.map_append, ← segments_eq,
      segments_pathOf hsegs]
  have hkept : segs.filter (· != ".") = segs :=
    List.filter_eq_self.mpr fun s hs ↦ by simpa using (hsegs s hs).ne_point
  have hfilter : (segments path).filter (· != ".") =
      segs ++ ((pieces rest).map String.ofList).filter (· != ".") := by
    rw [hsegments, List.filter_append, hkept]
  refine ⟨_, fun s hs ↦ ?_, congrArg pathOf hfilter⟩
  have hmem : s ∈ (segments path).filter (· != ".") := by
    rw [hfilter]
    exact List.mem_append_right _ hs
  exact isSegment_of_mem hmem

/-! ### Both readings -/

/-- Whether a layout takes a path for one at or below its target root. -/
def Layout.covers (l : Layout) (path : String) : Bool :=
  l.isUnderTarget (normalize path)

/-- A target root that is written as it is normalized, but for slashes at its ends. -/
def IsSettledRoot (root : String) : Prop :=
  normalize root = trimSlashes root ∧ normalize root ≠ ""

instance (root : String) : Decidable (IsSettledRoot root) :=
  inferInstanceAs (Decidable (_ ∧ _))

theorem Layout.isUnderTarget_iff {l : Layout} {path : String} :
    l.isUnderTarget path = true ↔ Text.splitOn '/' l.targetRoot <+: Text.splitOn '/' path := by
  rw [splitOn_prefix_iff, Layout.isUnderTarget, Bool.or_eq_true, beq_iff_eq]

theorem IsSettledRoot.targetRoot_eq {root : String} (h : IsSettledRoot root) :
    (Layout.ofTargetRoot root).targetRoot = trimSlashes root := by
  have hne : (normalize root).isEmpty = false := by simpa using h.2
  rw [Layout.ofTargetRoot, Layout.withSourceRoots]
  dsimp only
  rw [hne, if_neg Bool.false_ne_true, h.1]

theorem IsSettledRoot.directorySegments_eq {root : String} (h : IsSettledRoot root) :
    directorySegments root = Text.splitOn '/' (Layout.ofTargetRoot root).targetRoot := by
  have hroot : ¬ (trimSlashes root = "" ∨ trimSlashes root = ".") := by
    rintro (hempty | hpoint)
    · exact h.2 (h.1.trans hempty)
    · have hnormal := normalize_trimSlashes root
      rw [hpoint] at hnormal
      have hempty : normalize "." = "" := by decide +kernel
      exact h.2 (hnormal.symm.trans hempty)
  rw [h.targetRoot_eq, directorySegments, if_neg hroot]

/-- A layout with such a root takes a path as a listing takes the normalized path. -/
theorem IsSettledRoot.covers_eq {root : String} (h : IsSettledRoot root) (path : String) :
    (Layout.ofTargetRoot root).covers path = isUnder (normalize path) root := by
  rw [Bool.eq_iff_iff, isUnder_iff, Layout.covers, Layout.isUnderTarget_iff,
    h.directorySegments_eq]

theorem IsSettledRoot.isUnder_eq {root path : String} (h : IsSettledRoot root)
    (hpath : IsRepositoryPath path) (hbackslash : '\\' ∉ path.toList) :
    isUnder path root = (Layout.ofTargetRoot root).covers path := by
  rw [h.covers_eq, hpath.normalize_eq hbackslash]

/-- What a listing takes for a path below such a root, a layout does too, whatever backslashes the
path holds. -/
theorem IsSettledRoot.covers_of_isUnder {root path : String} (h : IsSettledRoot root)
    (hunder : isUnder path root = true) : (Layout.ofTargetRoot root).covers path = true := by
  obtain ⟨segs, hne, hsegs, htarget⟩ := Layout.exists_targetRoot_eq root defaultSourceRoots
  change (Layout.ofTargetRoot root).targetRoot = pathOf segs at htarget
  obtain ⟨more, hmore, hnormal⟩ :
      ∃ more, (∀ s ∈ more, IsSegment s) ∧ normalize path = pathOf (segs ++ more) := by
    rw [isUnder_iff, h.directorySegments_eq, htarget, splitOn_prefix_iff] at hunder
    obtain rfl | hunder := hunder
    · exact ⟨[], by simp, by rw [List.append_nil, normalize_pathOf hsegs]⟩
    · obtain ⟨rest, hrest⟩ := startsWith_iff.mp hunder
      rw [String.toList_append, List.append_assoc] at hrest
      exact exists_normalize_append_eq hsegs hrest.symm
  have hall : ∀ s ∈ segs ++ more, IsSegment s := fun s hs ↦
    (List.mem_append.mp hs).elim (hsegs s) (hmore s)
  rw [Layout.covers, hnormal, Layout.isUnderTarget_iff, htarget, splitOn_pathOf hne hsegs,
    splitOn_pathOf (by simp [hne]) hall]
  exact List.prefix_append _ _

/-- A root that is not written as it is normalized is read in two ways: the layout's own root is not
below it, or it is taken for the whole repository. -/
theorem exists_isUnder_ne {root : String} (h : ¬ IsSettledRoot root) :
    ∃ path, IsRepositoryPath path ∧ '\\' ∉ path.toList ∧
      isUnder path root ≠ (Layout.ofTargetRoot root).covers path := by
  obtain ⟨segs, hne, hsegs, htarget⟩ := Layout.exists_targetRoot_eq root defaultSourceRoots
  change (Layout.ofTargetRoot root).targetRoot = pathOf segs at htarget
  have hcovers {others : List String} (hothersne : others ≠ [])
      (hothers : ∀ s ∈ others, IsSegment s) :
      (Layout.ofTargetRoot root).covers (pathOf others) = true ↔ segs <+: others := by
    rw [Layout.covers, normalize_pathOf hothers, Layout.isUnderTarget_iff, htarget,
      splitOn_pathOf hne hsegs, splitOn_pathOf hothersne hothers]
  by_cases hroot : trimSlashes root = "" ∨ trimSlashes root = "."
  · -- every path lies below such a root, but of two names one differs from the layout's root
    have hsegment : ∀ name ∈ ["a", "b"], ∀ s ∈ [name], IsSegment s := by
      simp only [List.mem_singleton, forall_eq]
      intro name hname
      simp only [List.mem_cons, List.not_mem_nil, or_false] at hname
      obtain rfl | rfl := hname <;> exact ⟨by decide, by decide, by simp [isSlash]⟩
    obtain ⟨name, hname, hother⟩ : ∃ name ∈ ["a", "b"], ¬ segs <+: [name] := by
      obtain ⟨first, rest, rfl⟩ := List.exists_cons_of_ne_nil hne
      by_cases hfirst : first = "a"
      · exact ⟨"b", by simp, by simp [hfirst]⟩
      · exact ⟨"a", by simp, by simp [hfirst]⟩
    have hpath := hsegment name hname
    refine ⟨pathOf [name], isRepositoryPath_pathOf (List.cons_ne_nil _ _) hpath,
      no_backslash_pathOf hpath, fun hsame ↦ hother ?_⟩
    rw [← hcovers (List.cons_ne_nil _ _) hpath, ← hsame, isUnder_iff, directorySegments,
      if_pos hroot]
    exact List.nil_prefix
  · -- the layout's own root would have the segments of the root as they are written
    refine ⟨pathOf segs, isRepositoryPath_pathOf hne hsegs, no_backslash_pathOf hsegs,
      fun hsame ↦ h ?_⟩
    have hunder : isUnder (pathOf segs) root = true :=
      hsame.trans ((hcovers hne hsegs).mpr List.prefix_rfl)
    rw [isUnder_iff, splitOn_pathOf hne hsegs, directorySegments, if_neg hroot] at hunder
    have hnormal : normalize (trimSlashes root) = trimSlashes root := by
      rw [← pathOf_splitOn (trimSlashes root)]
      exact normalize_pathOf fun s hs ↦ hsegs s (hunder.subset hs)
    rw [normalize_trimSlashes] at hnormal
    exact ⟨hnormal, fun hempty ↦ hroot (Or.inl (hnormal.symm.trans hempty))⟩

/-- The two readings of a root are the same exactly if it is written as it is normalized. -/
theorem isUnder_eq_covers_iff (root : String) :
    (∀ path, IsRepositoryPath path → '\\' ∉ path.toList →
      isUnder path root = (Layout.ofTargetRoot root).covers path) ↔ IsSettledRoot root := by
  constructor
  · intro hsame
    by_contra h
    obtain ⟨path, hpath, hbackslash, hne⟩ := exists_isUnder_ne h
    exact hne (hsame path hpath hbackslash)
  · exact fun h path hpath hbackslash ↦ h.isUnder_eq hpath hbackslash

end SuiteMigration.Path
