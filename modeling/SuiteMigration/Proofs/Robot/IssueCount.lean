import Mathlib.Data.List.DropRight
import SuiteMigration.Proofs.Robot.BodyLines

/-!
How many issues a check reports. Comments and blank lines are not checked, and neither is the white
space at the end of a line; so the number of issues is that of the other lines, in their order. A
line above the first header counts for itself only, and a new header there leaves a file without
issues as it is.
-/

set_option autoImplicit false
set_option relaxedAutoImplicit false

namespace SuiteMigration.Chars

open SuiteMigration.Text

theorem trimEnd_trimEnd (cs : List Char) : trimEnd (trimEnd cs) = trimEnd cs :=
  List.rdropWhile_idempotent _ _

end SuiteMigration.Chars

namespace SuiteMigration.Robot

open SuiteMigration.Text

/-! ### White space at the end of a line -/

section TrimEnd

variable (line : String)

theorem toList_trimEnd : (trimEnd line).toList = Chars.trimEnd line.toList :=
  String.toList_ofList

theorem sectionName?_trimEnd : sectionName? (trimEnd line) = sectionName? line := by
  rw [sectionName?, sectionName?, toList_trimEnd, Chars.trim_trimEnd]

theorem leak?_trimEnd : leak? (trimEnd line) = leak? line := by
  rw [leak?, leak?, toList_trimEnd, Chars.trim_trimEnd]

theorem splitCells_trimEnd : splitCells (trimEnd line) = splitCells line := by
  rw [splitCells, splitCells, toList_trimEnd, Chars.trimEnd_trimEnd]

theorem calledKeyword?_trimEnd : calledKeyword? (trimEnd line) = calledKeyword? line := by
  obtain hnil | hne := eq_or_ne (Chars.trimEnd line.toList) []
  · -- A blank line has no cells, whether or not it is indented.
    have hcells : splitCells line = [] := by
      rw [splitCells, hnil]
      rfl
    rw [calledKeyword?, calledKeyword?, toList_trimEnd, hnil, hcells]
    cases line.toList.head? with
    | none => rfl
    | some c => exact (ite_self none).symm
  · have hhead : (Chars.trimEnd line.toList).head? = line.toList.head? := by
      obtain ⟨tail, htail⟩ := isPrefix_trimEnd line.toList
      conv_rhs => rw [← htail, List.head?_append_of_ne_nil _ hne]
    rw [calledKeyword?, calledKeyword?, toList_trimEnd, hhead, splitCells_trimEnd]

end TrimEnd

/-! ### Rows that are checked -/

/-- A row without its number and the white space at its end. -/
def SectionRow.plain (r : SectionRow) : SectionRow :=
  ⟨0, r.sectionName, trimEnd r.text⟩

theorem SectionRow.library?_plain (r : SectionRow) : r.plain.library? = r.library? := by
  unfold SectionRow.library? SectionRow.plain importedLibrary?
  rw [splitCells_trimEnd]

theorem SectionRow.isAction_plain (r : SectionRow) : r.plain.isAction = r.isAction := by
  unfold SectionRow.isAction SectionRow.plain importedLibrary? fixtureKeyword?
  rw [splitCells_trimEnd, calledKeyword?_trimEnd]

/-- A line that is neither a comment nor blank. -/
def isInked (line : String) : Bool :=
  !(isComment line || isBlankText line)

/-- The lines of a text that are checked, without white space at their ends. -/
def inkedLines (content : List String) : List String :=
  (content.filter isInked).map trimEnd

/-- The rows of lines that are checked. -/
def rowsIn : String → List String → List SectionRow
  | _, [] => []
  | name, line :: rest =>
      match sectionName? line with
      | some next => rowsIn next rest
      | none => ⟨0, name, line⟩ :: rowsIn name rest

theorem isInked_eq (line : String) : isInked line = (ink? line).any (· != '#') := by
  rw [isInked, isComment, ← ink?]
  cases hink : ink? line with
  | none =>
    have hblank : isBlankText line = true := by
      rw [ink?, List.head?_eq_none_iff, Chars.trimStart, List.dropWhile_eq_nil_iff] at hink
      exact List.all_eq_true.mpr hink
    rw [hblank, Bool.or_true]
    rfl
  | some c =>
    have hblank : isBlankText line = false := by
      refine Bool.eq_false_iff.mpr fun hblank ↦ ?_
      rw [ink?_of_isBlankText hblank] at hink
      cases hink
    rw [hblank, Bool.or_false]
    rfl

theorem isInked_of_ink? {line : String} {c : Char} (h : ink? line = some c) (hc : c ≠ '#') :
    isInked line = true := by
  rw [isInked_eq, h, Option.any_some, bne_iff_ne]
  exact hc

theorem isInked_of_isHeader {line : String} (h : isHeader line = true) : isInked line = true :=
  isInked_of_ink? (ink?_of_isHeader h) (by decide)

theorem isInked_of_comment {line : String} (h : ink? line = some '#') : isInked line = false := by
  rw [isInked_eq, h]
  rfl

theorem isInked_of_isLeading {line : String} (h : isLeading line = true) :
    isInked line = false := by
  obtain hblank | hmarker := Bool.or_eq_true_iff.mp h
  · rw [isInked_eq, ink?_of_isBlankText hblank]
    rfl
  · exact isInked_of_comment (ink?_of_isMarkerLine hmarker)

theorem plain_rowsFrom (number : Nat) (name : String) (content : List String) :
    (rowsFrom number name content).map SectionRow.plain = rowsIn name (inkedLines content) := by
  induction content generalizing number name with
  | nil => rfl
  | cons line rest ih =>
    rw [rowsFrom]
    cases hname : sectionName? line with
    | some next =>
      have hinked : isInked line = true := isInked_of_isHeader (by rw [isHeader, hname]; rfl)
      rw [inkedLines, List.filter_cons_of_pos hinked, List.map_cons, rowsIn, sectionName?_trimEnd,
        hname]
      exact ih _ _
    | none =>
      dsimp only
      cases hinked : isInked line with
      | false =>
        have hskipped : (isComment line || isBlankText line) = true := by
          rwa [isInked, Bool.not_eq_false'] at hinked
        rw [if_pos hskipped, inkedLines,
          List.filter_cons_of_neg (Bool.eq_false_iff.mp hinked)]
        exact ih _ _
      | true =>
        have hkept : ¬ (isComment line || isBlankText line) = true := by
          rwa [isInked, Bool.not_eq_true', ← Bool.not_eq_true] at hinked
        rw [if_neg hkept, inkedLines, List.filter_cons_of_pos hinked, List.map_cons, List.map_cons,
          rowsIn, sectionName?_trimEnd, hname]
        exact congrArg _ (ih _ _)

/-! ### The number of issues -/

def SectionRow.hasLeak (r : SectionRow) : Bool :=
  (leak? r.text).isSome

/-- Whether a library is imported and used. -/
def usesLibrary (rows : List SectionRow) : Bool :=
  (rows.filterMap SectionRow.library?).getLast?.isSome && rows.any SectionRow.isAction

/-- The number of issues of lines that are checked. -/
def issueCount (content : List String) : Nat :=
  (rowsIn "" content).countP SectionRow.hasLeak +
    (if content.any fun line ↦ (sectionName? line).any isBodySection then 0 else 1) +
    (if usesLibrary (rowsIn "" content) then 0 else 1)

theorem any_inkedLines (content : List String) :
    (inkedLines content).any (fun line ↦ (sectionName? line).any isBodySection) =
      content.any fun line ↦ (sectionName? line).any isBodySection := by
  rw [inkedLines, List.any_map, List.any_filter]
  refine congrArg content.any (funext fun line ↦ ?_)
  rw [Function.comp_apply, sectionName?_trimEnd]
  cases hname : sectionName? line with
  | none => exact Bool.and_false _
  | some name => rw [isInked_of_isHeader (by rw [isHeader, hname]; rfl), Bool.true_and]

theorem length_libraryIssues (content : String) : (libraryIssues content).length =
    if usesLibrary (rowsIn "" (inkedLines (lines content))) then 0 else 1 := by
  have hlibraries : (rowsIn "" (inkedLines (lines content))).filterMap SectionRow.library? =
      (sectionRows content).filterMap SectionRow.library? := by
    rw [← plain_rowsFrom 1, List.filterMap_map]
    exact congrArg (fun f ↦ List.filterMap f _) (funext SectionRow.library?_plain)
  have hactions : (rowsIn "" (inkedLines (lines content))).any SectionRow.isAction =
      (sectionRows content).any SectionRow.isAction := by
    rw [← plain_rowsFrom 1, List.any_map]
    exact congrArg (fun f ↦ List.any _ f) (funext SectionRow.isAction_plain)
  rw [libraryIssues, usesLibrary, hlibraries, hactions, library?]
  cases ((sectionRows content).filterMap SectionRow.library?).getLast? with
  | none => rfl
  | some name => cases (sectionRows content).any SectionRow.isAction <;> rfl

theorem length_issues_validate (content : String) :
    (validate content).issues.length = issueCount (inkedLines (lines content)) := by
  have hleaks : ((sectionRows content).filterMap leakIssue?).length =
      (rowsIn "" (inkedLines (lines content))).countP SectionRow.hasLeak := by
    rw [← plain_rowsFrom 1, List.countP_map, List.length_filterMap_eq_countP]
    refine congrArg (fun f ↦ List.countP f _) (funext fun r ↦ ?_)
    rw [leakIssue?, Option.isSome_map, Function.comp_apply, SectionRow.hasLeak, SectionRow.plain,
      leak?_trimEnd]
  have hbody : (if hasBodySection content then []
      else ["missing *** Keywords *** or *** Test Cases *** section"]).length =
      if (inkedLines (lines content)).any fun line ↦ (sectionName? line).any isBodySection
        then 0 else 1 := by
    rw [any_inkedLines, hasBodySection]
    split <;> rfl
  rw [validate, List.length_append, List.length_append, hleaks, hbody, length_libraryIssues,
    issueCount]

theorem isValid_iff (r : Report) : r.isValid = true ↔ r.issues.length = 0 := by
  rw [Report.isValid, List.isEmpty_iff, List.length_eq_zero_iff]

/-! ### Lines above the first header -/

/-- A line above the first header counts for itself only: there are no settings and no calls. -/
theorem issueCount_cons {line : String} (h : sectionName? line = none) (rest : List String) :
    issueCount (line :: rest) = (if (leak? line).isSome then 1 else 0) + issueCount rest := by
  have hrows : rowsIn "" (line :: rest) = ⟨0, "", line⟩ :: rowsIn "" rest := by
    rw [rowsIn, h]
  have hlibrary : usesLibrary (⟨0, "", line⟩ :: rowsIn "" rest) = usesLibrary (rowsIn "" rest) :=
    rfl
  have hleak : SectionRow.hasLeak ⟨0, "", line⟩ = (leak? line).isSome := rfl
  rw [issueCount, issueCount, hrows, hlibrary, List.any_cons, h, List.countP_cons, hleak,
    Option.any_none, Bool.false_or]
  omega

/-- The rows up to the first header are in the section where the reading starts. -/
theorem exists_rowsIn_eq (content : List String) :
    ∃ (texts : List String) (rows : List SectionRow), ∀ name, rowsIn name content =
      texts.map (fun text ↦ ⟨0, name, text⟩) ++ rows := by
  induction content with
  | nil => exact ⟨[], [], fun _ ↦ rfl⟩
  | cons line rest ih =>
    cases hname : sectionName? line with
    | some next => exact ⟨[], rowsIn next rest, fun name ↦ by rw [rowsIn, hname]; rfl⟩
    | none =>
      obtain ⟨texts, rows, hrows⟩ := ih
      refine ⟨line :: texts, rows, fun name ↦ ?_⟩
      rw [rowsIn, hname, hrows]
      rfl

/-- A library that is imported and used below the first header is so whatever stands above. -/
theorem usesLibrary_append_of_usesLibrary {rows : List SectionRow} (h : usesLibrary rows = true)
    (above : List SectionRow) : usesLibrary (above ++ rows) = true := by
  obtain ⟨hlibrary, haction⟩ := Bool.and_eq_true_iff.mp h
  have hne : rows.filterMap SectionRow.library? ≠ [] := by
    intro hnil
    rw [hnil] at hlibrary
    cases hlibrary
  rw [usesLibrary, List.filterMap_append, List.getLast?_append_of_ne_nil _ hne, hlibrary,
    List.any_append, haction, Bool.or_true, Bool.and_true]

theorem usesLibrary_of_above (texts : List String) (rows : List SectionRow) :
    usesLibrary (texts.map (fun text ↦ ⟨0, "", text⟩) ++ rows) = usesLibrary rows := by
  induction texts with
  | nil => rfl
  | cons text rest ih => exact ih

/-- A header above lines without issues brings none. -/
theorem issueCount_cons_of_isHeader {line : String} (h : isHeader line = true)
    {rest : List String} (hrest : issueCount rest = 0) : issueCount (line :: rest) = 0 := by
  obtain ⟨name, hname⟩ := Option.isSome_iff_exists.mp h
  obtain ⟨texts, rows, hrows⟩ := exists_rowsIn_eq rest
  have hnew : rowsIn "" (line :: rest) = rowsIn name rest := by rw [rowsIn, hname]
  have hleaks : (rowsIn name rest).countP SectionRow.hasLeak =
      (rowsIn "" rest).countP SectionRow.hasLeak := by
    rw [hrows, hrows, List.countP_append, List.countP_append, List.countP_map, List.countP_map]
    rfl
  rw [issueCount, Nat.add_eq_zero_iff, Nat.add_eq_zero_iff] at hrest
  obtain ⟨⟨hnone, hbody⟩, huses⟩ := hrest
  have hbody' : (rest.any fun line ↦ (sectionName? line).any isBodySection) = true := by
    by_contra hno
    rw [if_neg hno] at hbody
    cases hbody
  have huses' : usesLibrary rows = true := by
    rw [← usesLibrary_of_above texts, ← hrows]
    by_contra hno
    rw [if_neg hno] at huses
    cases huses
  rw [issueCount, hnew, hleaks, hnone, List.any_cons, hbody', Bool.or_true, if_pos rfl, hrows,
    usesLibrary_append_of_usesLibrary huses', if_pos rfl]

/-! ### Lines without ink -/

section Inked

variable (content : List String)

theorem inkedLines_cons {line : String} (h : isInked line = true) :
    inkedLines (line :: content) = trimEnd line :: inkedLines content := by
  rw [inkedLines, List.filter_cons_of_pos h]
  rfl

theorem inkedLines_cons_of_not {line : String} (h : isInked line = false) :
    inkedLines (line :: content) = inkedLines content := by
  rw [inkedLines, List.filter_cons_of_neg (Bool.eq_false_iff.mp h)]
  rfl

theorem isInked_readBack (line : String) : isInked (readBack line) = isInked line := by
  rw [isInked_eq, isInked_eq, ink?_readBack]

theorem trimEnd_readBack (line : String) : trimEnd (readBack line) = trimEnd line := by
  obtain heq | heq := readBack_cases line
  · rw [heq]
  · rw [trimEnd, trimEnd, heq, Chars.trimEnd_concat_of_blank (by decide)]

theorem inkedLines_map_readBack : inkedLines (content.map readBack) = inkedLines content := by
  have hinked : isInked ∘ readBack = isInked := by
    funext line
    rw [Function.comp_apply, isInked_readBack]
  have htrimmed : trimEnd ∘ readBack = trimEnd := by
    funext line
    rw [Function.comp_apply, trimEnd_readBack]
  rw [inkedLines, inkedLines, List.filter_map, hinked, List.map_map, htrimmed]

theorem inkedLines_filter {p : String → Bool}
    (h : ∀ line, p line = false → isInked line = false) :
    inkedLines (content.filter p) = inkedLines content := by
  rw [inkedLines, inkedLines, List.filter_filter]
  refine congrArg _ (List.filter_congr fun line _ ↦ ?_)
  cases hline : p line with
  | false => rw [h line hline, Bool.and_false]
  | true => exact Bool.and_true _

theorem inkedLines_dropWhile_isLeading :
    inkedLines (content.dropWhile isLeading) = inkedLines content := by
  have hnone : (content.takeWhile isLeading).filter isInked = [] :=
    List.filter_eq_nil_iff.mpr fun line hline ↦
      Bool.eq_false_iff.mp (isInked_of_isLeading (List.mem_takeWhile_imp hline))
  conv_rhs => rw [← List.takeWhile_append_dropWhile (p := isLeading) (l := content)]
  rw [inkedLines, inkedLines, List.filter_append, hnone, List.nil_append]

theorem inkedLines_withoutEmptyEnd :
    inkedLines (withoutEmptyEnd content) = inkedLines content := by
  obtain ⟨-, heq⟩ | heq := withoutEmptyEnd_cases content
  · rw [heq]
  · have hnone : [""].filter isInked = [] := by decide
    conv_rhs => rw [heq, inkedLines, List.filter_append, hnone, List.append_nil, ← inkedLines]

theorem inkedLines_belowMarker : inkedLines (belowMarker content) = inkedLines content := by
  cases content with
  | nil => rfl
  | cons first rest =>
    rw [belowMarker]
    split
    next hmarker =>
      exact (inkedLines_cons_of_not rest (isInked_of_comment (ink?_of_isMarkerLine hmarker))).symm
    next => rfl

/-- What a check leaves out or adds is not checked itself. -/
theorem inkedLines_checkedLines : inkedLines (checkedLines content) = inkedLines content := by
  rw [checkedLines, inkedLines_filter, inkedLines_map_readBack]
  intro line hline
  rw [Bool.not_eq_false'] at hline
  exact isInked_of_comment (ink?_of_isValidationComment hline)

end Inked

end SuiteMigration.Robot
