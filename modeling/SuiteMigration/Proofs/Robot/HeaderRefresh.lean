import Mathlib.Data.List.DropRight
import SuiteMigration.Proofs.Robot.TierHistory
import SuiteMigration.Proofs.Text.Case

/-!
What the quickest tier does to a file. It writes the marker and the documentation anew, and opens a
settings section for the documentation if there is none. Every other line stays as it is and where
it is, up to blank lines at the two ends of the file.
-/

set_option autoImplicit false
set_option relaxedAutoImplicit false

namespace SuiteMigration.Text

/-! ### Titles are written on one line -/

/-- The characters outside the occurrences of a pattern. -/
def plainChars (pieces : List Piece) : List Char :=
  pieces.filterMap fun
    | .plain c => some c
    | .found _ => none

theorem plainChars_piecesFrom (recognise : Recogniser) (skip : Nat) (before : Option Char)
    (cs : List Char) : (plainChars (piecesFrom recognise skip before cs)).Sublist cs := by
  fun_induction piecesFrom recognise skip before cs with
  | case1 => exact .slnil
  | case2 _ _ _ _ ih => exact ih.cons _
  | case3 _ c rest n _ ih => exact ih.cons _
  | case4 _ c rest _ ih => exact ih.cons_cons c

theorem sublist_plainChars {pieces : List Piece} {part : List Char}
    (h : part ∈ splitPieces pieces) : part.Sublist (plainChars pieces) := by
  fun_induction splitPieces pieces generalizing part with
  | case1 =>
    rw [List.mem_singleton.mp h]
    exact .slnil
  | case2 _ rest ih =>
    obtain rfl | h := List.mem_cons.mp h
    · exact List.nil_sublist _
    · exact ih h
  | case3 c rest heq ih =>
    rw [List.mem_singleton.mp h]
    exact (List.nil_sublist _).cons_cons c
  | case4 c rest first others heq ih =>
    rw [heq] at ih
    obtain rfl | h := List.mem_cons.mp h
    · exact (ih List.mem_cons_self).cons_cons c
    · exact (ih (List.mem_cons_of_mem _ h)).cons c

/-- No character of a part between occurrences comes from elsewhere. -/
theorem sublist_of_mem_splitAtOccurrences {recognise : Recogniser} {cs part : List Char}
    (h : part ∈ splitAtOccurrences recognise cs) : part.Sublist cs :=
  (sublist_plainChars h).trans (plainChars_piecesFrom recognise 0 none cs)

theorem trimEnd_sublist (cs : List Char) : (Chars.trimEnd cs).Sublist cs := by
  have hdrop := (List.dropWhile_sublist (p := isBlank) (l := cs.reverse)).reverse
  rwa [List.reverse_reverse] at hdrop

theorem trim_sublist (s : String) : (trim s).toList.Sublist s.toList := by
  rw [trim, String.toList_ofList, Chars.trim]
  exact (trimEnd_sublist _).trans (List.dropWhile_sublist _)

end SuiteMigration.Text

namespace SuiteMigration.Robot

open SuiteMigration.Text SuiteMigration.Keyword

theorem sublist_of_mem_splitCells {line cell : String} (h : cell ∈ splitCells line) :
    cell.toList.Sublist line.toList := by
  unfold splitCells at h
  dsimp only at h
  split at h
  · cases h
  · obtain ⟨part, hpart, rfl⟩ := List.mem_map.mp h
    rw [String.toList_ofList]
    exact (sublist_of_mem_splitAtOccurrences hpart).trans (trimEnd_sublist _)

/-- The title for a path stands on one line, whatever characters the path holds. -/
theorem oneLine_fallbackTitle (path : String) : Chars.OneLine (fallbackTitle path).toList := by
  have hstart : Chars.OneLine "Migrated ".toList := by decide
  rw [fallbackTitle, String.toList_append]
  refine hstart.append ?_
  rw [ofIdentifier, titleCase, String.toList_ofList]
  exact oneLine_titleChars _

theorem oneLine_row {cells : List String} (h : ∀ cell ∈ cells, Chars.OneLine cell.toList) :
    Chars.OneLine (row cells).toList := by
  have hseparator : Chars.OneLine separator.toList := by decide
  intro c hc
  rw [row, String.toList_intercalate] at hc
  obtain hc | ⟨part, hpart, hc⟩ := Chars.mem_join hc
  · exact hseparator c hc
  · obtain ⟨cell, hcell, rfl⟩ := List.mem_map.mp hpart
    exact h cell hcell c hc

theorem oneLine_documentationBlock {title note : String} (htitle : Chars.OneLine title.toList)
    (hnote : Chars.OneLine note.toList) :
    ∀ line ∈ documentationBlock [title, note], Chars.OneLine line.toList := by
  have hstart : ∀ start ∈ ["Documentation", "..."], Chars.OneLine start.toList := by
    decide
  have hfirst : Chars.OneLine (row ["Documentation", title]).toList :=
    oneLine_row fun cell hcell ↦ by
      obtain rfl | hcell := List.mem_cons.mp hcell
      · exact hstart _ List.mem_cons_self
      · exact List.mem_singleton.mp hcell ▸ htitle
  have hsecond : Chars.OneLine (row ["...", note]).toList :=
    oneLine_row fun cell hcell ↦ by
      obtain rfl | hcell := List.mem_cons.mp hcell
      · exact hstart _ (List.mem_cons_of_mem _ List.mem_cons_self)
      · exact List.mem_singleton.mp hcell ▸ hnote
  intro line hline
  obtain rfl | hline := List.mem_cons.mp hline
  · exact hfirst
  · exact List.mem_singleton.mp hline ▸ hsecond

theorem row_ne_empty (start text : String) : row [start, text] ≠ "" := by
  simp [row, separator]

theorem oneLine_generatedNote {m : Marker} (h : m.Tiered) (mode : Mode) :
    Chars.OneLine (generatedNote mode m.tier).toList := by
  obtain htier | htier | htier := h.cases <;> rw [htier] <;> cases mode <;> decide +kernel

/-! ### Lines of the header -/

/-- The lines above the text proper: blank lines and markers. -/
def isLeading (line : String) : Bool :=
  isBlankText line || isMarkerLine line

def isSettingsHeader (line : String) : Bool :=
  sectionName? line == some "setting"

theorem isHeader_of_isSettingsHeader {line : String} (h : isSettingsHeader line = true) :
    isHeader line = true := by
  rw [isHeader, eq_of_beq h]
  rfl

/-- A header of a section is neither blank nor a marker. -/
theorem isLeading_of_isHeader {line : String} (h : isHeader line = true) :
    isLeading line = false := by
  have hstar : ∃ rest, Chars.trim line.toList = '*' :: rest := by
    unfold isHeader sectionName? at h
    split at h
    next rest heq => exact ⟨rest, heq⟩
    next => cases h
  obtain ⟨rest, hrest⟩ := hstar
  have hblank : isBlankText line = false := by
    by_contra hblank
    rw [Bool.not_eq_false, isBlankText, List.all_eq_true] at hblank
    have hnil := Chars.trim_append_of_blank hblank []
    rw [List.append_nil, hrest] at hnil
    cases hnil
  have hmarker : isMarkerLine line = false := by
    rw [isMarkerLine, startsWith, trim, String.toList_ofList, hrest]
    rfl
  rw [isLeading, hblank, hmarker]
  rfl

theorem isHeader_eq_false_of_isLeading {line : String} (h : isLeading line = true) :
    isHeader line = false := by
  by_contra hheader
  rw [isLeading_of_isHeader (Bool.not_eq_false _ ▸ hheader)] at h
  cases h

theorem documentationSpanFrom_eq_some {inSettings : Bool} {content : List String}
    {span : DocumentationSpan} (h : documentationSpanFrom inSettings content = some span) :
    content = span.before ++ span.block ++ span.after ∧
      (inSettings = true ∨ ∃ line ∈ span.before, isSettingsHeader line = true) := by
  induction content generalizing inSettings span with
  | nil => cases h
  | cons line rest ih =>
    unfold documentationSpanFrom at h
    dsimp only at h
    split at h
    next name hname =>
      obtain ⟨found, hfound, rfl⟩ := Option.map_eq_some_iff.mp h
      obtain ⟨heq, hheader⟩ := ih hfound
      refine ⟨congrArg (line :: ·) heq, Or.inr ?_⟩
      obtain hsetting | ⟨header, hmem, hheader⟩ := hheader
      · refine ⟨line, List.mem_cons_self, ?_⟩
        rw [isSettingsHeader, hname, eq_of_beq hsetting]
        rfl
      · exact ⟨header, List.mem_cons_of_mem _ hmem, hheader⟩
    next =>
      split at h
      next hrow =>
        obtain rfl := Option.some.inj h
        rw [Bool.and_eq_true] at hrow
        refine ⟨?_, Or.inl hrow.1⟩
        rw [List.nil_append, List.cons_append, List.takeWhile_append_dropWhile]
      next =>
        obtain ⟨found, hfound, rfl⟩ := Option.map_eq_some_iff.mp h
        obtain ⟨heq, hheader⟩ := ih hfound
        exact ⟨congrArg (line :: ·) heq, hheader.imp_right fun ⟨header, hmem, hheader⟩ ↦
          ⟨header, List.mem_cons_of_mem _ hmem, hheader⟩⟩

/-- A documentation setting stands below a header of the settings. -/
theorem documentationSpan?_eq_some {content : List String} {span : DocumentationSpan}
    (h : documentationSpan? content = some span) :
    content = span.before ++ span.block ++ span.after ∧
      ∃ line ∈ span.before, isSettingsHeader line = true := by
  obtain ⟨heq, hsettings | hheader⟩ := documentationSpanFrom_eq_some h
  · cases hsettings
  · exact ⟨heq, hheader⟩

theorem documentationSpan?_eq_none {content : List String}
    (h : content.any isSettingsHeader = false) : documentationSpan? content = none := by
  by_contra hspan
  obtain ⟨span, hspan⟩ := Option.ne_none_iff_exists'.mp hspan
  obtain ⟨heq, header, hmem, hsettings⟩ := documentationSpan?_eq_some hspan
  rw [List.any_eq_false] at h
  refine h header ?_ hsettings
  rw [heq, List.append_assoc]
  exact List.mem_append_left _ hmem

/-- A title is a part of a line of its documentation setting. -/
theorem exists_line_of_existingTitle? {content title : String}
    (h : existingTitle? content = some title) :
    ∃ span, documentationSpan? (lines content) = some span ∧
      ∃ line ∈ span.block, title.toList.Sublist line.toList := by
  obtain ⟨span, hspan, hfind⟩ := Option.bind_eq_some_iff.mp h
  obtain ⟨line, hline, hcell⟩ := List.mem_flatMap.mp (List.mem_of_find?_eq_some hfind)
  obtain ⟨cell, hmem, rfl⟩ := List.mem_map.mp hcell
  have hpart := sublist_of_mem_splitCells (List.mem_of_mem_tail hmem)
  exact ⟨span, hspan, line, hline, (trim_sublist cell).trans hpart⟩

theorem oneLine_existingTitle {content title : String} (hreturn : '\r' ∉ content.toList)
    (h : existingTitle? content = some title) : Chars.OneLine title.toList := by
  obtain ⟨span, hspan, line, hline, hpart⟩ := exists_line_of_existingTitle? h
  have hlines : line ∈ lines content := by
    rw [(documentationSpan?_eq_some hspan).1]
    exact List.mem_append_left _ (List.mem_append_right _ hline)
  exact fun c hc ↦ Chars.oneLine_of_mem_lines hreturn (mem_lines_iff.mp hlines) c (hpart.mem hc)

/-! ### Where the documentation goes -/

/-- Lines without their documentation setting. -/
def withoutDocumentation (content : List String) : List String :=
  match documentationSpan? content with
  | some span => span.before ++ span.after
  | none => content

theorem withoutDocumentation_eq_self {content : List String}
    (h : content.any isSettingsHeader = false) : withoutDocumentation content = content := by
  rw [withoutDocumentation, documentationSpan?_eq_none h]

/-- Lines with a new settings section, which is empty and has a blank line after it: before the
first section, or at the end if there is none. -/
def openSettings (content : List String) : List String :=
  content.takeWhile (fun line ↦ !isHeader line) ++ "*** Settings ***" :: "" ::
    content.dropWhile fun line ↦ !isHeader line

/-- The lines that the documentation is put between. -/
def aroundDocumentation (content : List String) : List String :=
  if content.any isSettingsHeader then withoutDocumentation content else openSettings content

theorem mem_aroundDocumentation {content : List String} {line : String}
    (h : line ∈ aroundDocumentation content) :
    line ∈ content ∨ line = "*** Settings ***" ∨ line = "" := by
  unfold aroundDocumentation at h
  split at h
  · refine Or.inl ?_
    unfold withoutDocumentation at h
    split at h
    next span hspan =>
      rw [(documentationSpan?_eq_some hspan).1]
      simp only [List.mem_append] at h ⊢
      exact h.imp_left Or.inl
    next => exact h
  · simp only [openSettings, List.mem_append, List.mem_cons] at h
    obtain h | rfl | rfl | h := h
    · exact Or.inl ((List.takeWhile_sublist _).mem h)
    · exact Or.inr (Or.inl rfl)
    · exact Or.inr (Or.inr rfl)
    · exact Or.inl ((List.dropWhile_sublist _).mem h)

/-- Lines with a header of settings are those above the first one, the header and those below it. -/
theorem exists_first_settings {content : List String} (h : content.any isSettingsHeader = true) :
    ∃ header more, content.dropWhile (fun line ↦ !isSettingsHeader line) = header :: more ∧
      isSettingsHeader header = true ∧
      content.takeWhile (fun line ↦ !isSettingsHeader line) ++ header :: more = content := by
  obtain ⟨header, more, hrest⟩ : ∃ header more,
      content.dropWhile (fun line ↦ !isSettingsHeader line) = header :: more := by
    refine List.exists_cons_of_ne_nil fun hnil ↦ ?_
    obtain ⟨line, hmem, hline⟩ := List.any_eq_true.mp h
    have hnot := List.dropWhile_eq_nil_iff.mp hnil line hmem
    rw [hline] at hnot
    cases hnot
  refine ⟨header, more, hrest, ?_, ?_⟩
  · have hhead := List.head?_dropWhile_not (fun line ↦ !isSettingsHeader line) content
    rw [hrest] at hhead
    simpa using hhead
  · rw [← hrest, List.takeWhile_append_dropWhile]

/-- The three ways to place documentation: instead of a setting that is there, below the header of
the settings, or in new settings. In each the lines around it are kept, and a header stands above
it. -/
theorem placeDocumentation_eq (content : List String) :
    ∃ before after, (∀ block, placeDocumentation block content = before ++ block ++ after) ∧
      before ++ after = aroundDocumentation content ∧ (∃ line ∈ before, isHeader line = true) ∧
      (before.head? = content.head? ∨ before.head? = some "*** Settings ***") := by
  unfold placeDocumentation aroundDocumentation withoutDocumentation
  cases hspan : documentationSpan? content with
  | some span =>
    obtain ⟨heq, header, hmem, hsettings⟩ := documentationSpan?_eq_some hspan
    have hany : content.any isSettingsHeader = true := by
      refine List.any_eq_true.mpr ⟨header, ?_, hsettings⟩
      rw [heq, List.append_assoc]
      exact List.mem_append_left _ hmem
    rw [if_pos hany]
    refine ⟨span.before, span.after, fun _ ↦ rfl, rfl,
      ⟨header, hmem, isHeader_of_isSettingsHeader hsettings⟩, Or.inl ?_⟩
    rw [heq, List.append_assoc, List.head?_append_of_ne_nil _ (List.ne_nil_of_mem hmem)]
  | none =>
    dsimp only
    change ∃ before after, (∀ block, (if content.any isSettingsHeader then _ else _) = _) ∧ _
    split
    next hany =>
      obtain ⟨header, more, hrest, hheader, hsplit⟩ := exists_first_settings hany
      refine ⟨content.takeWhile (fun line ↦ !isSettingsHeader line) ++ [header], more,
        fun block ↦ ?_, ?_, ⟨header, by simp, isHeader_of_isSettingsHeader hheader⟩, Or.inl ?_⟩
      · change _ ++ (content.dropWhile fun line ↦ !isSettingsHeader line).take 1 ++ block ++
          (content.dropWhile fun line ↦ !isSettingsHeader line).drop 1 = _
        rw [hrest]
        rfl
      · rw [List.append_assoc]
        exact hsplit
      · refine Eq.trans ?_ (congrArg List.head? hsplit)
        cases content.takeWhile fun line ↦ !isSettingsHeader line <;> rfl
    next hnone =>
      have hnew : isHeader "*** Settings ***" = true := by decide
      refine ⟨content.takeWhile (fun line ↦ !isHeader line) ++ ["*** Settings ***"],
        "" :: content.dropWhile fun line ↦ !isHeader line, fun block ↦ by simp, ?_,
        ⟨"*** Settings ***", by simp, hnew⟩, ?_⟩
      · rw [openSettings, List.append_assoc]
        rfl
      · cases content with
        | nil => exact Or.inr rfl
        | cons line rest =>
          rw [List.takeWhile_cons]
          split
          · exact Or.inl rfl
          · exact Or.inr rfl

/-- Besides the lines that are there, placing documentation gives its rows and the lines of new
settings. -/
theorem mem_placeDocumentation {block content : List String} {line : String}
    (h : line ∈ placeDocumentation block content) :
    line ∈ content ∨ line ∈ block ∨ line = "*** Settings ***" ∨ line = "" := by
  obtain ⟨before, after, hplace, haround, _⟩ := placeDocumentation_eq content
  rw [hplace, List.append_assoc, List.mem_append, List.mem_append] at h
  have hkept (hmem : line ∈ before ++ after) :
      line ∈ content ∨ line ∈ block ∨ line = "*** Settings ***" ∨ line = "" := by
    rw [haround] at hmem
    exact (mem_aroundDocumentation hmem).imp_right Or.inr
  obtain h | h | h := h
  · exact hkept (List.mem_append_left _ h)
  · exact Or.inr (Or.inl h)
  · exact hkept (List.mem_append_right _ h)

theorem isLine_placeDocumentation {block content : List String}
    (hcontent : ∀ line ∈ content, Chars.IsLine line.toList)
    (hblock : ∀ line ∈ block, Chars.IsLine line.toList) :
    ∀ line ∈ placeDocumentation block content, Chars.IsLine line.toList := by
  intro line hline
  obtain h | h | rfl | rfl := mem_placeDocumentation hline
  · exact hcontent line h
  · exact hblock line h
  · decide
  · decide

/-! ### What is left at the start of the text -/

/-- Dropping stops before the end of lines that hold a header. -/
theorem dropWhile_isLeading_append {before : List String}
    (h : ∃ line ∈ before, isHeader line = true) (after : List String) :
    (before ++ after).dropWhile isLeading = before.dropWhile isLeading ++ after := by
  obtain ⟨line, hmem, hheader⟩ := h
  have hne : before.dropWhile isLeading ≠ [] := fun hnil ↦ by
    have hleading := List.dropWhile_eq_nil_iff.mp hnil line hmem
    rw [isLeading_of_isHeader hheader] at hleading
    cases hleading
  rw [List.dropWhile_append, if_neg (by simpa using hne)]

theorem openSettings_cons (line : String) (rest : List String) :
    openSettings (line :: rest) =
      if isHeader line then "*** Settings ***" :: "" :: line :: rest
      else line :: openSettings rest := by
  unfold openSettings
  rw [List.takeWhile_cons, List.dropWhile_cons]
  cases isHeader line <;> rfl

/-- New settings come after the leading lines. -/
theorem dropWhile_isLeading_openSettings (content : List String) :
    (openSettings content).dropWhile isLeading = openSettings (content.dropWhile isLeading) := by
  have hnew : isLeading "*** Settings ***" = false :=
    isLeading_of_isHeader (by decide)
  induction content with
  | nil => exact List.dropWhile_cons_of_neg (Bool.eq_false_iff.mp hnew)
  | cons line rest ih =>
    rw [openSettings_cons]
    cases hleading : isLeading line with
    | true =>
      rw [isHeader_eq_false_of_isLeading hleading, if_neg Bool.false_ne_true,
        List.dropWhile_cons_of_pos hleading, ih, List.dropWhile_cons_of_pos hleading]
    | false =>
      rw [List.dropWhile_cons_of_neg (Bool.eq_false_iff.mp hleading), openSettings_cons]
      split
      · exact List.dropWhile_cons_of_neg (Bool.eq_false_iff.mp hnew)
      · exact List.dropWhile_cons_of_neg (Bool.eq_false_iff.mp hleading)

/-- The lines of a text below its header: without leading blank lines and markers, and without
its documentation setting. -/
def keptLines (content : String) : List String :=
  (withoutDocumentation (lines content)).dropWhile isLeading

theorem dropWhile_isLeading_aroundDocumentation (content : String) :
    (aroundDocumentation (lines content)).dropWhile isLeading =
      if (lines content).any isSettingsHeader then keptLines content
      else openSettings (keptLines content) := by
  unfold aroundDocumentation keptLines
  split
  · rfl
  next hnone =>
    rw [withoutDocumentation_eq_self (Bool.eq_false_iff.mpr hnone),
      dropWhile_isLeading_openSettings]

/-- Renewing the documentation of a text puts it between lines that are kept. -/
theorem unmarkedLines_renewDocumentation {content : String} {documentation : List String}
    (hmark : content.toList.head? ≠ some '\uFEFF') (hreturn : '\r' ∉ content.toList)
    (hblock : ∀ line ∈ documentationBlock documentation, Chars.OneLine line.toList) :
    ∃ before after, unmarkedLines (renewDocumentation content documentation) =
        before ++ documentationBlock documentation ++ after ∧
      before ++ after = (aroundDocumentation (lines content)).dropWhile isLeading ∧
      ∀ line ∈ unmarkedLines (renewDocumentation content documentation),
        Chars.IsLine line.toList := by
  obtain ⟨before, after, hplace, haround, hheader, hhead⟩ :=
    placeDocumentation_eq (lines content)
  have hlines : ∀ line ∈ placeDocumentation (documentationBlock documentation) (lines content),
      Chars.IsLine line.toList := by
    refine isLine_placeDocumentation (fun line hline ↦ ?_)
      fun line hline ↦ (hblock line hline).isLine
    exact (Chars.oneLine_of_mem_lines hreturn (mem_lines_iff.mp hline)).isLine
  -- the text still starts with its first line, or with the new header
  have hbom : withoutByteOrderMark (renewDocumentation content documentation) =
      renewDocumentation content documentation := by
    refine withoutByteOrderMark_eq_self fun hfirst ↦ ?_
    obtain ⟨line, hmem, _⟩ := hheader
    obtain ⟨first, rest, rfl⟩ := List.exists_cons_of_ne_nil (List.ne_nil_of_mem hmem)
    rw [renewDocumentation, joinLines, hplace] at hfirst
    have hstart := head?_of_intercalate (by decide) hfirst
    obtain hhead | hhead := hhead
    · exact hmark (head?_of_lines hhead.symm hstart)
    · rw [Option.some.inj hhead] at hstart
      exact absurd hstart (by decide)
  have hread : lines (renewDocumentation content documentation) =
      placeDocumentation (documentationBlock documentation) (lines content) := by
    refine lines_intercalate ?_ hlines
    obtain ⟨line, hmem, _⟩ := hheader
    rw [hplace, List.append_assoc]
    exact List.ne_nil_of_mem (List.mem_append_left _ hmem)
  have hunmarked : unmarkedLines (renewDocumentation content documentation) =
      (placeDocumentation (documentationBlock documentation) (lines content)).dropWhile
        isLeading := by
    rw [← hread]
    exact congrArg (fun text ↦ (lines text).dropWhile isLeading) hbom
  refine ⟨before.dropWhile isLeading, after, ?_, ?_, fun line hline ↦ ?_⟩
  · rw [hunmarked, hplace, List.append_assoc, dropWhile_isLeading_append hheader,
      List.append_assoc]
  · rw [← haround, dropWhile_isLeading_append hheader]
  · rw [hunmarked] at hline
    exact hlines line ((List.dropWhile_sublist _).mem hline)

/-! ### The quickest tier -/

/-- The lines of a text without the blank lines at its end. -/
def withoutTrailingBlank (content : List String) : List String :=
  content.rdropWhile isBlankText

/-- The title that a file is given: its own one, or one made from its path. -/
def titleOf (existing path : String) : String :=
  (existingTitle? existing).getD (fallbackTitle path)

theorem oneLine_titleOf {existing : String} (hreturn : '\r' ∉ existing.toList) (path : String) :
    Chars.OneLine (titleOf existing path).toList := by
  unfold titleOf
  cases htitle : existingTitle? existing with
  | some title => exact oneLine_existingTitle hreturn htitle
  | none => exact oneLine_fallbackTitle path

theorem content_quickRefresh (existing : String) {request : TierRequest}
    (h : request.tier = .quickRefresh) (fresh : Option String) :
    (runTier existing request fresh).content =
      ensureMarker (renewDocumentation existing [titleOf existing request.path,
        generatedNote request.mode (tierMarker existing request fresh).tier])
        (tierMarker existing request fresh) := by
  have heffective : effectiveTier request.tier fresh = .quickRefresh := by
    rw [h]
    cases fresh <;> rfl
  have htitle : (existingTitle? existing <|> existingTitle? existing) =
      existingTitle? existing := by
    cases existingTitle? existing <;> rfl
  have hdeep : (Tier.quickRefresh == Tier.deepRegeneration) = false := rfl
  have hquick : (Tier.quickRefresh == Tier.quickRefresh) = true := rfl
  dsimp only [runTier, tierMarker, recordedTier, titleOf]
  simp only [heffective, hdeep, hquick, htitle, if_true, Bool.false_eq_true, if_false]

/-- The quickest tier writes the marker and two lines of documentation, and opens settings for
them if there are none. All other lines are those of the text as it was, without its leading blank
lines and markers and without its documentation setting; blank lines at the end do not count. -/
theorem quick_refresh_touches_header_only (existing : String) (request : TierRequest)
    (fresh : Option String) (hmark : existing.toList.head? ≠ some '\uFEFF')
    (hreturn : '\r' ∉ existing.toList) (htier : request.tier = .quickRefresh)
    (hruns : (applyTier existing request fresh).applied.isSome) :
    ∃ before after,
      lines (applyTier existing request fresh).content =
        (tierMarker existing request fresh).render :: (before ++
          [row ["Documentation", titleOf existing request.path],
            row ["...", generatedNote request.mode (tierMarker existing request fresh).tier]] ++
          after) ∧
      withoutTrailingBlank (before ++ after) =
        withoutTrailingBlank
          (if (lines existing).any isSettingsHeader then keptLines existing
            else openSettings (keptLines existing)) := by
  have hcontent : (applyTier existing request fresh).content =
      ensureMarker (renewDocumentation existing [titleOf existing request.path,
        generatedNote request.mode (tierMarker existing request fresh).tier])
        (tierMarker existing request fresh) := by
    obtain ⟨_, heq⟩ | ⟨_, heq⟩ := applyTier_cases existing request fresh
    · rw [heq] at hruns
      cases hruns
    · rw [heq]
      exact content_quickRefresh existing htier fresh
  rw [hcontent, ← dropWhile_isLeading_aroundDocumentation]
  have htiered := tierMarker_tiered existing request fresh
  generalize tierMarker existing request fresh = marker at htiered ⊢
  have hblock := oneLine_documentationBlock (oneLine_titleOf hreturn request.path)
    (oneLine_generatedNote htiered request.mode)
  obtain ⟨before, after, hunmarked, haround, hlines⟩ :=
    unmarkedLines_renewDocumentation hmark hreturn hblock
  obtain ⟨kept, hkept, hsame | hlost⟩ := lines_ensureMarker htiered hlines
  · rw [hunmarked] at hsame
    exact ⟨before, after, hkept.trans (congrArg (marker.render :: ·) hsame),
      congrArg withoutTrailingBlank haround⟩
  · rw [hunmarked] at hlost
    obtain rfl | ⟨shorter, last, rfl⟩ := List.eq_nil_or_concat after
    · -- the empty line cannot be the last one of the documentation
      have hlast : row ["...", generatedNote request.mode marker.tier] = "" := by
        simpa [documentationBlock] using congrArg List.getLast? hlost
      exact absurd hlast (row_ne_empty _ _)
    · rw [List.concat_eq_append] at hlost haround
      rw [← List.append_assoc] at hlost
      obtain ⟨hshorter, hlast⟩ := List.append_inj' hlost rfl
      refine ⟨before, shorter, hkept.trans (congrArg (marker.render :: ·) hshorter.symm), ?_⟩
      obtain rfl : last = "" := List.cons.inj hlast |>.1
      rw [← haround, ← List.append_assoc]
      exact (List.rdropWhile_concat_pos _ _ _ rfl).symm

/-- A text that is given by its lines. -/
theorem lines_joinLines_of_oneLine {first : String} {rest : List String}
    (hmark : first.toList.head? ≠ some '\uFEFF')
    (h : ∀ line ∈ first :: rest, Chars.OneLine line.toList) :
    (joinLines (first :: rest)).toList.head? ≠ some '\uFEFF' ∧
      '\r' ∉ (joinLines (first :: rest)).toList ∧
      lines (joinLines (first :: rest)) = first :: rest := by
  refine ⟨fun hhead ↦ hmark (head?_of_intercalate (by decide) hhead), fun hreturn ↦ ?_,
    lines_intercalate (List.cons_ne_nil _ _) fun line hline ↦ (h line hline).isLine⟩
  rw [joinLines, String.toList_append, String.toList_intercalate, List.mem_append] at hreturn
  obtain hreturn | hreturn := hreturn
  · obtain hfeed | ⟨part, hpart, hreturn⟩ := Chars.mem_join hreturn
    · exact absurd hfeed (by decide)
    · obtain ⟨line, hline, rfl⟩ := List.mem_map.mp hpart
      exact (h line hline '\r' hreturn).2 rfl
  · exact absurd hreturn (by decide)

/-- A forced refresh of a file with a marker, documentation of its own and an import. -/
theorem quick_refresh_touches_header_only_forced :
    let existing := "\n# robomigrate: mode=manual tier=2\n*** Settings ***\n" ++
      "Documentation    Login\n...    by hand\nLibrary    Browser\n\n*** Keywords ***\nOpen\n\n"
    let request : TierRequest := ⟨.enhanced, .quickRefresh, true, "robot/login.resource"⟩
    existing.toList.head? ≠ some '\uFEFF' ∧ '\r' ∉ existing.toList ∧
      (applyTier existing request none).applied.isSome ∧
      ∃ before after,
        lines (applyTier existing request none).content =
          (tierMarker existing request none).render :: (before ++
            [row ["Documentation", titleOf existing request.path],
              row ["...", generatedNote request.mode (tierMarker existing request none).tier]] ++
            after) ∧
        withoutTrailingBlank (before ++ after) =
          withoutTrailingBlank
            (if (lines existing).any isSettingsHeader then keptLines existing
              else openSettings (keptLines existing)) := by
  intro existing request
  have htext : existing = joinLines ["", "# robomigrate: mode=manual tier=2", "*** Settings ***",
      "Documentation    Login", "...    by hand", "Library    Browser", "", "*** Keywords ***",
      "Open", ""] := by decide +kernel
  obtain ⟨hmark, hreturn, -⟩ : existing.toList.head? ≠ some '\uFEFF' ∧
      '\r' ∉ existing.toList ∧ lines existing = _ :=
    htext ▸ lines_joinLines_of_oneLine (by decide) (by decide)
  have hruns : (applyTier existing request none).applied.isSome := rfl
  exact ⟨hmark, hreturn, hruns,
    quick_refresh_touches_header_only existing request none hmark hreturn rfl hruns⟩

end SuiteMigration.Robot
