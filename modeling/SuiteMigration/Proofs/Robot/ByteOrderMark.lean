import SuiteMigration.Proofs.Robot.BodyLines

/-!
What a byte order mark at the start of a file does to the tiers. The marker line is read and written
without it, but the documentation is placed and the check is made while it stands before the first
line, which is then no header and no comment. So the mark does not always go unnoticed; exactly
where it does is said here for each tier.
-/

set_option autoImplicit false
set_option relaxedAutoImplicit false

namespace SuiteMigration.Robot

open SuiteMigration.Text

/-! ### Texts with a byte order mark -/

def withByteOrderMark (content : String) : String :=
  "\uFEFF" ++ content

theorem toList_withByteOrderMark (content : String) :
    (withByteOrderMark content).toList = '\uFEFF' :: content.toList := by
  simp [withByteOrderMark]

theorem withoutByteOrderMark_withByteOrderMark (content : String) :
    withoutByteOrderMark (withByteOrderMark content) = withoutByteOrderMark content := by
  rw [withoutByteOrderMark, withoutByteOrderMark, dropStartWhile, dropStartWhile,
    toList_withByteOrderMark, List.dropWhile_cons_of_pos rfl]

/-- The mark belongs to the first line. -/
theorem lines_withByteOrderMark {content first : String} {rest : List String}
    (h : lines content = first :: rest) :
    lines (withByteOrderMark content) = withByteOrderMark first :: rest := by
  rw [lines, List.map_eq_cons_iff] at h
  obtain ⟨start, others, hlines, rfl, rfl⟩ := h
  have hfirst : String.ofList ('\uFEFF' :: start) = withByteOrderMark (String.ofList start) := by
    rw [← String.toList_inj, toList_withByteOrderMark, String.toList_ofList, String.toList_ofList]
  rw [lines, toList_withByteOrderMark, Chars.lines_cons (by decide) (fun h ↦ absurd h (by decide)),
    hlines, ← hfirst]
  rfl

theorem ink?_withByteOrderMark (line : String) :
    ink? (withByteOrderMark line) = some '\uFEFF' :=
  ink?_of_head? (by rw [toList_withByteOrderMark]; rfl) (by decide)

theorem isHeader_withByteOrderMark (line : String) : isHeader (withByteOrderMark line) = false :=
  isHeader_eq_false_of_ink? (ink?_withByteOrderMark line) (by decide)

theorem readBack_withByteOrderMark (line : String) :
    readBack (withByteOrderMark line) = withByteOrderMark (readBack line) := by
  have hreturn : Chars.withoutReturn ('\uFEFF' :: line.toList) =
      '\uFEFF' :: Chars.withoutReturn line.toList := by
    unfold Chars.withoutReturn
    cases line.toList with
    | nil => rfl
    | cons c rest =>
      rw [List.getLast?_cons_cons]
      split <;> rfl
  rw [← String.toList_inj, toList_withByteOrderMark, readBack, readBack, toList_withByteOrderMark,
    hreturn, String.toList_ofList, String.toList_ofList]

theorem joinLines_withByteOrderMark (line : String) (rest : List String) :
    joinLines (withByteOrderMark line :: rest) = withByteOrderMark (joinLines (line :: rest)) := by
  rw [← String.toList_inj, toList_withByteOrderMark, toList_joinLines, toList_joinLines,
    List.map_cons, List.map_cons, toList_withByteOrderMark, Chars.join_cons_char]
  rfl

theorem unmarkedLines_withByteOrderMark (line : String) (rest : List String) :
    unmarkedLines (joinLines (withByteOrderMark line :: rest)) =
      unmarkedLines (joinLines (line :: rest)) := by
  rw [joinLines_withByteOrderMark, unmarkedLines, withoutByteOrderMark_withByteOrderMark]
  rfl

section Mark

variable {line : String} {rest : List String}
  (hfeed : ∀ other ∈ line :: rest, '\n' ∉ other.toList)

theorem checkedLines_mark (line : String) (rest : List String) :
    checkedLines (withByteOrderMark line :: rest) =
      withByteOrderMark (readBack line) :: checkedLines rest := by
  have hcomment := isValidationComment_eq_false_of_ink? (ink?_withByteOrderMark line) (by decide)
  rw [checkedLines_cons hcomment, readBack_withByteOrderMark]

include hfeed

theorem not_mem_withByteOrderMark :
    ∀ other ∈ withByteOrderMark line :: rest, '\n' ∉ other.toList := by
  obtain ⟨hline, hrest⟩ := List.forall_mem_cons.mp hfeed
  refine List.forall_mem_cons.mpr ⟨?_, hrest⟩
  rw [toList_withByteOrderMark, List.mem_cons, not_or]
  exact ⟨by decide, hline⟩

theorem bodyLines_mark_of_valid
    (h : (validate (joinLines (withByteOrderMark line :: rest))).isValid = true) :
    bodyLines true (withByteOrderMark line :: rest) =
      withoutEmptyEnd (unmarkedLines (joinLines (readBack line :: checkedLines rest))) := by
  rw [bodyLines_of_valid (List.cons_ne_nil _ _) (not_mem_withByteOrderMark hfeed) h,
    checkedLines_mark, unmarkedLines_withByteOrderMark]

/-- A comment above the first line keeps the mark in the text. -/
theorem bodyLines_mark_of_invalid
    (h : (validate (joinLines (withByteOrderMark line :: rest))).isValid = false) :
    bodyLines true (withByteOrderMark line :: rest) =
      validationComment (validate (joinLines (withByteOrderMark line :: rest))) ::
        withoutEmptyEnd (withByteOrderMark (readBack (readBack line)) ::
          (checkedLines rest).map readBack) := by
  have hleading := isLeading_eq_false_of_ink? (ink?_withByteOrderMark (readBack line)) (by decide)
  rw [bodyLines_of_invalid (List.cons_ne_nil _ _) (not_mem_withByteOrderMark hfeed) h,
    checkedLines_mark, belowMarker_cons hleading, List.map_cons, readBack_withByteOrderMark]

/-! ### A mark before the first line -/

/-- Before a comment the mark adds a row to what is checked, and nothing else. -/
theorem issues_mark_comment (h : isValidationComment line = true) :
    ∃ leaked, (validate (joinLines (withByteOrderMark line :: rest))).issues =
      leaked ++ (validate (joinLines (line :: rest))).issues := by
  have hmarked : lines (joinLines (withByteOrderMark line :: rest)) =
      withByteOrderMark (readBack line) :: rest.map readBack := by
    rw [lines_joinLines (List.cons_ne_nil _ _) (not_mem_withByteOrderMark hfeed), List.map_cons,
      readBack_withByteOrderMark]
  have hplain : lines (joinLines (line :: rest)) = readBack line :: rest.map readBack :=
    lines_joinLines (List.cons_ne_nil _ _) hfeed
  have hink := ink?_withByteOrderMark (readBack line)
  have hhash : ink? (readBack line) = some '#' := by
    rw [ink?_readBack]
    exact ink?_of_isValidationComment h
  have hname {other : String} {c : Char} (hother : ink? other = some c) (hc : c ≠ '*') :
      sectionName? other = none := by
    simpa [isHeader] using isHeader_eq_false_of_ink? hother hc
  have hcomment : isComment (readBack line) = true := by
    rw [isComment, ← ink?, hhash]
    rfl
  have hrow : (isComment (withByteOrderMark (readBack line)) ||
      isBlankText (withByteOrderMark (readBack line))) = false := by
    have hleading := isLeading_eq_false_of_ink? hink (by decide)
    rw [isLeading, Bool.or_eq_false_iff] at hleading
    rw [isComment, ← ink?, hink, hleading.1]
    rfl
  have hrows : sectionRows (joinLines (withByteOrderMark line :: rest)) =
      ⟨1, "", withByteOrderMark (readBack line)⟩ :: sectionRows (joinLines (line :: rest)) := by
    rw [sectionRows, sectionRows, hmarked, hplain, rowsFrom, rowsFrom, hname hink (by decide),
      hname hhash (by decide), hcomment, hrow]
    rfl
  have hbody : hasBodySection (joinLines (withByteOrderMark line :: rest)) =
      hasBodySection (joinLines (line :: rest)) := by
    rw [hasBodySection, hasBodySection, hmarked, hplain, List.any_cons, List.any_cons,
      hname hink (by decide), hname hhash (by decide)]
  have hlibrary : libraryIssues (joinLines (withByteOrderMark line :: rest)) =
      libraryIssues (joinLines (line :: rest)) := by
    rw [libraryIssues, libraryIssues, library?, library?, hrows]
    rfl
  refine ⟨(leakIssue? ⟨1, "", withByteOrderMark (readBack line)⟩).toList, ?_⟩
  unfold validate
  rw [hrows, hbody, hlibrary, List.filterMap_cons]
  cases leakIssue? ⟨1, "", withByteOrderMark (readBack line)⟩ <;> simp

/-- What is reported on a text with a mark keeps the mark, and so there is one more of them. -/
theorem bodyLines_mark_ne_of_invalid
    (h : (validate (joinLines (withByteOrderMark line :: rest))).isValid = false) :
    bodyLines true (withByteOrderMark line :: rest) ≠ bodyLines true (line :: rest) := by
  have hfeedMark : ('\uFEFF' : Char) ≠ '\n' := by decide
  have hreturnMark : ('\uFEFF' : Char) ≠ '\r' := by decide
  have hkept : countIn '\uFEFF' (belowMarker (checkedLines (line :: rest))) ≤
      countIn '\uFEFF' (readBack line :: checkedLines rest) := by
    refine (countIn_le_of_sublist _ (belowMarker_sublist _)).trans (countIn_le_of_sublist _ ?_)
    cases hcomment : isValidationComment line with
    | false => rw [checkedLines_cons hcomment]
    | true =>
      rw [checkedLines_cons_of_comment hcomment]
      exact List.sublist_cons_self _ _
  have hmark : countIn '\uFEFF' (withoutEmptyEnd (withByteOrderMark (readBack (readBack line)) ::
      (checkedLines rest).map readBack)) =
      countIn '\uFEFF' (readBack line :: checkedLines rest) + 1 := by
    rw [countIn_withoutEmptyEnd, ← readBack_withByteOrderMark, ← List.map_cons,
      countIn_map_readBack hreturnMark, countIn_cons, countIn_cons, toList_withByteOrderMark,
      List.count_cons_self]
    omega
  rw [bodyLines_mark_of_invalid hfeed h]
  intro heq
  cases hvalid : (validate (joinLines (line :: rest))).isValid with
  | true =>
    have hle := countIn_unmarkedLines_le hfeedMark hreturnMark (not_mem_of_mem_checkedLines hfeed)
    rw [bodyLines_of_valid (List.cons_ne_nil _ _) hfeed hvalid] at heq
    have hcount := congrArg (countIn '\uFEFF') heq
    rw [countIn_cons, hmark, countIn_withoutEmptyEnd] at hcount
    omega
  | false =>
    rw [bodyLines_of_invalid (List.cons_ne_nil _ _) hfeed hvalid] at heq
    have hcount := congrArg (countIn '\uFEFF') (List.cons.inj heq).2
    rw [hmark, countIn_withoutEmptyEnd, countIn_map_readBack hreturnMark] at hcount
    omega

section Silent

variable (hmarked : (validate (joinLines (withByteOrderMark line :: rest))).isValid = true)

include hmarked

/-- A comment on the text without the mark would be one more. -/
theorem bodyLines_mark_ne_of_plain_invalid (hcomment : isValidationComment line = false)
    (hinvalid : (validate (joinLines (line :: rest))).isValid = false) :
    bodyLines true (withByteOrderMark line :: rest) ≠ bodyLines true (line :: rest) := by
  rw [bodyLines_mark_of_valid hfeed hmarked,
    bodyLines_of_invalid (List.cons_ne_nil _ _) hfeed hinvalid, checkedLines_cons hcomment]
  intro heq
  have hcount := congrArg (countIn '#') heq
  rw [countIn_withoutEmptyEnd, countIn_cons, countIn_withoutEmptyEnd,
    countIn_map_readBack (by decide)] at hcount
  have hle := countIn_unmarkedLines_le (c := '#') (by decide) (by decide)
    (not_mem_readBack_checkedLines hfeed)
  have hpos : 0 < (validationComment (validate (joinLines (line :: rest)))).toList.count '#' := by
    rw [toList_validationComment]
    exact List.count_pos_iff.mpr List.mem_cons_self
  omega

/-- A comment on an earlier check is lost, but not behind a mark. -/
theorem bodyLines_mark_ne_of_comment (hcomment : isValidationComment line = true) :
    bodyLines true (withByteOrderMark line :: rest) ≠ bodyLines true (line :: rest) := by
  have hvalid : (validate (joinLines (line :: rest))).isValid = true := by
    obtain ⟨leaked, hissues⟩ := issues_mark_comment hfeed hcomment
    rw [Report.isValid, hissues, List.isEmpty_iff, List.append_eq_nil_iff] at hmarked
    rw [Report.isValid, hmarked.2]
    rfl
  have hkept := not_mem_readBack_checkedLines hfeed
  rw [bodyLines_mark_of_valid hfeed hmarked,
    bodyLines_of_valid (List.cons_ne_nil _ _) hfeed hvalid, checkedLines_cons_of_comment hcomment]
  rw [← isValidationComment_readBack] at hcomment
  rw [unmarkedLines_joinLines_of_ink? (ink?_of_isValidationComment hcomment) (by decide)
    (isLeading_of_isValidationComment hcomment) hkept]
  intro heq
  have hcount := congrArg (countIn '#') heq
  rw [countIn_withoutEmptyEnd, countIn_map_readBack (by decide), countIn_cons,
    countIn_withoutEmptyEnd] at hcount
  have hle := countIn_unmarkedLines_le (c := '#') (by decide) (by decide)
    (List.forall_mem_cons.mp hkept).2
  have hless := countIn_le_of_sublist '#' (belowMarker_sublist (checkedLines rest))
  have hpos : 0 < (readBack line).toList.count '#' :=
    List.count_pos_iff.mpr (List.mem_of_head? (head?_of_startsWith hcomment (by decide)))
  omega

end Silent

/-- A mark before lines that are otherwise the same is lost again exactly if there is nothing to
report and no comment on the first line. -/
theorem bodyLines_mark_iff (checks : Bool) :
    bodyLines checks (withByteOrderMark line :: rest) = bodyLines checks (line :: rest) ↔
      (checks = true → (validate (joinLines (withByteOrderMark line :: rest))).isValid = true ∧
        (validate (joinLines (line :: rest))).isValid = true ∧
        isValidationComment line = false) := by
  cases checks with
  | false =>
    refine iff_of_true ?_ nofun
    rw [bodyLines, if_neg Bool.false_ne_true, unmarkedLines_withByteOrderMark]
    rfl
  | true =>
    cases hmarked : (validate (joinLines (withByteOrderMark line :: rest))).isValid with
    | false =>
      exact iff_of_false (bodyLines_mark_ne_of_invalid hfeed hmarked)
        fun h ↦ Bool.noConfusion (h rfl).1
    | true =>
      cases hcomment : isValidationComment line with
      | true =>
        exact iff_of_false (bodyLines_mark_ne_of_comment hfeed hmarked hcomment)
          fun h ↦ Bool.noConfusion (h rfl).2.2
      | false =>
        cases hvalid : (validate (joinLines (line :: rest))).isValid with
        | false =>
          exact iff_of_false (bodyLines_mark_ne_of_plain_invalid hfeed hmarked hcomment hvalid)
            fun h ↦ Bool.noConfusion (h rfl).2.1
        | true =>
          refine iff_of_true ?_ fun _ ↦ ⟨rfl, rfl, rfl⟩
          rw [bodyLines_mark_of_valid hfeed hmarked,
            bodyLines_of_valid (List.cons_ne_nil _ _) hfeed hvalid, checkedLines_cons hcomment]

/-- With nothing to report, the mark before a line that starts with no other one is lost. -/
theorem bodyLines_mark_of_silent (checks : Bool) (hmark : line.toList.head? ≠ some '\uFEFF')
    (hcomment : isValidationComment line = false)
    (hvalid : checks = true →
      (validate (joinLines (withByteOrderMark line :: rest))).isValid = true) :
    bodyLines checks (withByteOrderMark line :: rest) =
      withoutEmptyEnd ((written checks (line :: rest)).dropWhile isLeading) := by
  cases checks with
  | false =>
    rw [bodyLines, if_neg Bool.false_ne_true, unmarkedLines_withByteOrderMark,
      unmarkedLines_joinLines hmark hfeed, written_false]
  | true =>
    have hfirst : (readBack line).toList.head? ≠ some '\uFEFF' := by
      intro hhead
      obtain ⟨others, hothers⟩ := isPrefix_readBack line
      rw [← hothers, List.head?_append, hhead] at hmark
      exact hmark rfl
    rw [bodyLines_mark_of_valid hfeed (hvalid rfl),
      unmarkedLines_joinLines hfirst (not_mem_readBack_checkedLines hfeed),
      ← checkedLines_cons hcomment, written_true]
    rfl

end Mark

/-- If both texts go on with a header, then there must be nothing to report on either: a comment
stands where the other text has its header, and keeps the mark. -/
theorem bodyLines_mark_header_iff (checks : Bool) {line start header : String}
    {rest more others : List String} (hfeed : ∀ other ∈ line :: rest, '\n' ∉ other.toList)
    (hothers : ∀ other ∈ header :: others, '\n' ∉ other.toList)
    (hmark : line.toList.head? ≠ some '\uFEFF') (hcomment : isValidationComment line = false)
    (hstart : isHeader start = true) (hheader : isHeader header = true)
    (hwritten : (written checks (line :: rest)).dropWhile isLeading =
      written checks (start :: more)) :
    bodyLines checks (withByteOrderMark line :: rest) = bodyLines checks (header :: others) ↔
      (checks = true → (validate (joinLines (withByteOrderMark line :: rest))).isValid = true ∧
        (validate (joinLines (header :: others))).isValid = true) ∧
      withoutEmptyEnd (written checks (start :: more)) =
        withoutEmptyEnd (written checks (header :: others)) := by
  have hsilent := bodyLines_mark_of_silent hfeed checks hmark hcomment
  rw [hwritten] at hsilent
  have hinvalid := bodyLines_mark_of_invalid hfeed
  rw [bodyLines_of_isHeader hothers checks hheader]
  cases checks with
  | false =>
    rw [hsilent nofun]
    exact ⟨fun h ↦ ⟨nofun, h⟩, And.right⟩
  | true =>
    obtain ⟨first, hstar, _, hfirst⟩ := withoutEmptyEnd_written_header true hstart more
    obtain ⟨second, hstar', _, hsecond⟩ := withoutEmptyEnd_written_header true hheader others
    have hne {star other : String} (hink : ink? star = some '*') {c : Char}
        (hother : ink? other = some c) (hc : c ≠ '*') : other ≠ star := by
      rintro rfl
      exact hc (Option.some.inj (hother.symm.trans hink))
    rw [if_pos rfl, commentOn]
    cases hmarked : (validate (joinLines (withByteOrderMark line :: rest))).isValid with
    | true =>
      rw [hsilent fun _ ↦ hmarked]
      cases hvalid : (validate (joinLines (header :: others))).isValid with
      | true =>
        rw [if_pos rfl, List.nil_append]
        exact ⟨fun h ↦ ⟨fun _ ↦ ⟨rfl, rfl⟩, h⟩, And.right⟩
      | false =>
        refine iff_of_false (fun heq ↦ ?_) fun h ↦ Bool.noConfusion (h.1 rfl).2
        rw [hfirst, if_neg Bool.false_ne_true, List.singleton_append] at heq
        exact hne hstar (ink?_validationComment _) (by decide) (List.cons.inj heq).1.symm
    | false =>
      rw [hinvalid hmarked, withoutEmptyEnd_cons
        (ne_empty_of_ink? (ink?_withByteOrderMark _)), hsecond]
      refine iff_of_false (fun heq ↦ ?_) fun h ↦ Bool.noConfusion (h.1 rfl).1
      cases hvalid : (validate (joinLines (header :: others))).isValid with
      | true =>
        rw [hvalid, if_pos rfl, List.nil_append] at heq
        exact hne hstar' (ink?_validationComment _) (by decide) (List.cons.inj heq).1
      | false =>
        rw [hvalid, if_neg Bool.false_ne_true, List.singleton_append] at heq
        exact hne hstar' (ink?_withByteOrderMark _) (by decide)
          (List.cons.inj (List.cons.inj heq).2).1

/-! ### Where the documentation goes behind a mark -/

theorem existingTitle?_congr {content other : String}
    (h : (documentationSpan? (lines content)).map DocumentationSpan.block =
      (documentationSpan? (lines other)).map DocumentationSpan.block) :
    existingTitle? content = existingTitle? other := by
  have hblock (text : String) : existingTitle? text =
      ((documentationSpan? (lines text)).map DocumentationSpan.block).bind fun block ↦
        (block.flatMap fun line ↦ (splitCells line).tail.map trim).find? fun cell ↦
          !cell.isEmpty && !startsWith cell noteStart := by
    rw [existingTitle?]
    cases documentationSpan? (lines text) <;> rfl
  rw [hblock, hblock, h]

section Title

variable {existing first : String} {rest : List String} (hlines : lines existing = first :: rest)

include hlines

theorem block_withByteOrderMark :
    (documentationSpan? (lines (withByteOrderMark existing))).map DocumentationSpan.block =
      (documentationSpan? rest).map DocumentationSpan.block := by
  rw [lines_withByteOrderMark hlines, documentationSpan?_cons (isHeader_withByteOrderMark first),
    Option.map_map]
  rfl

/-- The title of a file is found behind a mark, unless that hides a header of the settings. -/
theorem titleOf_withByteOrderMark (h : isSettingsHeader first = false) (path : String) :
    titleOf (withByteOrderMark existing) path = titleOf existing path := by
  rw [titleOf, titleOf, existingTitle?_congr]
  rw [block_withByteOrderMark hlines, hlines, documentationSpan?_cons_of_not_settings h,
    Option.map_map]
  rfl

theorem titleOf_withByteOrderMark_settings (h : isSettingsHeader first = true)
    (hspan : documentationSpanFrom true rest = documentationSpan? rest) (path : String) :
    titleOf (withByteOrderMark existing) path = titleOf existing path := by
  rw [titleOf, titleOf, existingTitle?_congr]
  rw [block_withByteOrderMark hlines, hlines, documentationSpan?_settings_cons h, hspan,
    Option.map_map]
  rfl

end Title

/-- Whether a tier puts the documentation of a text where it puts it with a byte order mark before
the text. A header of the settings on the first line has to be dispensable: the setting that is
found without it is the same one, or both settings are generated already. Another header only has
to have settings below it. -/
def KeepsPlace (checks : Bool) (path note existing : String) : Prop :=
  match lines existing with
  | [] => True
  | first :: rest =>
    if isSettingsHeader first then
      ∃ span found, documentationSpanFrom true rest = some span ∧
        documentationSpan? rest = some found ∧
        (span = found ∨
          written checks span.block = documentationBlock [titleOf existing path, note] ∧
          written checks found.block =
            documentationBlock [titleOf (withByteOrderMark existing) path, note])
    else isHeader first = true → rest.any isSettingsHeader = true

theorem isLine_titleOf (content path : String) : Chars.IsLine (titleOf content path).toList := by
  rw [titleOf_eq]
  exact isLine_tierTitle _ _ _

theorem not_mem_placeDocumentation {content : List String} {title note : String}
    (htitle : Chars.IsLine title.toList) (hnote : Chars.IsLine note.toList)
    (h : ∀ line ∈ content, '\n' ∉ line.toList) :
    ∀ line ∈ placeDocumentation (documentationBlock [title, note]) content,
      '\n' ∉ line.toList := by
  intro line hline
  obtain hline | hline | rfl | rfl := mem_placeDocumentation hline
  · exact h line hline
  · exact (isLine_documentationBlock htitle hnote line hline).1
  · decide
  · decide

/-- The lines of a text with its documentation. -/
def documentedLines (content path note : String) : List String :=
  placeDocumentation (documentationBlock [titleOf content path, note]) (lines content)

section Placed

variable (checks : Bool) (path : String) {existing note : String}
  (hnote : Chars.IsLine note.toList)

/-- In an empty text only the documentation is written, below the mark if there is one. -/
theorem documentedLines_mark_empty (note : String) :
    documentedLines (withByteOrderMark "") path note =
      withByteOrderMark "" :: documentedLines "" path note := by
  have hlines : lines (withByteOrderMark "") = [withByteOrderMark ""] := by decide
  have htitle : titleOf (withByteOrderMark "") path = titleOf "" path := by
    have hmarked : existingTitle? (withByteOrderMark "") = none := by decide
    have hplain : existingTitle? "" = none := by decide
    rw [titleOf, titleOf, hmarked, hplain]
  rw [documentedLines, hlines, placeDocumentation_cons (isHeader_withByteOrderMark ""), htitle]
  rfl

include hnote

theorem not_mem_documentedLines (content : String) :
    ∀ line ∈ documentedLines content path note, '\n' ∉ line.toList :=
  not_mem_placeDocumentation (isLine_titleOf _ _) hnote fun _ ↦ not_mem_of_mem_lines

/-- The three kinds of header on the first line: one of the settings, one with settings below it,
and one without, above which new settings come. -/
theorem written_hidden_header_iff {first : String} {rest : List String}
    (hlines : lines existing = first :: rest) (hheader : isHeader first = true) :
    ∃ header others, documentedLines existing path note = header :: others ∧
      isHeader header = true ∧
      (withoutEmptyEnd (written checks (first :: placeDocumentation
          (documentationBlock [titleOf (withByteOrderMark existing) path, note]) rest)) =
        withoutEmptyEnd (written checks (header :: others)) ↔
        KeepsPlace checks path note existing) := by
  unfold KeepsPlace documentedLines
  rw [hlines]
  dsimp only
  cases hsettings : isSettingsHeader first with
  | true =>
    refine ⟨first, _, placeDocumentation_settings_cons hsettings _ _, hheader, ?_⟩
    obtain ⟨own, hown, hstar⟩ :=
      exists_writtenLine checks (ink?_of_isHeader hheader) (by decide)
    rw [if_pos rfl, written_cons hown, written_cons hown,
      withoutEmptyEnd_cons (ne_empty_of_ink? hstar), withoutEmptyEnd_cons (ne_empty_of_ink? hstar),
      List.cons_inj_right]
    exact placed_same_iff checks (isLine_titleOf _ _) (isLine_titleOf _ _) hnote fun hspan ↦
      (titleOf_withByteOrderMark_settings hlines hsettings hspan path).symm
  | false =>
    rw [if_neg Bool.false_ne_true]
    cases hany : rest.any isSettingsHeader with
    | true =>
      refine ⟨first, _, placeDocumentation_header_cons hsettings hany _, hheader,
        iff_of_true ?_ fun _ ↦ rfl⟩
      rw [titleOf_withByteOrderMark hlines hsettings]
    | false =>
      obtain ⟨more, hmore⟩ := placeDocumentation_header_cons_of_none hheader
        (by rw [List.any_cons, hsettings, hany]; rfl)
        (documentationBlock [titleOf existing path, note])
      refine ⟨_, more, hmore, by decide, iff_of_false (fun heq ↦ ?_) fun h ↦
        Bool.noConfusion (h hheader)⟩
      -- the two texts start with headers of different sections
      obtain ⟨own, _, hown, hsame⟩ := withoutEmptyEnd_written_header checks hheader
        (placeDocumentation
          (documentationBlock [titleOf (withByteOrderMark existing) path, note]) rest)
      obtain ⟨new, _, hnew, hother⟩ := withoutEmptyEnd_written_header checks
        (show isHeader "*** Settings ***" = true by decide) more
      rw [hsame, hother] at heq
      rw [isSettingsHeader, ← hown, (List.cons.inj heq).1, hnew] at hsettings
      exact absurd hsettings (by decide)

theorem bodyLines_mark_empty_iff :
    bodyLines checks (documentedLines (withByteOrderMark "") path note) =
        bodyLines checks (documentedLines "" path note) ↔
      (checks = true →
        (validate (joinLines (documentedLines (withByteOrderMark "") path note))).isValid = true ∧
        (validate (joinLines (documentedLines "" path note))).isValid = true) := by
  have hplain := not_mem_documentedLines path hnote ""
  obtain ⟨more, hmore⟩ : ∃ more, documentedLines "" path note = "*** Settings ***" :: more :=
    ⟨_, rfl⟩
  rw [hmore] at hplain
  have hnew : isHeader "*** Settings ***" = true := by decide
  have hempty : writtenLine? checks "" = some "" := by cases checks <;> decide
  have hplaced : ∀ line ∈ "" :: "*** Settings ***" :: more, '\n' ∉ line.toList :=
    List.forall_mem_cons.mpr ⟨by decide, hplain⟩
  have hwritten : (written checks ("" :: "*** Settings ***" :: more)).dropWhile isLeading =
      written checks ("*** Settings ***" :: more) := by
    rw [written_cons hempty, List.dropWhile_cons_of_pos (by decide),
      dropWhile_written_of_isHeader checks hnew]
  rw [documentedLines_mark_empty, hmore,
    bodyLines_mark_header_iff checks hplaced hplain (by decide) (by decide) hnew hnew hwritten]
  exact and_iff_left rfl

section FirstLine

variable {first : String} {rest : List String} (hlines : lines existing = first :: rest)

include hlines

omit hnote in
theorem documentedLines_withByteOrderMark :
    documentedLines (withByteOrderMark existing) path note =
      withByteOrderMark first :: placeDocumentation
        (documentationBlock [titleOf (withByteOrderMark existing) path, note]) rest := by
  rw [documentedLines, lines_withByteOrderMark hlines,
    placeDocumentation_cons (isHeader_withByteOrderMark first)]

theorem not_mem_first_placeDocumentation (content : String) :
    ∀ line ∈ first :: placeDocumentation
      (documentationBlock [titleOf content path, note]) rest, '\n' ∉ line.toList := by
  have hfeed : ∀ line ∈ first :: rest, '\n' ∉ line.toList := fun line hline ↦
    not_mem_of_mem_lines (hlines ▸ hline)
  obtain ⟨hfirst, hrest⟩ := List.forall_mem_cons.mp hfeed
  exact List.forall_mem_cons.mpr
    ⟨hfirst, not_mem_placeDocumentation (isLine_titleOf _ _) hnote hrest⟩

theorem bodyLines_hidden_header_iff (hheader : isHeader first = true) :
    bodyLines checks (documentedLines (withByteOrderMark existing) path note) =
        bodyLines checks (documentedLines existing path note) ↔
      KeepsPlace checks path note existing ∧ (checks = true →
        (validate (joinLines (documentedLines (withByteOrderMark existing) path note))).isValid =
          true ∧
        (validate (joinLines (documentedLines existing path note))).isValid = true) := by
  have hstar := ink?_of_isHeader hheader
  have hmark : first.toList.head? ≠ some '\uFEFF' := fun h ↦ by
    rw [ink?_of_head? h (by decide)] at hstar
    cases hstar
  have hplain := not_mem_documentedLines path hnote existing
  obtain ⟨header, others, hdocumented, hstart, hiff⟩ :=
    written_hidden_header_iff checks path hnote hlines hheader
  rw [hdocumented] at hplain ⊢
  rw [documentedLines_withByteOrderMark path hlines,
    bodyLines_mark_header_iff checks (not_mem_first_placeDocumentation path hnote hlines _) hplain
      hmark (isValidationComment_eq_false_of_ink? hstar (by decide)) hheader hstart
      (dropWhile_written_of_isHeader checks hheader _), hiff]
  exact and_comm

/-- Before a line that is no header a mark does not change the place of the documentation. -/
theorem bodyLines_mark_plain_iff (hheader : isHeader first = false) :
    KeepsPlace checks path note existing ∧
      (bodyLines checks (documentedLines (withByteOrderMark existing) path note) =
          bodyLines checks (documentedLines existing path note) ↔
        (checks = true →
          (validate (joinLines (documentedLines (withByteOrderMark existing) path note))).isValid =
            true ∧
          (validate (joinLines (documentedLines existing path note))).isValid = true ∧
          isValidationComment first = false)) := by
  have hsettings := isSettingsHeader_eq_false hheader
  have hdocumented : documentedLines existing path note = first :: placeDocumentation
      (documentationBlock [titleOf (withByteOrderMark existing) path, note]) rest := by
    rw [documentedLines, hlines, placeDocumentation_cons hheader,
      titleOf_withByteOrderMark hlines hsettings]
  constructor
  · unfold KeepsPlace
    rw [hlines]
    dsimp only
    rw [hsettings, if_neg Bool.false_ne_true, hheader]
    exact nofun
  · rw [documentedLines_withByteOrderMark path hlines, hdocumented]
    exact bodyLines_mark_iff (not_mem_first_placeDocumentation path hnote hlines _) checks

end FirstLine

variable (existing) in
/-- A tier that works on the file itself writes the same lines with and without the mark exactly if
the documentation keeps its place and, if the tier checks, nothing is reported on either text and
no comment stands on the first line. -/
theorem bodyLines_documentedLines_iff :
    bodyLines checks (documentedLines (withByteOrderMark existing) path note) =
        bodyLines checks (documentedLines existing path note) ↔
      KeepsPlace checks path note existing ∧ (checks = true →
        (validate (joinLines (documentedLines (withByteOrderMark existing) path note))).isValid =
          true ∧
        (validate (joinLines (documentedLines existing path note))).isValid = true ∧
        ∀ first ∈ (lines existing).head?, isValidationComment first = false) := by
  cases hlines : lines existing with
  | nil =>
    obtain rfl : existing = "" := by
      rw [lines, List.map_eq_nil_iff, Chars.lines_eq_nil_iff] at hlines
      exact String.toList_inj.mp hlines
    have hkeeps : KeepsPlace checks path note "" := trivial
    rw [bodyLines_mark_empty_iff checks path hnote]
    simp [hkeeps]
  | cons first rest =>
    cases hheader : isHeader first with
    | true =>
      have hcomment := isValidationComment_eq_false_of_ink? (ink?_of_isHeader hheader) (by decide)
      rw [bodyLines_hidden_header_iff checks path hnote hlines hheader]
      simp [hcomment]
    | false =>
      obtain ⟨hkeeps, hiff⟩ := bodyLines_mark_plain_iff checks path hnote hlines hheader
      rw [hiff]
      simp [hkeeps]

end Placed

/-! ### Tiers that run on a text with a mark -/

section Tiers

variable (existing : String) (request : TierRequest) (fresh : Option String)

/-- What is recorded is read behind the mark. -/
theorem parse?_withByteOrderMark :
    Marker.parse? (withByteOrderMark existing) = Marker.parse? existing := by
  rw [Marker.parse?_eq, Marker.parse?_eq, withoutByteOrderMark_withByteOrderMark]

theorem recordedTier_withByteOrderMark :
    recordedTier (withByteOrderMark existing) = recordedTier existing := by
  rw [recordedTier, recordedTier, parse?_withByteOrderMark]

theorem tierMarker_withByteOrderMark :
    tierMarker (withByteOrderMark existing) request fresh = tierMarker existing request fresh := by
  rw [tierMarker, tierMarker, recordedTier_withByteOrderMark, parse?_withByteOrderMark,
    isSome_validation_runTier, isSome_validation_runTier]

/-- The note that a tier writes below the title. -/
def tierNote : String :=
  generatedNote request.mode (tierMarker existing request fresh).tier

theorem isLine_tierNote : Chars.IsLine (tierNote existing request fresh).toList :=
  (oneLine_generatedNote (tierMarker_tiered existing request fresh) request.mode).isLine

theorem tierNote_withByteOrderMark :
    tierNote (withByteOrderMark existing) request fresh = tierNote existing request fresh := by
  rw [tierNote, tierNote, tierMarker_withByteOrderMark]

theorem validation_runTier (h : effectiveTier request.tier fresh = .validation) :
    (runTier existing request fresh).validation = some (validate (joinLines
      (documentedLines existing request.path (tierNote existing request fresh)))) := by
  have htitle : (existingTitle? existing <|> existingTitle? existing) =
      existingTitle? existing := by
    cases existingTitle? existing <;> rfl
  have hdeep : (Tier.validation == Tier.deepRegeneration) = false := rfl
  have hquick : (Tier.validation == Tier.quickRefresh) = false := rfl
  dsimp only [runTier, tierNote, tierMarker, recordedTier]
  simp only [h, hdeep, hquick, htitle, Bool.false_eq_true, if_false]
  rfl

/-- When a byte order mark before a file goes unnoticed. Regeneration has to find the same title;
the other tiers have to put the documentation into the same place. A check must not have anything to
report, with or without the mark, and there must be no comment on an earlier one in the first
line. -/
def MarkUnnoticed : Tier → Prop
  | .deepRegeneration => ∃ base, fresh = some base ∧
      tierTitle (withByteOrderMark existing) base request.path =
        tierTitle existing base request.path
  | .quickRefresh => KeepsPlace false request.path (tierNote existing request fresh) existing
  | .validation => KeepsPlace true request.path (tierNote existing request fresh) existing ∧
      (∀ text ∈ [withByteOrderMark existing, existing],
        ∀ report ∈ (runTier text request fresh).validation, report.isValid = true) ∧
      ∀ first ∈ (lines existing).head?, isValidationComment first = false

theorem content_runTier_mark_iff :
    (runTier (withByteOrderMark existing) request fresh).content =
        (runTier existing request fresh).content ↔
      MarkUnnoticed existing request fresh (effectiveTier request.tier fresh) := by
  have hm := tierMarker_tiered existing request fresh
  have hnote := isLine_tierNote existing request fresh
  rw [content_runTier_eq, content_runTier_eq, tierMarker_withByteOrderMark]
  by_cases heffective : effectiveTier request.tier fresh = .deepRegeneration
  · obtain ⟨base, rfl⟩ := effectiveTier_eq_deepRegeneration heffective
    have hbase (text : String) : tierBase text request (some base) = base := by
      rw [tierBase, heffective]
      rfl
    rw [hbase, hbase, heffective,
      refreshed_inj hm _ base (isLine_tierTitle _ _ _) (isLine_tierTitle _ _ _)]
    constructor
    · exact fun htitle ↦ ⟨base, rfl, htitle⟩
    · rintro ⟨_, ⟨⟩, htitle⟩
      exact htitle
  · have hbase (text : String) : tierBase text request fresh = text := by
      rw [tierBase, if_neg (by simpa using heffective)]
    rw [hbase, hbase, ← titleOf_eq, ← titleOf_eq, refreshed_eq_iff hm]
    refine (bodyLines_documentedLines_iff _ request.path existing hnote).trans ?_
    cases htier : effectiveTier request.tier fresh with
    | deepRegeneration => exact absurd htier heffective
    | quickRefresh => simp [MarkUnnoticed]
    | validation =>
      have hchecks : (Tier.validation != Tier.quickRefresh) = true := rfl
      simp [MarkUnnoticed, validation_runTier _ request fresh htier, tierNote_withByteOrderMark,
        hchecks, and_assoc]

end Tiers

/-- A tier that runs on a file runs as the same tier if a byte order mark stands before the file,
and it writes the same content exactly if the mark goes unnoticed. -/
theorem byte_order_mark_unnoticed_iff (existing : String) (request : TierRequest)
    (fresh : Option String) (hruns : (applyTier existing request fresh).applied.isSome) :
    let plain := applyTier existing request fresh
    let marked := applyTier (withByteOrderMark existing) request fresh
    ∃ tier, plain.applied = some tier ∧ marked.applied = some tier ∧
      (marked.content = plain.content ↔ MarkUnnoticed existing request fresh tier) := by
  intro plain marked
  obtain ⟨_, heq⟩ | ⟨hcondition, hplain⟩ := applyTier_cases existing request fresh
  · rw [heq] at hruns
    cases hruns
  · have hmarked : marked = runTier (withByteOrderMark existing) request fresh := by
      obtain ⟨hskipped, _⟩ | ⟨_, heq⟩ := applyTier_cases (withByteOrderMark existing) request fresh
      · rw [recordedTier_withByteOrderMark] at hskipped
        exact absurd hcondition hskipped
      · exact heq
    refine ⟨effectiveTier request.tier fresh, ?_, ?_, ?_⟩
    · rw [show plain = _ from hplain, applied_runTier]
    · rw [hmarked, applied_runTier]
    · rw [show plain = _ from hplain, hmarked, content_runTier_mark_iff]

/-- A file that was generated before starts with its marker line, and a mark before that is lost. -/
theorem byte_order_mark_unnoticed_before_marker :
    let existing := "# robomigrate: mode=enhanced tier=1\n" ++
      "*** Settings ***\nDocumentation    Login\n"
    let request : TierRequest := ⟨.enhanced, .quickRefresh, true, "robot/login.resource"⟩
    (applyTier existing request none).applied.isSome ∧
      (applyTier (withByteOrderMark existing) request none).content =
        (applyTier existing request none).content := by
  intro existing request
  have hruns : (applyTier existing request none).applied.isSome := rfl
  obtain ⟨tier, happlied, _, hiff⟩ := byte_order_mark_unnoticed_iff existing request none hruns
  obtain rfl : Tier.quickRefresh = tier := Option.some.inj happlied
  refine ⟨hruns, hiff.mpr ?_⟩
  have hlines : lines existing = ["# robomigrate: mode=enhanced tier=1", "*** Settings ***",
      "Documentation    Login"] := by decide +kernel
  have hfirst : ¬ isSettingsHeader "# robomigrate: mode=enhanced tier=1" = true := by decide
  change KeepsPlace _ _ _ _
  unfold KeepsPlace
  rw [hlines]
  dsimp only
  rw [if_neg hfirst]
  decide

/-- A mark that hides a header of the settings hides the documentation setting with its title:
settings that the file has already are written a second time. -/
theorem byte_order_mark_hides_settings :
    let existing := "*** Settings ***\nDocumentation    Login\n"
    let request : TierRequest := ⟨.enhanced, .quickRefresh, false, "robot/login.resource"⟩
    (applyTier existing request none).applied.isSome ∧
      (applyTier (withByteOrderMark existing) request none).content ≠
        (applyTier existing request none).content := by
  intro existing request
  have hlines : lines existing = ["*** Settings ***", "Documentation    Login"] := by
    decide +kernel
  have hruns (text : String) (h : Marker.parse? text = none) :
      applyTier text request none = runTier text request none := by
    rw [applyTier, h]
    rfl
  have hplain : Marker.parse? existing = none := by decide +kernel
  rw [hruns _ hplain, hruns _ ((parse?_withByteOrderMark existing).trans hplain), applied_runTier,
    Ne, content_runTier_mark_iff]
  refine ⟨rfl, ?_⟩
  -- the setting is found below the header only
  change ¬ KeepsPlace _ _ _ _
  unfold KeepsPlace
  rw [hlines]
  rintro ⟨_, _, _, hfound, _⟩
  cases hfound

end SuiteMigration.Robot
