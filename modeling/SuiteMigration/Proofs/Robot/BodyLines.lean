import Mathlib.Data.List.Flatten
import SuiteMigration.Proofs.Path.Segments
import SuiteMigration.Proofs.Robot.HiddenHeader

/-!
The lines that a tier writes below the marker line. What is written for two texts is the same
exactly if these lines are. They depend on how the first line starts: from a header on they are the
lines with the documentation, below the comment on the check if there is one. Of a text that starts
otherwise one can at least count the characters: none is added, and none is lost without its line.
-/

set_option autoImplicit false
set_option relaxedAutoImplicit false

namespace SuiteMigration.Robot

open SuiteMigration.Text

/-! ### How lines start -/

theorem isValidationComment_eq_false_of_ink? {line : String} {c : Char} (h : ink? line = some c)
    (hc : c ≠ '#') : isValidationComment line = false := by
  by_contra hcomment
  rw [ink?_of_isValidationComment (Bool.not_eq_false _ ▸ hcomment)] at h
  exact hc (Option.some.inj h).symm

theorem ink?_of_isBlankText {line : String} (h : isBlankText line = true) : ink? line = none := by
  rw [ink?, Chars.trimStart, List.dropWhile_eq_nil_iff.mpr (List.all_eq_true.mp h)]
  rfl

theorem ink?_of_isMarkerLine {line : String} (h : isMarkerLine line = true) :
    ink? line = some '#' := by
  have hhead := head?_of_startsWith h (c := '#') (by decide)
  rw [trim, String.toList_ofList] at hhead
  exact head?_of_trimEnd hhead

theorem isLeading_eq_false_of_ink? {line : String} {c : Char} (h : ink? line = some c)
    (hc : c ≠ '#') : isLeading line = false := by
  by_contra hleading
  rw [Bool.not_eq_false, isLeading, Bool.or_eq_true] at hleading
  obtain hblank | hmarker := hleading
  · rw [ink?_of_isBlankText hblank] at h
    cases h
  · rw [ink?_of_isMarkerLine hmarker] at h
    exact hc (Option.some.inj h).symm

/-- Whether a line is a comment on a check does not depend on the way it ends. -/
theorem isValidationComment_readBack (line : String) :
    isValidationComment (readBack line) = isValidationComment line := by
  obtain heq | heq := readBack_cases line
  · rw [heq]
  · rw [Bool.eq_iff_iff, isValidationComment, isValidationComment, startsWith_iff, startsWith_iff,
      heq, List.prefix_concat_iff]
    have hends : validationStart.toList ≠ (readBack line).toList ++ ['\r'] := fun h ↦ by
      have hmem : '\r' ∈ validationStart.toList := by
        rw [h]
        exact List.mem_append_right _ (List.mem_singleton_self _)
      exact absurd hmem (by decide)
    exact ⟨Or.inr, fun h ↦ h.resolve_left hends⟩

theorem isLeading_of_isValidationComment {line : String} (h : isValidationComment line = true) :
    isLeading line = false := by
  have hhash := ink?_of_isValidationComment h
  have hfirst : line.toList.head? = some '#' := head?_of_startsWith h (by decide)
  have hblank : isBlankText line = false := by
    by_contra hblank
    rw [ink?_of_isBlankText (Bool.not_eq_false _ ▸ hblank)] at hhash
    cases hhash
  have hmarker : isMarkerLine line = false := by
    by_contra hmarker
    rw [Bool.not_eq_false, isMarkerLine, startsWith_iff, trim, String.toList_ofList] at hmarker
    have hstart : markerStart.toList <+: line.toList := by
      obtain ⟨rest, hrest⟩ := List.head?_eq_some_iff.mp hfirst
      rw [hrest]
      rw [hrest, Chars.trim, Chars.trimStart, List.dropWhile_cons_of_neg (by decide)] at hmarker
      exact hmarker.trans (isPrefix_trimEnd _)
    obtain hprefix | hprefix := List.prefix_or_prefix_of_prefix hstart (startsWith_iff.mp h)
    · exact absurd hprefix (by decide)
    · exact absurd hprefix (by decide)
  rw [isLeading, hblank, hmarker]
  rfl

theorem isPrefix_readBack (line : String) : (readBack line).toList <+: line.toList := by
  obtain heq | heq := readBack_cases line
  · exact heq.symm ▸ List.prefix_rfl
  · rw [heq]
    exact List.prefix_append _ _

theorem ink?_validationComment (r : Report) : ink? (validationComment r) = some '#' :=
  ink?_of_isValidationComment (isValidationComment_validationComment r)

/-! ### Counting characters -/

/-- How often a character stands in lines. -/
def countIn (c : Char) (content : List String) : Nat :=
  (content.flatMap String.toList).count c

@[simp] theorem countIn_nil (c : Char) : countIn c [] = 0 := rfl

@[simp] theorem countIn_cons (c : Char) (line : String) (rest : List String) :
    countIn c (line :: rest) = line.toList.count c + countIn c rest := by
  simp [countIn]

theorem countIn_le_of_sublist (c : Char) {first second : List String}
    (h : first.Sublist second) : countIn c first ≤ countIn c second :=
  (h.flatMap String.toList).count_le c

theorem countIn_map_readBack {c : Char} (hc : c ≠ '\r') (content : List String) :
    countIn c (content.map readBack) = countIn c content := by
  induction content with
  | nil => rfl
  | cons line rest ih =>
    have hline : line.toList.count c = (readBack line).toList.count c := by
      obtain heq | heq := readBack_cases line
      · rw [heq]
      · have hreturned : ['\r'].count c = 0 := List.count_eq_zero.mpr (by simpa using hc)
        rw [heq, List.count_append, hreturned, Nat.add_zero]
    rw [List.map_cons, countIn_cons, countIn_cons, ih, hline]

theorem countIn_withoutEmptyEnd (c : Char) (content : List String) :
    countIn c (withoutEmptyEnd content) = countIn c content := by
  obtain ⟨_, heq⟩ | heq := withoutEmptyEnd_cases content
  · rw [heq]
  · conv_rhs => rw [heq]
    simp [countIn]

theorem count_joinLines {c : Char} (hc : c ≠ '\n') (content : List String) :
    (joinLines content).toList.count c = countIn c content := by
  have hfeed : ("\n" : String).toList.count c = 0 :=
    List.count_eq_zero.mpr (by simpa using hc)
  induction content with
  | nil => exact hfeed
  | cons line rest ih =>
    rw [countIn_cons, ← ih]
    cases rest with
    | nil => simp [joinLines]
    | cons next more =>
      rw [joinLines_cons (List.cons_ne_nil _ _), String.toList_append, String.toList_append,
        List.count_append, List.count_append, hfeed]
      rfl

/-- Reading lines adds no characters. -/
theorem flatten_lines_sublist (cs : List Char) : (Chars.lines cs).flatten.Sublist cs := by
  fun_induction Chars.lines cs with
  | case1 => exact List.Sublist.refl _
  | case2 rest ih => exact (ih.cons _).cons _
  | case3 rest ih => exact ih.cons _
  | case4 c rest _ _ heq ih => exact (List.nil_sublist rest).cons_cons c
  | case5 c rest _ _ first others heq ih =>
    rw [heq] at ih
    exact ih.cons_cons c

theorem countIn_lines_le (c : Char) (content : String) :
    countIn c (lines content) ≤ content.toList.count c := by
  rw [countIn, List.flatMap_def, map_toList_lines]
  exact (flatten_lines_sublist content.toList).count_le c

/-! ### Lines below the marker -/

/-- Lines without a marker at their start. -/
def belowMarker : List String → List String
  | [] => []
  | first :: rest => if isMarkerLine first then rest else first :: rest

theorem belowMarker_sublist (content : List String) : (belowMarker content).Sublist content := by
  cases content with
  | nil => exact List.Sublist.refl _
  | cons first rest =>
    rw [belowMarker]
    split
    · exact List.sublist_cons_self _ _
    · exact List.Sublist.refl _

theorem belowMarker_cons {first : String} (h : isLeading first = false) (rest : List String) :
    belowMarker (first :: rest) = first :: rest := by
  rw [isLeading, Bool.or_eq_false_iff] at h
  rw [belowMarker, if_neg (Bool.eq_false_iff.mp h.2)]

theorem unmarkedLines_joinLines {first : String} {rest : List String}
    (hmark : first.toList.head? ≠ some '\uFEFF')
    (h : ∀ line ∈ first :: rest, '\n' ∉ line.toList) :
    unmarkedLines (joinLines (first :: rest)) =
      ((first :: rest).map readBack).dropWhile isLeading := by
  have hbom : withoutByteOrderMark (joinLines (first :: rest)) = joinLines (first :: rest) :=
    withoutByteOrderMark_eq_self fun hhead ↦ hmark (head?_of_intercalate (by decide) hhead)
  rw [← lines_joinLines (List.cons_ne_nil _ _) h]
  exact congrArg (fun text ↦ (lines text).dropWhile isLeading) hbom

theorem unmarkedLines_joinLines_of_ink? {first : String} {c : Char} {rest : List String}
    (hink : ink? first = some c) (hc : c ≠ '\uFEFF') (hleading : isLeading first = false)
    (h : ∀ line ∈ first :: rest, '\n' ∉ line.toList) :
    unmarkedLines (joinLines (first :: rest)) = (first :: rest).map readBack := by
  rw [unmarkedLines_joinLines (fun hmark ↦ ?_) h]
  · rw [← isLeading_readBack] at hleading
    exact List.dropWhile_cons_of_neg (Bool.eq_false_iff.mp hleading)
  · rw [ink?_of_head? hmark (by decide)] at hink
    exact hc (Option.some.inj hink).symm

theorem unmarkedLines_joinLines_of_isMarkerLine {first : String} {rest : List String}
    (hmarker : isMarkerLine first = true) (h : ∀ line ∈ first :: rest, '\n' ∉ line.toList) :
    unmarkedLines (joinLines (first :: rest)) = (rest.map readBack).dropWhile isLeading := by
  have hleading : isLeading first = true := by rw [isLeading, hmarker, Bool.or_true]
  rw [unmarkedLines_joinLines (fun hmark ↦ ?_) h]
  · rw [← isLeading_readBack] at hleading
    exact List.dropWhile_cons_of_pos hleading
  · have hink := ink?_of_isMarkerLine hmarker
    rw [ink?_of_head? hmark (by decide)] at hink
    cases hink

theorem countIn_unmarkedLines_le {c : Char} (hfeed : c ≠ '\n') (hreturn : c ≠ '\r')
    {content : List String} (h : ∀ line ∈ content, '\n' ∉ line.toList) :
    countIn c (unmarkedLines (joinLines content)) ≤ countIn c (belowMarker content) := by
  have hall : countIn c (unmarkedLines (joinLines content)) ≤ countIn c content :=
    calc
      countIn c (unmarkedLines (joinLines content)) ≤
          countIn c (lines (withoutByteOrderMark (joinLines content))) :=
        countIn_le_of_sublist c (List.dropWhile_sublist _)
      _ ≤ (withoutByteOrderMark (joinLines content)).toList.count c := countIn_lines_le c _
      _ ≤ (joinLines content).toList.count c := by
        rw [withoutByteOrderMark, dropStartWhile, String.toList_ofList]
        exact (List.dropWhile_sublist _).count_le c
      _ = countIn c content := count_joinLines hfeed content
  cases content with
  | nil => exact hall
  | cons first rest =>
    rw [belowMarker]
    split
    next hmarker =>
      rw [unmarkedLines_joinLines_of_isMarkerLine hmarker h, ← countIn_map_readBack hreturn rest]
      exact countIn_le_of_sublist c (List.dropWhile_sublist _)
    next => exact hall

/-- The lines that a tier writes below the marker for lines with documentation. -/
def bodyLines (checks : Bool) (content : List String) : List String :=
  withoutEmptyEnd (unmarkedLines (if checks then
    annotateValidation (joinLines content) (validate (joinLines content)) else joinLines content))

theorem refreshed_eq_joinLines (checks : Bool) (m : Marker) (title base : String) :
    refreshed checks m title base = joinLines (m.render :: bodyLines checks (placeDocumentation
      (documentationBlock [title, generatedNote m.mode m.tier]) (lines base))) := by
  unfold refreshed bodyLines
  dsimp only
  rw [ensureMarker_eq_joinLines]
  rfl

theorem eq_of_joinLines_eq {first second : List String} (hfirst : first ≠ [])
    (hsecond : second ≠ []) (hlines : ∀ line ∈ first, '\n' ∉ line.toList)
    (hothers : ∀ line ∈ second, '\n' ∉ line.toList) (h : joinLines first = joinLines second) :
    first = second := by
  have hread {content : List String} (hne : content ≠ [])
      (hcontent : ∀ line ∈ content, '\n' ∉ line.toList) :
      Chars.splitBy (· == '\n') (Chars.join ['\n'] (content.map String.toList)) =
        content.map String.toList := by
    refine Chars.splitBy_join rfl (by simpa using hne) fun part hpart d hd ↦ ?_
    obtain ⟨line, hline, rfl⟩ := List.mem_map.mp hpart
    rw [beq_eq_false_iff_ne]
    rintro rfl
    exact hcontent line hline hd
  rw [← String.toList_inj, toList_joinLines, toList_joinLines, List.append_cancel_right_eq] at h
  have hchars := congrArg (Chars.splitBy (· == '\n')) h
  rw [hread hfirst hlines, hread hsecond hothers] at hchars
  exact List.map_injective_iff.mpr (fun _ _ ↦ String.toList_inj.mp) hchars

/-- What a tier writes can be told from the lines below the marker. -/
theorem refreshed_eq_iff {m : Marker} (hm : m.Tiered) (checks : Bool)
    {first second text other : String} :
    refreshed checks m first text = refreshed checks m second other ↔
      bodyLines checks (placeDocumentation
          (documentationBlock [first, generatedNote m.mode m.tier]) (lines text)) =
        bodyLines checks (placeDocumentation
          (documentationBlock [second, generatedNote m.mode m.tier]) (lines other)) := by
  have hfeed (content : List String) :
      ∀ line ∈ m.render :: bodyLines checks content, '\n' ∉ line.toList :=
    List.forall_mem_cons.mpr ⟨hm.isLine_render.1, fun line hline ↦
      not_mem_of_mem_unmarkedLines ((withoutEmptyEnd_sublist _).mem hline)⟩
  rw [refreshed_eq_joinLines, refreshed_eq_joinLines]
  refine ⟨fun heq ↦ ?_, fun heq ↦ by rw [heq]⟩
  exact (List.cons.inj (eq_of_joinLines_eq (List.cons_ne_nil _ _) (List.cons_ne_nil _ _)
    (hfeed _) (hfeed _) heq)).2

/-- The lines that a check keeps: all but the comments on other checks. -/
def checkedLines (content : List String) : List String :=
  (content.map readBack).filter fun line ↦ !isValidationComment line

theorem not_mem_of_mem_checkedLines {content : List String}
    (h : ∀ line ∈ content, '\n' ∉ line.toList) :
    ∀ line ∈ checkedLines content, '\n' ∉ line.toList := by
  intro line hline
  obtain ⟨source, hsource, rfl⟩ := List.mem_map.mp (List.mem_of_mem_filter hline)
  exact fun hfeed ↦ h source hsource ((isPrefix_readBack source).subset hfeed)

theorem checkedLines_cons {line : String} (h : isValidationComment line = false)
    (rest : List String) : checkedLines (line :: rest) = readBack line :: checkedLines rest := by
  rw [← isValidationComment_readBack] at h
  exact List.filter_cons_of_pos (by rw [h]; rfl)

theorem checkedLines_cons_of_comment {line : String} (h : isValidationComment line = true)
    (rest : List String) : checkedLines (line :: rest) = checkedLines rest := by
  rw [← isValidationComment_readBack] at h
  exact List.filter_cons_of_neg (by rw [h]; decide)

section Bodies

variable {content : List String} (hne : content ≠ [])
  (hfeed : ∀ line ∈ content, '\n' ∉ line.toList)

include hne hfeed

theorem bodyLines_of_valid (hvalid : (validate (joinLines content)).isValid = true) :
    bodyLines true content =
      withoutEmptyEnd (unmarkedLines (joinLines (checkedLines content))) := by
  rw [bodyLines, if_pos rfl, annotateValidation, lines_joinLines hne hfeed, if_pos hvalid]
  rfl

/-- The comment is put below a marker, and so it stays where the marker is replaced. -/
theorem bodyLines_of_invalid (hvalid : (validate (joinLines content)).isValid = false) :
    bodyLines true content = validationComment (validate (joinLines content)) ::
      withoutEmptyEnd ((belowMarker (checkedLines content)).map readBack) := by
  have hkept := not_mem_of_mem_checkedLines hfeed
  have hlines : (lines (joinLines content)).filter (fun line ↦ !startsWith line validationStart) =
      checkedLines content := by
    rw [lines_joinLines hne hfeed]
    rfl
  rw [bodyLines, if_pos rfl, annotateValidation, hlines, if_neg (Bool.eq_false_iff.mp hvalid)]
  generalize validate (joinLines content) = report
  have hcomment := (oneLine_validationComment report).isLine
  have hbelow (rest : List String) :
      ((validationComment report :: rest).map readBack).dropWhile isLeading =
        validationComment report :: rest.map readBack := by
    rw [List.map_cons, readBack_eq_self hcomment]
    exact List.dropWhile_cons_of_neg (Bool.eq_false_iff.mp (isLeading_validationComment report))
  have hfirst : (validationComment report).toList.head? ≠ some '\uFEFF' := by
    rw [toList_validationComment]
    exact fun h ↦ absurd (Option.some.inj h) (by decide)
  cases hchecked : checkedLines content with
  | nil =>
    dsimp only
    rw [unmarkedLines_joinLines hfirst (by simpa using hcomment.1), hbelow]
    exact withoutEmptyEnd_cons (validationComment_ne_empty report) _
  | cons first rest =>
    rw [hchecked] at hkept
    obtain ⟨hstart, hrest⟩ := List.forall_mem_cons.mp hkept
    dsimp only
    rw [belowMarker]
    split
    next hmarker =>
      rw [unmarkedLines_joinLines_of_isMarkerLine hmarker (List.forall_mem_cons.mpr
        ⟨hstart, List.forall_mem_cons.mpr ⟨hcomment.1, hrest⟩⟩), hbelow]
      exact withoutEmptyEnd_cons (validationComment_ne_empty report) _
    next =>
      rw [unmarkedLines_joinLines hfirst (List.forall_mem_cons.mpr ⟨hcomment.1, hkept⟩), hbelow]
      exact withoutEmptyEnd_cons (validationComment_ne_empty report) _

end Bodies

/-! ### Lines that start with a header -/

section Header

variable {line : String} {rest : List String}
  (hfeed : ∀ other ∈ line :: rest, '\n' ∉ other.toList)

include hfeed

theorem not_mem_readBack_checkedLines :
    ∀ other ∈ readBack line :: checkedLines rest, '\n' ∉ other.toList := by
  obtain ⟨hline, hrest⟩ := List.forall_mem_cons.mp hfeed
  exact List.forall_mem_cons.mpr
    ⟨fun h ↦ hline ((isPrefix_readBack line).subset h), not_mem_of_mem_checkedLines hrest⟩

/-- Below the marker stand the comment on the check and the lines from the first header on. -/
theorem bodyLines_of_isHeader (checks : Bool) (h : isHeader line = true) :
    bodyLines checks (line :: rest) =
      (if checks then commentOn (validate (joinLines (line :: rest))) else []) ++
        withoutEmptyEnd (written checks (line :: rest)) := by
  have hstar := ink?_of_isHeader h
  have hleading := isLeading_of_isHeader h
  cases checks with
  | false =>
    rw [bodyLines, if_neg Bool.false_ne_true, if_neg Bool.false_ne_true,
      unmarkedLines_joinLines_of_ink? hstar (by decide) hleading hfeed, written_false]
    rfl
  | true =>
    have hchecked := checkedLines_cons
      (isValidationComment_eq_false_of_ink? hstar (by decide)) rest
    rw [← isLeading_readBack] at hleading
    rw [← ink?_readBack] at hstar
    have hwritten : written true (line :: rest) =
        (readBack line :: checkedLines rest).map readBack := by
      rw [written_true, ← hchecked]
      rfl
    rw [if_pos rfl, commentOn, hwritten]
    cases hvalid : (validate (joinLines (line :: rest))).isValid with
    | true =>
      rw [bodyLines_of_valid (List.cons_ne_nil _ _) hfeed hvalid, hchecked,
        unmarkedLines_joinLines_of_ink? hstar (by decide) hleading
          (not_mem_readBack_checkedLines hfeed)]
      rfl
    | false =>
      rw [bodyLines_of_invalid (List.cons_ne_nil _ _) hfeed hvalid, hchecked,
        belowMarker_cons hleading]
      rfl

end Header

theorem withoutEmptyEnd_written_header (checks : Bool) {header : String}
    (h : isHeader header = true) (rest : List String) :
    ∃ first, ink? first = some '*' ∧ sectionName? first = sectionName? header ∧
      withoutEmptyEnd (written checks (header :: rest)) =
        first :: withoutEmptyEnd (written checks rest) := by
  obtain ⟨first, hfirst, hname⟩ := exists_writtenLine_of_isHeader checks h
  have hstar : ink? first = some '*' := ink?_of_isHeader (by rw [isHeader, hname]; exact h)
  rw [written_cons hfirst, withoutEmptyEnd_cons (ne_empty_of_ink? hstar)]
  exact ⟨first, hstar, hname, rfl⟩

theorem dropWhile_written_of_isHeader (checks : Bool) {header : String}
    (h : isHeader header = true) (rest : List String) :
    (written checks (header :: rest)).dropWhile isLeading = written checks (header :: rest) := by
  obtain ⟨first, hfirst, hstar⟩ := exists_writtenLine checks (ink?_of_isHeader h) (by decide)
  rw [written_cons hfirst]
  exact List.dropWhile_cons_of_neg
    (Bool.eq_false_iff.mp (isLeading_eq_false_of_ink? hstar (by decide)))

end SuiteMigration.Robot
