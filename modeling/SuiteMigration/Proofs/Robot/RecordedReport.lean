import SuiteMigration.Proofs.Robot.ByteOrderMark
import SuiteMigration.Proofs.Robot.IssueCount

/-!
The report on a check and the file that is written after it. The file is checked before the comment
on the check and the marker line are put on it, and neither is checked itself; so the report also
describes what is written. The exception is a byte order mark behind comments on earlier checks:
once these are gone it stands at the start of the text, where it is lost, and what it covers is read
only in the file that is written.
-/

set_option autoImplicit false
set_option relaxedAutoImplicit false

namespace SuiteMigration.Robot

open SuiteMigration.Text

/-! ### Lines without byte order marks -/

/-- The marks at the start of lines are those of the first line. -/
theorem withoutByteOrderMark_joinLines (first : String) (rest : List String) :
    withoutByteOrderMark (joinLines (first :: rest)) =
      joinLines (withoutByteOrderMark first :: rest) := by
  obtain ⟨more, hmore⟩ : ∃ more, ∀ line : String,
      (joinLines (line :: rest)).toList = line.toList ++ '\n' :: more := by
    cases rest with
    | nil => exact ⟨[], fun line ↦ by simp [toList_joinLines]⟩
    | cons next others =>
      refine ⟨(joinLines (next :: others)).toList, fun line ↦ ?_⟩
      rw [joinLines_cons (List.cons_ne_nil _ _), String.toList_append, String.toList_append,
        List.append_assoc]
      rfl
  rw [← String.toList_inj, hmore, withoutByteOrderMark, withoutByteOrderMark, dropStartWhile,
    dropStartWhile, String.toList_ofList, String.toList_ofList, hmore, List.dropWhile_append]
  split
  next hempty => rw [List.isEmpty_iff.mp hempty]; rfl
  next => rfl

theorem withoutByteOrderMark_readBack (line : String) :
    withoutByteOrderMark (readBack line) = readBack (withoutByteOrderMark line) := by
  have hchars (cs : List Char) : (Chars.withoutReturn cs).dropWhile (fun c ↦ c.toNat == 0xFEFF) =
      Chars.withoutReturn (cs.dropWhile fun c ↦ c.toNat == 0xFEFF) := by
    by_cases hlast : cs.getLast? = some '\r'
    · obtain ⟨front, rfl⟩ := List.getLast?_eq_some_iff.mp hlast
      have hdrop : (front ++ ['\r']).dropWhile (fun c ↦ c.toNat == 0xFEFF) =
          front.dropWhile (fun c ↦ c.toNat == 0xFEFF) ++ ['\r'] := by
        rw [List.dropWhile_append]
        split
        next hempty => rw [List.isEmpty_iff.mp hempty]; rfl
        next => rfl
      rw [hdrop]
      simp [Chars.withoutReturn]
    · have hdropped : (cs.dropWhile fun c ↦ c.toNat == 0xFEFF).getLast? ≠ some '\r' := by
        intro hdropped
        refine hlast ?_
        rw [← List.takeWhile_append_dropWhile (p := fun c : Char ↦ c.toNat == 0xFEFF) (l := cs),
          List.getLast?_append, hdropped]
        rfl
      rw [Chars.withoutReturn, if_neg hlast, Chars.withoutReturn, if_neg hdropped]
  rw [withoutByteOrderMark, dropStartWhile, readBack, String.toList_ofList, hchars, readBack,
    withoutByteOrderMark, dropStartWhile, String.toList_ofList]

theorem unmarkedLines_joinLines_cons {first : String} {rest : List String}
    (h : ∀ line ∈ first :: rest, '\n' ∉ line.toList) :
    unmarkedLines (joinLines (first :: rest)) =
      ((withoutByteOrderMark first :: rest).map readBack).dropWhile isLeading := by
  obtain ⟨hfirst, hrest⟩ := List.forall_mem_cons.mp h
  have hfeed : ∀ line ∈ withoutByteOrderMark first :: rest, '\n' ∉ line.toList := by
    refine List.forall_mem_cons.mpr ⟨fun hmem ↦ hfirst ?_, hrest⟩
    rw [withoutByteOrderMark, dropStartWhile, String.toList_ofList] at hmem
    exact (List.dropWhile_sublist _).mem hmem
  have hlines : unmarkedLines (joinLines (first :: rest)) =
      (lines (withoutByteOrderMark (joinLines (first :: rest)))).dropWhile isLeading := rfl
  rw [hlines, withoutByteOrderMark_joinLines, lines_joinLines (List.cons_ne_nil _ _) hfeed]

/-! ### What a mark covers -/

/-- What the byte order marks at the start of the text cover once the comments on earlier checks are
gone. -/
def coveredLine? (content : List String) : Option String :=
  (content.find? fun line ↦ !isValidationComment line).bind fun line ↦
    if line.toList.head? = some '\uFEFF' then some (withoutByteOrderMark line) else none

/-- A row with source syntax. -/
def isLeak (line : String) : Bool :=
  !isHeader line && isInked line && (leak? line).isSome

theorem isLeak_readBack (line : String) : isLeak (readBack line) = isLeak line := by
  rw [isLeak, isLeak, isHeader, isHeader, sectionName?_readBack, isInked_readBack,
    ← leak?_trimEnd (readBack line), trimEnd_readBack, leak?_trimEnd]

theorem head?_readBack_eq_mark_iff (line : String) :
    (readBack line).toList.head? = some '\uFEFF' ↔ line.toList.head? = some '\uFEFF' := by
  obtain heq | heq := readBack_cases line
  · rw [heq]
  · rw [heq]
    cases (readBack line).toList with
    | nil => decide
    | cons c rest => exact Iff.rfl

theorem coveredLine?_cons (line : String) (rest : List String) :
    coveredLine? (line :: rest) =
      if isValidationComment line then coveredLine? rest
      else if line.toList.head? = some '\uFEFF' then some (withoutByteOrderMark line)
      else none := by
  rw [coveredLine?, List.find?_cons]
  cases isValidationComment line <;> rfl

theorem coveredLine?_map_readBack (content : List String) :
    coveredLine? (content.map readBack) = (coveredLine? content).map readBack := by
  induction content with
  | nil => rfl
  | cons line rest ih =>
    rw [List.map_cons, coveredLine?_cons, coveredLine?_cons, ih, isValidationComment_readBack]
    simp only [head?_readBack_eq_mark_iff, withoutByteOrderMark_readBack]
    split
    · rfl
    · split <;> rfl

/-- A header covers nothing and is covered by nothing. -/
theorem coveredLine?_of_isHeader {line : String} (h : isHeader line = true) (rest : List String) :
    coveredLine? (line :: rest) = none := by
  have hink := ink?_of_isHeader h
  have hmark : line.toList.head? ≠ some '\uFEFF' := fun hmark ↦ by
    rw [ink?_of_head? hmark (by decide)] at hink
    exact absurd hink (by decide)
  rw [coveredLine?_cons, isValidationComment_eq_false_of_ink? hink (by decide),
    if_neg Bool.false_ne_true, if_neg hmark]

/-- Lines with documentation start with a header, unless those without it start otherwise. -/
theorem exists_isHeader_placeDocumentation {content : List String}
    (h : ∀ line ∈ content.head?, isHeader line = true) (block : List String) :
    ∃ line rest, placeDocumentation block content = line :: rest ∧ isHeader line = true := by
  obtain ⟨before, after, hplace, -, ⟨header, hmem, -⟩, hhead⟩ := placeDocumentation_eq content
  obtain ⟨line, more, rfl⟩ := List.exists_cons_of_ne_nil (List.ne_nil_of_mem hmem)
  refine ⟨line, _, hplace block, ?_⟩
  obtain hhead | hhead := hhead
  · exact h line (by rw [← hhead]; rfl)
  · rw [Option.some.inj hhead]
    decide

/-- Documentation is placed below a header, and so what is covered above stays. -/
theorem coveredLine?_placeDocumentation (block content : List String) :
    coveredLine? (placeDocumentation block content) = coveredLine? content := by
  have hnone {content : List String} (h : ∀ line ∈ content.head?, isHeader line = true) :
      coveredLine? (placeDocumentation block content) = none := by
    obtain ⟨line, rest, hplaced, hheader⟩ := exists_isHeader_placeDocumentation h block
    rw [hplaced, coveredLine?_of_isHeader hheader]
  induction content with
  | nil => exact hnone nofun
  | cons line rest ih =>
    cases hheader : isHeader line with
    | false => rw [placeDocumentation_cons hheader, coveredLine?_cons, coveredLine?_cons, ih]
    | true =>
      rw [coveredLine?_of_isHeader hheader]
      exact hnone (by simpa using hheader)

/-! ### What is written after a check -/

/-- What a mark covered counts once it is read. -/
theorem issueCount_uncovered {first : String} {rest : List String}
    (hmark : first.toList.head? = some '\uFEFF')
    (h : issueCount (inkedLines (first :: rest)) = 0) :
    issueCount (inkedLines (withoutByteOrderMark first :: rest)) =
      if isLeak (withoutByteOrderMark first) then 1 else 0 := by
  have hink := ink?_of_head? hmark (by decide)
  have hname : sectionName? (trimEnd first) = none := by
    simpa [sectionName?_trimEnd, isHeader] using isHeader_eq_false_of_ink? hink (by decide)
  rw [inkedLines_cons _ (isInked_of_ink? hink (by decide)), issueCount_cons hname,
    Nat.add_eq_zero_iff] at h
  generalize withoutByteOrderMark first = line
  cases hinked : isInked line with
  | false => rw [inkedLines_cons_of_not _ hinked, h.2, isLeak, hinked, Bool.and_false]; rfl
  | true =>
    rw [inkedLines_cons _ hinked]
    cases hheader : isHeader line with
    | true =>
      have htrimmed : isHeader (trimEnd line) = true := by
        rwa [isHeader, sectionName?_trimEnd]
      rw [issueCount_cons_of_isHeader htrimmed h.2, isLeak, hheader]
      rfl
    | false =>
      have htrimmed : sectionName? (trimEnd line) = none := by
        simpa [sectionName?_trimEnd, isHeader] using hheader
      rw [issueCount_cons htrimmed, h.2, leak?_trimEnd, isLeak, hheader, hinked]
      rfl

/-- The first line that a check keeps is the one that marks may cover. -/
theorem map_readBack_coveredLine? {content : List String} {first : String} {rest : List String}
    (h : checkedLines content = first :: rest) :
    (coveredLine? content).map readBack =
      if first.toList.head? = some '\uFEFF' then some (withoutByteOrderMark first) else none := by
  have hfirst : (content.map readBack).find? (fun line ↦ !isValidationComment line) =
      some first := by
    rw [← List.head?_filter, ← checkedLines, h, List.head?_cons]
  rw [← coveredLine?_map_readBack, coveredLine?, hfirst, Option.bind_some]

/-- What a mark covers is the rest of the first line that a check keeps. -/
theorem exists_coveredLine?_iff {content : List String} {first : String} {rest : List String}
    (h : checkedLines content = first :: rest) (p : String → Prop) :
    (∃ line, coveredLine? content = some line ∧ p (readBack line)) ↔
      first.toList.head? = some '\uFEFF' ∧ p (withoutByteOrderMark first) :=
  calc
    _ ↔ ∃ line, (coveredLine? content).map readBack = some line ∧ p line := by
      simp [Option.map_eq_some_iff]
    _ ↔ _ := by
      rw [map_readBack_coveredLine? h]
      split
      next hmark => simp [hmark]
      next hmark => simp [hmark]

/-- No line that a check keeps is read as a comment on a check. -/
theorem readBack_readBack_ne_of_mem_checkedLines {content : List String} {line : String}
    (h : line ∈ checkedLines content) (r : Report) :
    readBack (readBack line) ≠ validationComment r := by
  intro heq
  have hkept : (!isValidationComment line) = true := (List.mem_filter.mp h).2
  have hcomment := isValidationComment_validationComment r
  rw [← heq, isValidationComment_readBack, isValidationComment_readBack] at hcomment
  rw [hcomment] at hkept
  cases hkept

section Checked

variable {content : List String} (hne : content ≠ [])
  (hfeed : ∀ line ∈ content, '\n' ∉ line.toList)
  (hvalid : (validate (joinLines content)).isValid = true)

include hne hfeed hvalid

theorem exists_checkedLines : ∃ first rest, checkedLines content = first :: rest ∧
    issueCount (inkedLines (first :: rest)) = 0 := by
  have hcount : issueCount (inkedLines (checkedLines content)) = 0 := by
    rw [inkedLines_checkedLines, ← inkedLines_map_readBack, ← lines_joinLines hne hfeed,
      ← length_issues_validate]
    exact (isValid_iff _).mp hvalid
  cases hchecked : checkedLines content with
  | nil =>
    rw [hchecked] at hcount
    exact absurd hcount (by decide)
  | cons first rest => exact ⟨first, rest, rfl, hchecked ▸ hcount⟩

/-- A file without issues is written without byte order marks. -/
theorem bodyLines_uncovered {first : String} {rest : List String}
    (h : checkedLines content = first :: rest) :
    bodyLines true content = withoutEmptyEnd
      (((withoutByteOrderMark first :: rest).map readBack).dropWhile isLeading) := by
  rw [bodyLines_of_valid hne hfeed hvalid, h,
    unmarkedLines_joinLines_cons (h ▸ not_mem_of_mem_checkedLines hfeed)]

end Checked

section Written

variable {m : Marker} (hm : m.Tiered) {content : List String} (hne : content ≠ [])
  (hfeed : ∀ line ∈ content, '\n' ∉ line.toList)

include hm

theorem lines_written (checks : Bool) (content : List String) :
    lines (joinLines (m.render :: bodyLines checks content)) =
      m.render :: (bodyLines checks content).map readBack := by
  rw [lines_joinLines (List.cons_ne_nil _ _), List.map_cons, readBack_eq_self hm.isLine_render]
  exact List.forall_mem_cons.mpr ⟨hm.isLine_render.1, fun line hline ↦
    not_mem_of_mem_unmarkedLines ((withoutEmptyEnd_sublist _).mem hline)⟩

theorem second_line_written (checks : Bool) (content : List String) :
    (lines (joinLines (m.render :: bodyLines checks content)))[1]? =
      ((bodyLines checks content).map readBack).head? := by
  rw [lines_written hm, List.getElem?_cons_succ, List.head?_eq_getElem?]

theorem length_issues_written (checks : Bool) (content : List String) :
    (validate (joinLines (m.render :: bodyLines checks content))).issues.length =
      issueCount (inkedLines (bodyLines checks content)) := by
  rw [length_issues_validate, lines_written hm, inkedLines_cons_of_not _
    (isInked_of_comment (ink?_of_isMarkerLine hm.isMarkerLine_render)), inkedLines_map_readBack]

include hne hfeed

/-- A file with an issue is written with the comment on the check, and nothing else counts. -/
theorem written_of_invalid (hvalid : (validate (joinLines content)).isValid = false) :
    (validate (joinLines (m.render :: bodyLines true content))).issues.length =
        (validate (joinLines content)).issues.length ∧
      (lines (joinLines (m.render :: bodyLines true content)))[1]? =
        some (validationComment (validate (joinLines content))) := by
  have hbody := bodyLines_of_invalid hne hfeed hvalid
  constructor
  · rw [length_issues_written hm, hbody, inkedLines_cons_of_not _
      (isInked_of_comment (ink?_validationComment _)), inkedLines_withoutEmptyEnd,
      inkedLines_map_readBack, inkedLines_belowMarker, inkedLines_checkedLines,
      length_issues_validate, lines_joinLines hne hfeed, inkedLines_map_readBack]
  · rw [second_line_written hm, hbody, List.map_cons, List.head?_cons,
      readBack_eq_self (oneLine_validationComment _).isLine]

/-- A file without issues is written without issues, unless a mark covered source syntax. -/
theorem length_issues_of_valid (hvalid : (validate (joinLines content)).isValid = true) :
    (validate (joinLines (m.render :: bodyLines true content))).issues.length =
      if (coveredLine? content).any isLeak then 1 else 0 := by
  obtain ⟨first, rest, hchecked, hcount⟩ := exists_checkedLines hne hfeed hvalid
  have hcovered : (coveredLine? content).any isLeak =
      ((coveredLine? content).map readBack).any isLeak := by
    rw [Option.any_map]
    exact congrArg (fun f ↦ Option.any f _) (funext fun line ↦ (isLeak_readBack line).symm)
  rw [length_issues_written hm, bodyLines_uncovered hne hfeed hvalid hchecked,
    inkedLines_withoutEmptyEnd, inkedLines_dropWhile_isLeading, inkedLines_map_readBack, hcovered,
    map_readBack_coveredLine? hchecked]
  split
  next hmark => rw [issueCount_uncovered hmark hcount, Option.any_some]
  next hmark =>
    rw [withoutByteOrderMark_eq_self hmark, hcount, Option.any_none, if_neg Bool.false_ne_true]

/-- No comment is put on a file without issues, but a mark may have covered one. -/
theorem second_line_of_valid (hvalid : (validate (joinLines content)).isValid = true)
    (r : Report) :
    (lines (joinLines (m.render :: bodyLines true content)))[1]? = some (validationComment r) ↔
      ∃ line, coveredLine? content = some line ∧
        readBack (readBack (readBack line)) = validationComment r := by
  obtain ⟨first, rest, hchecked, -⟩ := exists_checkedLines hne hfeed hvalid
  have hother : ∀ line ∈ first :: rest, readBack (readBack line) ≠ validationComment r :=
    fun line hline ↦ readBack_readBack_ne_of_mem_checkedLines (hchecked ▸ hline) r
  rw [exists_coveredLine?_iff hchecked fun line ↦ readBack (readBack line) = validationComment r,
    second_line_written hm, bodyLines_uncovered hne hfeed hvalid hchecked, List.map_cons]
  cases hleading : isLeading (readBack (withoutByteOrderMark first)) with
  | true =>
    -- The marker line takes the place of the first line.
    refine iff_of_false (fun hhead ↦ ?_) fun ⟨_, heq⟩ ↦ ?_
    · rw [List.dropWhile_cons_of_pos hleading] at hhead
      obtain ⟨line, hline, heq⟩ := List.mem_map.mp (List.mem_of_head? hhead)
      obtain ⟨source, hsource, rfl⟩ := List.mem_map.mp
        ((List.dropWhile_sublist _).mem ((withoutEmptyEnd_sublist _).mem hline))
      exact hother source (List.mem_cons_of_mem _ hsource) heq
    · have hcomment := isValidationComment_validationComment r
      rw [← heq, isValidationComment_readBack] at hcomment
      rw [isLeading_of_isValidationComment hcomment] at hleading
      cases hleading
  | false =>
    rw [List.dropWhile_cons_of_neg (Bool.eq_false_iff.mp hleading)]
    have hnonempty : readBack (withoutByteOrderMark first) ≠ "" := by
      intro hempty
      rw [hempty] at hleading
      exact absurd hleading (by decide)
    rw [withoutEmptyEnd_cons hnonempty, List.map_cons, List.head?_cons, Option.some.injEq]
    refine (and_iff_right_of_imp fun heq ↦ ?_).symm
    by_contra hmark
    rw [withoutByteOrderMark_eq_self hmark] at heq
    exact hother first List.mem_cons_self heq

end Written

/-! ### The report of a tier -/

section Tier

variable (existing : String) (request : TierRequest) (fresh : Option String)

/-- The lines with documentation that a tier checks. -/
def tierLines : List String :=
  placeDocumentation (documentationBlock
      [tierTitle existing (tierBase existing request fresh) request.path,
        tierNote existing request fresh]) (lines (tierBase existing request fresh))

theorem not_mem_of_mem_tierLines :
    ∀ line ∈ tierLines existing request fresh, '\n' ∉ line.toList := by
  intro line hline
  obtain h | h | rfl | rfl := mem_placeDocumentation hline
  · exact not_mem_of_mem_lines h
  · exact (isLine_documentationBlock (isLine_tierTitle _ _ _)
      (isLine_tierNote existing request fresh) line h).1
  · decide
  · decide

theorem tierLines_ne_nil : tierLines existing request fresh ≠ [] := by
  obtain ⟨before, after, hplace, -, ⟨header, hmem, -⟩, -⟩ :=
    placeDocumentation_eq (lines (tierBase existing request fresh))
  rw [tierLines, hplace, List.append_assoc]
  exact List.ne_nil_of_mem (List.mem_append_left _ hmem)

/-- A tier that reports on a check reports on the lines with documentation, and it writes them with
what is said about the check. -/
theorem applyTier_of_validation {r : Report}
    (h : (applyTier existing request fresh).validation = some r) :
    r = validate (joinLines (tierLines existing request fresh)) ∧
      (applyTier existing request fresh).content =
        joinLines ((tierMarker existing request fresh).render ::
          bodyLines true (tierLines existing request fresh)) := by
  obtain ⟨-, heq⟩ | ⟨-, heq⟩ := applyTier_cases existing request fresh
  · rw [heq] at h
    cases h
  · rw [heq] at h ⊢
    have hchecks : (effectiveTier request.tier fresh != .quickRefresh) = true := by
      rw [← isSome_validation_runTier existing, h]
      rfl
    refine ⟨?_, ?_⟩
    · have hquick : (effectiveTier request.tier fresh == .quickRefresh) = false := by
        rwa [bne, Bool.not_eq_true'] at hchecks
      dsimp only [runTier] at h
      rw [hquick, if_neg Bool.false_ne_true] at h
      exact (Option.some.inj h).symm
    · rw [content_runTier_eq, hchecks, refreshed_eq_joinLines]
      rfl

/-- A tier that is forced and not quick reports on the lines with documentation. -/
theorem validation_applyTier (hforce : request.force = true)
    (hchecks : effectiveTier request.tier fresh ≠ .quickRefresh) :
    (applyTier existing request fresh).validation =
      some (validate (joinLines (tierLines existing request fresh))) := by
  have hsome : (applyTier existing request fresh).validation.isSome = true := by
    rw [applyTier_of_force existing hforce, isSome_validation_runTier]
    exact bne_iff_ne.mpr hchecks
  obtain ⟨r, hr⟩ := Option.isSome_iff_exists.mp hsome
  rw [hr, (applyTier_of_validation existing request fresh hr).1]

end Tier

/-- The report of a tier says of the written file whether it is valid and how many issues it has,
and the second line of the file is the comment with this number exactly if there are any; unless the
file had no issues when it was checked, and a byte order mark behind comments on earlier checks
covered a row with source syntax or another such comment. -/
theorem recorded_report_describes_iff (existing : String) (request : TierRequest)
    (fresh : Option String) {r : Report}
    (h : (applyTier existing request fresh).validation = some r) :
    let written := validate (applyTier existing request fresh).content
    (written.isValid = r.isValid ∧ written.issues.length = r.issues.length ∧
      ((lines (applyTier existing request fresh).content)[1]? = some (validationComment r) ↔
        r.isValid = false)) ↔
      ¬ (r.isValid = true ∧ ∃ line,
        coveredLine? (lines (tierBase existing request fresh)) = some line ∧
          (isLeak line = true ∨ readBack (readBack (readBack line)) = validationComment r)) := by
  intro written
  obtain ⟨rfl, hcontent⟩ := applyTier_of_validation existing request fresh h
  have hm := tierMarker_tiered existing request fresh
  have hne := tierLines_ne_nil existing request fresh
  have hfeed := not_mem_of_mem_tierLines existing request fresh
  have hcovered : coveredLine? (tierLines existing request fresh) =
      coveredLine? (lines (tierBase existing request fresh)) :=
    coveredLine?_placeDocumentation _ _
  cases hvalid : (validate (joinLines (tierLines existing request fresh))).isValid with
  | false =>
    obtain ⟨hcount, hsecond⟩ := written_of_invalid hm hne hfeed hvalid
    rw [← hcontent] at hcount hsecond
    have hwritten : written.isValid = false := by
      rw [← hvalid, Bool.eq_iff_iff, isValid_iff, isValid_iff, hcount]
    exact iff_of_true ⟨hwritten, hcount, iff_of_true hsecond rfl⟩ fun h ↦ Bool.noConfusion h.1
  | true =>
    have hcount := length_issues_of_valid hm hne hfeed hvalid
    have hsecond := second_line_of_valid hm hne hfeed hvalid
      (validate (joinLines (tierLines existing request fresh)))
    rw [← hcontent, hcovered] at hcount hsecond
    have hzero : (validate (joinLines (tierLines existing request fresh))).issues.length = 0 :=
      (isValid_iff _).mp hvalid
    have hleak : written.issues.length = 0 ↔ ∀ line,
        coveredLine? (lines (tierBase existing request fresh)) = some line →
          isLeak line = false := by
      rw [hcount]
      cases coveredLine? (lines (tierBase existing request fresh)) with
      | none => simp
      | some line => simp
    constructor
    · rintro ⟨-, hlength, hcomment⟩ ⟨-, line, hline, hbad | hbad⟩
      · rw [hleak.mp (hlength.trans hzero) line hline] at hbad
        cases hbad
      · cases hcomment.mp (hsecond.mpr ⟨line, hline, hbad⟩)
    · intro hnone
      have hlength : written.issues.length = 0 := hleak.mpr fun line hline ↦
        Bool.eq_false_iff.mpr fun hbad ↦ hnone ⟨rfl, line, hline, Or.inl hbad⟩
      refine ⟨(isValid_iff _).mpr hlength, hlength.trans hzero.symm,
        iff_of_false (fun hcomment ↦ ?_) Bool.noConfusion⟩
      obtain ⟨line, hline, hbad⟩ := hsecond.mp hcomment
      exact hnone ⟨rfl, line, hline, Or.inr hbad⟩

/-- A file with source syntax and a comment on an earlier check. -/
theorem recorded_report_describes_iff_invalid :
    let existing := "# Validation: 7 issue(s)\nimport a.B;\n"
    let request : TierRequest := ⟨.enhanced, .validation, true, "robot/login.resource"⟩
    let outcome := applyTier existing request none
    let r := validate (joinLines (tierLines existing request none))
    outcome.validation = some r ∧ r.isValid = false ∧ (validate outcome.content).isValid = false ∧
      (validate outcome.content).issues.length = r.issues.length ∧
      (lines outcome.content)[1]? = some (validationComment r) := by
  intro existing request outcome r
  have hbody : hasBodySection (joinLines (tierLines existing request none)) = false := by
    rw [hasBodySection, lines_joinLines (tierLines_ne_nil _ _ _) (not_mem_of_mem_tierLines _ _ _)]
    decide +kernel
  have hinvalid : r.isValid = false := by
    change (validate _).isValid = false
    rw [Report.isValid, validate, hbody]
    simp
  have hreport : outcome.validation = some r :=
    validation_applyTier existing request none rfl (by decide)
  obtain ⟨hvalid, hcount, hcomment⟩ :=
    (recorded_report_describes_iff existing request none hreport).mpr fun hbad ↦
      Bool.false_ne_true (hinvalid.symm.trans hbad.1)
  exact ⟨hreport, hinvalid, hvalid.trans hinvalid, hcount, hcomment.mpr hinvalid⟩

/-- Behind a comment on an earlier check a mark covers an import statement. -/
theorem mark_covers_source_syntax :
    let existing := "# Validation: 1 issue(s)\n\uFEFFimport a.B;\n*** Settings ***\n" ++
      "Library    Browser\n\n*** Keywords ***\nOpen\n    Click    id=a\n"
    let request : TierRequest := ⟨.enhanced, .validation, true, "robot/login.resource"⟩
    let outcome := applyTier existing request none
    ∃ r, outcome.validation = some r ∧ r.isValid = true ∧
      (validate outcome.content).isValid = false := by
  intro existing request outcome
  have hread : lines existing = ["# Validation: 1 issue(s)", "\uFEFFimport a.B;",
      "*** Settings ***", "Library    Browser", "", "*** Keywords ***", "Open",
      "    Click    id=a"] := by
    change lines (_ ++ _) = _
    rw [lines, String.toList_append, String.toList_ofList, String.toList_ofList]
    decide +kernel
  let checked := ["# Validation: 1 issue(s)", "\uFEFFimport a.B;", "*** Settings ***",
    "Documentation    Migrated Login",
    "...    Generated by robomigrate; mode=enhanced, tier=2.", "Library    Browser", "",
    "*** Keywords ***", "Open", "    Click    id=a"]
  have hreport := validation_applyTier existing request none rfl (by decide)
  have hlines : tierLines existing request none = checked := by
    have hbase : tierBase existing request none = existing := rfl
    rw [tierLines, hbase, tierTitle, existingTitle?, hread]
    decide +kernel
  have hinked : inkedLines checked = checked.tail.filter (· != "") := by decide +kernel
  have hvalid : (validate (joinLines checked)).isValid = true := by
    have hcount : issueCount (inkedLines checked) = 0 := by
      rw [hinked]
      decide +kernel
    rw [isValid_iff, length_issues_validate,
      lines_joinLines (List.cons_ne_nil _ _) (by decide +kernel), inkedLines_map_readBack, hcount]
  have hm := tierMarker_tiered existing request none
  have hwritten := length_issues_of_valid hm (List.cons_ne_nil _ _) (by decide +kernel) hvalid
  have hcovered : (coveredLine? checked).any isLeak = true := by decide +kernel
  have hcontent : outcome.content =
      joinLines ((tierMarker existing request none).render :: bodyLines true checked) := by
    rw [← hlines]
    exact (applyTier_of_validation existing request none hreport).2
  refine ⟨validate (joinLines (tierLines existing request none)), hreport, ?_, ?_⟩
  · exact (congrArg (fun content ↦ (validate (joinLines content)).isValid) hlines).trans hvalid
  · rw [← Bool.not_eq_true, isValid_iff, hcontent, hwritten, hcovered]
    decide

end SuiteMigration.Robot
