import SuiteMigration.Proofs.Robot.Reapplication

/-!
What becomes of the documentation when the header on the first line of a text is taken for some
other line. Below a header of another section nothing changes as long as settings follow. Below a
header of the settings the documentation goes elsewhere, unless the setting that is found is the
same; or else both settings have to be generated ones already.
-/

set_option autoImplicit false
set_option relaxedAutoImplicit false

namespace SuiteMigration.Robot

open SuiteMigration.Text

/-! ### How lines start -/

/-- The first character of a line that is not white space. -/
def ink? (line : String) : Option Char :=
  (Chars.trimStart line.toList).head?

theorem ink?_of_head? {line : String} {c : Char} (h : line.toList.head? = some c)
    (hc : isBlank c = false) : ink? line = some c := by
  obtain ⟨rest, hrest⟩ := List.head?_eq_some_iff.mp h
  rw [ink?, hrest, Chars.trimStart, List.dropWhile_cons_of_neg (Bool.eq_false_iff.mp hc)]
  rfl

theorem readBack_cases (line : String) :
    readBack line = line ∨ line.toList = (readBack line).toList ++ ['\r'] := by
  unfold readBack Chars.withoutReturn
  split
  next hreturn =>
    obtain ⟨front, hfront⟩ := List.getLast?_eq_some_iff.mp hreturn
    rw [hfront, List.dropLast_concat, String.toList_ofList]
    exact Or.inr rfl
  next => exact Or.inl String.ofList_toList

theorem ink?_readBack (line : String) : ink? (readBack line) = ink? line := by
  obtain heq | heq := readBack_cases line
  · rw [heq]
  · have hblank : isBlank '\r' = true := by decide
    rw [ink?, ink?, heq, Chars.trimStart, Chars.trimStart, List.dropWhile_append]
    split
    next hempty =>
      rw [List.isEmpty_iff.mp hempty, List.dropWhile_cons_of_pos hblank]
      rfl
    next hink => rw [List.head?_append_of_ne_nil _ (by simpa using hink)]

theorem sectionName?_readBack (line : String) :
    sectionName? (readBack line) = sectionName? line := by
  obtain heq | heq := readBack_cases line
  · rw [heq]
  · rw [sectionName?, sectionName?, heq, Chars.trim_concat_of_blank (by decide)]

theorem head?_of_trimEnd {cs : List Char} {c : Char} (h : (Chars.trimEnd cs).head? = some c) :
    cs.head? = some c := by
  obtain ⟨others, hothers⟩ := isPrefix_trimEnd cs
  rw [← hothers, List.head?_append, h]
  rfl

theorem ink?_of_isHeader {line : String} (h : isHeader line = true) : ink? line = some '*' := by
  unfold isHeader sectionName? at h
  split at h
  next rest heq =>
    exact head?_of_trimEnd (by rw [← Chars.trim, heq]; rfl)
  next => cases h

theorem head?_of_startsWith {s start : String} {c : Char} (h : startsWith s start = true)
    (hstart : start.toList.head? = some c) : s.toList.head? = some c := by
  cases hs : s.toList.head? with
  | none =>
    obtain ⟨others, hothers⟩ := List.head?_eq_some_iff.mp hstart
    rw [startsWith, Chars.startsWith, List.head?_eq_none_iff.mp hs, hothers] at h
    cases h
  | some d =>
    by_contra hne
    rw [startsWith_eq_false hs hstart fun heq ↦ hne (congrArg some heq)] at h
    cases h

theorem ink?_of_isValidationComment {line : String} (h : isValidationComment line = true) :
    ink? line = some '#' :=
  ink?_of_head? (head?_of_startsWith h (by decide)) (by decide)

theorem ink?_of_isContinuation {line : String} (h : isContinuation line = true) :
    ink? line = some '.' := by
  have hhead := head?_of_startsWith h (c := '.') (by decide)
  rwa [trimStart, String.toList_ofList] at hhead

/-- The first part of a text, unless it is empty, starts where the text does. -/
theorem head?_of_splitAtOccurrences {recognise : Recogniser} {cs part : List Char}
    {others : List (List Char)} (h : splitAtOccurrences recognise cs = part :: others)
    (hne : part ≠ []) : part.head? = cs.head? := by
  cases cs with
  | nil =>
    obtain ⟨rfl, _⟩ := List.cons.inj (show [[]] = part :: others from h)
    rfl
  | cons c rest =>
    rw [splitAtOccurrences, pieces, piecesFrom] at h
    split at h
    · exact absurd (List.cons.inj h).1.symm hne
    · rw [splitPieces] at h
      split at h <;> rw [← (List.cons.inj h).1] <;> rfl

theorem eq_of_asciiLowerChar {c : Char} (h : asciiLowerChar c = 'd') : c = 'd' ∨ c = 'D' := by
  by_cases hupper : 'A' ≤ c ∧ c ≤ 'Z'
  · have hsmall : ∀ n < 91, asciiLowerChar (Char.ofNat n) = 'd' →
        Char.ofNat n = 'd' ∨ Char.ofNat n = 'D' := by decide
    have hlt : c.toNat < 91 := Nat.lt_succ_of_le hupper.2
    simpa only [Char.ofNat_toNat] using hsmall c.toNat hlt (by rwa [Char.ofNat_toNat])
  · rw [asciiLowerChar, if_neg hupper] at h
    exact Or.inl h

theorem ink?_of_isDocumentationRow {line : String} (h : isDocumentationRow line = true) :
    ink? line = some 'd' ∨ ink? line = some 'D' := by
  unfold isDocumentationRow splitCells at h
  dsimp only at h
  split at h
  · exact absurd h (by decide)
  · obtain ⟨part, others, hparts⟩ : ∃ part others,
        splitAtOccurrences cellSeparator (Chars.trimEnd line.toList) = part :: others := by
      cases hparts : splitAtOccurrences cellSeparator (Chars.trimEnd line.toList) with
      | nil =>
        rw [hparts] at h
        exact absurd h (by decide)
      | cons part others => exact ⟨part, others, rfl⟩
    rw [hparts, List.map_cons, List.headD_cons, equalIgnoringAsciiCase, beq_iff_eq, toAsciiLower,
      String.toList_ofList, ← String.toList_inj, String.toList_ofList] at h
    obtain ⟨c, rest, rfl⟩ : ∃ c rest, part = c :: rest := by
      refine List.exists_cons_of_ne_nil ?_
      rintro rfl
      cases h
    have hlower : asciiLowerChar c = 'd' := (List.cons.inj h).1
    have hhead : line.toList.head? = some c :=
      head?_of_trimEnd (head?_of_splitAtOccurrences hparts (List.cons_ne_nil _ _)).symm
    obtain rfl | rfl := eq_of_asciiLowerChar hlower
    · exact Or.inl (ink?_of_head? hhead (by decide))
    · exact Or.inr (ink?_of_head? hhead (by decide))

/-! ### Lines as they are written -/

/-- A line as a tier writes it: read back from the text with the documentation, and, if the tier
checks, from the text with the comment on the check, which holds no other comment of that kind. -/
def writtenLine? (checks : Bool) (line : String) : Option String :=
  if !checks then some (readBack line)
  else if isValidationComment (readBack line) then none
  else some (readBack (readBack line))

def written (checks : Bool) (content : List String) : List String :=
  content.filterMap (writtenLine? checks)

@[simp] theorem written_nil (checks : Bool) : written checks [] = [] := rfl

@[simp] theorem written_append (checks : Bool) (first second : List String) :
    written checks (first ++ second) = written checks first ++ written checks second :=
  List.filterMap_append

theorem written_cons {checks : Bool} {line other : String}
    (h : writtenLine? checks line = some other) (rest : List String) :
    written checks (line :: rest) = other :: written checks rest :=
  List.filterMap_cons_some h

theorem written_false (content : List String) : written false content = content.map readBack :=
  congrFun List.filterMap_eq_map' content

theorem written_true (content : List String) :
    written true content = ((content.map readBack).filter fun line ↦
      !isValidationComment line).map readBack := by
  induction content with
  | nil => rfl
  | cons line rest ih =>
    rw [List.map_cons, List.filter_cons]
    cases hcomment : isValidationComment (readBack line) with
    | true =>
      have hnone : writtenLine? true line = none := by simp [writtenLine?, hcomment]
      rw [written, List.filterMap_cons_none hnone]
      exact ih
    | false =>
      have hsome : writtenLine? true line = some (readBack (readBack line)) := by
        simp [writtenLine?, hcomment]
      rw [written_cons hsome, ih]
      rfl

/-- Only comments on checks are left out, and how a line starts stays. -/
theorem exists_writtenLine (checks : Bool) {line : String} {c : Char} (h : ink? line = some c)
    (hc : c ≠ '#') : ∃ other, writtenLine? checks line = some other ∧ ink? other = some c := by
  have hcomment : isValidationComment (readBack line) = false := by
    by_contra hcomment
    have hhash := ink?_of_isValidationComment (Bool.not_eq_false _ ▸ hcomment)
    rw [ink?_readBack, h] at hhash
    exact hc (Option.some.inj hhash)
  cases checks with
  | false => exact ⟨_, rfl, (ink?_readBack line).trans h⟩
  | true =>
    refine ⟨readBack (readBack line), by simp [writtenLine?, hcomment], ?_⟩
    rw [ink?_readBack, ink?_readBack, h]

theorem writtenLine?_eq_self (checks : Bool) {line : String} (h : Chars.IsLine line.toList)
    (hcomment : isValidationComment line = false) : writtenLine? checks line = some line := by
  unfold writtenLine?
  rw [readBack_eq_self h, readBack_eq_self h, hcomment]
  cases checks <;> rfl

theorem written_eq_self (checks : Bool) {content : List String}
    (h : ∀ line ∈ content, Chars.IsLine line.toList ∧ isValidationComment line = false) :
    written checks content = content := by
  induction content with
  | nil => rfl
  | cons line rest ih =>
    obtain ⟨hline, hrest⟩ := List.forall_mem_cons.mp h
    rw [written_cons (writtenLine?_eq_self checks hline.1 hline.2), ih hrest]

/-- A header is written as a header of the same section. -/
theorem exists_writtenLine_of_isHeader (checks : Bool) {line : String}
    (h : isHeader line = true) :
    ∃ other, writtenLine? checks line = some other ∧ sectionName? other = sectionName? line := by
  obtain ⟨other, hother, _⟩ := exists_writtenLine checks (ink?_of_isHeader h) (by decide)
  refine ⟨other, hother, ?_⟩
  unfold writtenLine? at hother
  split at hother
  · rw [← Option.some.inj hother, sectionName?_readBack]
  · split at hother
    · cases hother
    · rw [← Option.some.inj hother, sectionName?_readBack, sectionName?_readBack]

/-! ### Empty ends -/

theorem withoutEmptyEnd_append (first : List String) {second : List String} (h : second ≠ []) :
    withoutEmptyEnd (first ++ second) = first ++ withoutEmptyEnd second := by
  unfold withoutEmptyEnd
  rw [List.getLast?_append_of_ne_nil _ h, List.dropLast_append_of_ne_nil h]
  split <;> rfl

theorem withoutEmptyEnd_eq_self {content : List String} (h : content.getLast? ≠ some "") :
    withoutEmptyEnd content = content :=
  if_neg h

/-- What stands above the same lines is the same, unless the first one ends in an empty line and is
longer. -/
theorem eq_of_withoutEmptyEnd_append {first second : List String} (rest : List String)
    (hsecond : second.getLast? ≠ some "")
    (hfirst : first.getLast? ≠ some "" ∨ first.length ≤ second.length)
    (h : withoutEmptyEnd (first ++ rest) = withoutEmptyEnd (second ++ rest)) : first = second := by
  by_cases hrest : rest = []
  · rw [hrest, List.append_nil, List.append_nil, withoutEmptyEnd_eq_self hsecond] at h
    obtain ⟨_, heq⟩ | heq := withoutEmptyEnd_cases first
    · rw [← heq, h]
    · obtain hends | hlength := hfirst
      · rw [heq, List.getLast?_concat] at hends
        exact absurd rfl hends
      · rw [heq, h, List.length_append, List.length_singleton] at hlength
        omega
  · rw [withoutEmptyEnd_append _ hrest, withoutEmptyEnd_append _ hrest] at h
    exact List.append_cancel_right h

theorem length_withoutEmptyEnd (content : List String) :
    (withoutEmptyEnd content).length ≤ content.length ∧
      content.length ≤ (withoutEmptyEnd content).length + 1 := by
  refine ⟨(withoutEmptyEnd_sublist content).length_le, ?_⟩
  obtain ⟨_, heq⟩ | heq := withoutEmptyEnd_cases content
  · rw [heq]
    omega
  · rw [← List.length_singleton (a := ""), ← List.length_append, ← heq]

/-! ### Where the documentation goes without the first header -/

/-- A documentation setting is its row and the rows that continue it. -/
theorem block_of_documentationSpanFrom {inSettings : Bool} {content : List String}
    {span : DocumentationSpan} (h : documentationSpanFrom inSettings content = some span) :
    ∃ first more, span.block = first :: more ∧ isDocumentationRow first = true ∧
      ∀ line ∈ more, isContinuation line = true := by
  induction content generalizing inSettings span with
  | nil => cases h
  | cons line rest ih =>
    unfold documentationSpanFrom at h
    dsimp only at h
    split at h
    next =>
      obtain ⟨found, hfound, rfl⟩ := Option.map_eq_some_iff.mp h
      have hblock := ih hfound
      exact hblock
    next =>
      split at h
      next hrow =>
        obtain rfl := Option.some.inj h
        rw [Bool.and_eq_true] at hrow
        exact ⟨line, _, rfl, hrow.2, fun _ hmem ↦ List.mem_takeWhile_imp hmem⟩
      next =>
        obtain ⟨found, hfound, rfl⟩ := Option.map_eq_some_iff.mp h
        have hblock := ih hfound
        exact hblock

theorem written_block (checks : Bool) {inSettings : Bool} {content : List String}
    {span : DocumentationSpan} (h : documentationSpanFrom inSettings content = some span) :
    ∃ first more, written checks span.block = first :: more ∧
      (ink? first = some 'd' ∨ ink? first = some 'D') ∧ ∀ line ∈ more, ink? line = some '.' := by
  obtain ⟨first, more, hblock, hrow, hmore⟩ := block_of_documentationSpanFrom h
  have hstart : ∃ other, writtenLine? checks first = some other ∧
      (ink? other = some 'd' ∨ ink? other = some 'D') := by
    obtain hink | hink := ink?_of_isDocumentationRow hrow
    · obtain ⟨other, hother, hsame⟩ := exists_writtenLine checks hink (by decide)
      exact ⟨other, hother, Or.inl hsame⟩
    · obtain ⟨other, hother, hsame⟩ := exists_writtenLine checks hink (by decide)
      exact ⟨other, hother, Or.inr hsame⟩
  obtain ⟨other, hother, hink⟩ := hstart
  rw [hblock, written_cons hother]
  refine ⟨other, _, rfl, hink, fun line hline ↦ ?_⟩
  obtain ⟨source, hsource, hline⟩ := List.mem_filterMap.mp hline
  obtain ⟨same, hsame, hdot⟩ :=
    exists_writtenLine checks (ink?_of_isContinuation (hmore source hsource)) (by decide)
  rw [hsame] at hline
  rwa [← Option.some.inj hline]

theorem documentationSpan?_append {front : List String}
    (h : ∀ line ∈ front, isHeader line = false) (rest : List String) :
    documentationSpan? (front ++ rest) = (documentationSpan? rest).map fun span ↦
      { span with before := front ++ span.before } := by
  induction front with
  | nil => exact Option.map_id'.symm
  | cons line more ih =>
    obtain ⟨hline, hmore⟩ := List.forall_mem_cons.mp h
    rw [List.cons_append, documentationSpan?_cons hline, ih hmore, Option.map_map]
    rfl

theorem placeDocumentation_append {front : List String}
    (h : ∀ line ∈ front, isHeader line = false) (block rest : List String) :
    placeDocumentation block (front ++ rest) = front ++ placeDocumentation block rest := by
  induction front with
  | nil => rfl
  | cons line more ih =>
    obtain ⟨hline, hmore⟩ := List.forall_mem_cons.mp h
    rw [List.cons_append, placeDocumentation_cons hline, ih hmore]
    rfl

theorem isHeader_eq_false_of_ink? {line : String} {c : Char} (h : ink? line = some c)
    (hc : c ≠ '*') : isHeader line = false := by
  by_contra hheader
  rw [ink?_of_isHeader (Bool.not_eq_false _ ▸ hheader)] at h
  exact hc (Option.some.inj h).symm

/-- Lines that start inside the settings have the documentation setting that they would have
outside, or one above the first header. -/
theorem documentationSpanFrom_true_cases (content : List String) :
    documentationSpanFrom true content = documentationSpan? content ∨
      ∃ span, documentationSpanFrom true content = some span ∧
        ∀ line ∈ span.before ++ span.block, isHeader line = false := by
  induction content with
  | nil => exact Or.inl rfl
  | cons line rest ih =>
    cases hname : sectionName? line with
    | some name =>
      refine Or.inl ?_
      rw [documentationSpan?, documentationSpanFrom, documentationSpanFrom, hname]
    | none =>
      have hline : isHeader line = false := by rw [isHeader, hname]; rfl
      cases hrow : isDocumentationRow line with
      | true =>
        refine Or.inr ⟨⟨[], line :: rest.takeWhile isContinuation, rest.dropWhile isContinuation⟩,
          ?_, List.forall_mem_cons.mpr ⟨hline, fun other hother ↦ ?_⟩⟩
        · rw [documentationSpanFrom, hname, hrow]
          rfl
        · exact isHeader_eq_false_of_ink?
            (ink?_of_isContinuation (List.mem_takeWhile_imp hother)) (by decide)
      | false =>
        have hpush (inSettings : Bool) : documentationSpanFrom inSettings (line :: rest) =
            (documentationSpanFrom inSettings rest).map fun span ↦
              { span with before := line :: span.before } := by
          rw [documentationSpanFrom, hname, hrow, Bool.and_false]
          rfl
        obtain hsame | ⟨span, hspan, hheaders⟩ := ih
        · refine Or.inl ?_
          rw [documentationSpan?, hpush, hpush, hsame]
          rfl
        · refine Or.inr ⟨{ span with before := line :: span.before }, ?_,
            List.forall_mem_cons.mpr ⟨hline, hheaders⟩⟩
          rw [hpush, hspan]
          rfl

section Above

variable {content : List String} {span : DocumentationSpan}
  (hspan : documentationSpanFrom true content = some span)
  (hheaders : ∀ line ∈ span.before ++ span.block, isHeader line = false)

include hspan hheaders

/-- What is found outside the settings stands below a setting above the first header. -/
theorem documentationSpan?_of_above :
    documentationSpan? content = (documentationSpan? span.after).map fun inner ↦
      { inner with before := span.before ++ span.block ++ inner.before } := by
  obtain ⟨hcontent, _⟩ := documentationSpanFrom_eq_some hspan
  rw [hcontent, documentationSpan?_append hheaders]

theorem ne_of_above {found : DocumentationSpan} (h : documentationSpan? content = some found) :
    span ≠ found := by
  rw [documentationSpan?_of_above hspan hheaders] at h
  obtain ⟨inner, _, rfl⟩ := Option.map_eq_some_iff.mp h
  obtain ⟨first, more, hblock, _⟩ := block_of_documentationSpanFrom hspan
  intro hsame
  have hlength := congrArg (List.length ∘ DocumentationSpan.before) hsame
  simp only [Function.comp_apply, hblock, List.length_append, List.length_cons] at hlength
  omega

end Above

/-- Where documentation goes below a header of the settings. -/
def placeBelowSettings (block content : List String) : List String :=
  match documentationSpanFrom true content with
  | some span => span.before ++ block ++ span.after
  | none => block ++ content

theorem documentationSpan?_settings_cons {header : String} (h : isSettingsHeader header = true)
    (rest : List String) :
    documentationSpan? (header :: rest) = (documentationSpanFrom true rest).map
      fun span ↦ { span with before := header :: span.before } := by
  have hname : sectionName? header = some "setting" := eq_of_beq h
  rw [documentationSpan?, documentationSpanFrom, hname]
  rfl

theorem placeDocumentation_settings_cons {header : String} (h : isSettingsHeader header = true)
    (block rest : List String) :
    placeDocumentation block (header :: rest) = header :: placeBelowSettings block rest := by
  have hname : sectionName? header = some "setting" := eq_of_beq h
  unfold placeDocumentation placeBelowSettings
  rw [documentationSpan?_settings_cons h]
  cases documentationSpanFrom true rest with
  | some span => rfl
  | none => simp [hname]

theorem documentationSpan?_cons_of_not_settings {line : String}
    (h : isSettingsHeader line = false) (rest : List String) :
    documentationSpan? (line :: rest) =
      (documentationSpan? rest).map fun span ↦ { span with before := line :: span.before } := by
  cases hname : sectionName? line with
  | none => exact documentationSpan?_cons (by rw [isHeader, hname]; rfl) rest
  | some name =>
    have hother : (name == "setting") = false := by
      rw [isSettingsHeader, hname] at h
      exact h
    rw [documentationSpan?, documentationSpanFrom, hname]
    dsimp only
    rw [hother]
    rfl

/-- Below a header of another section documentation goes where it goes without that header, as long
as there are settings. -/
theorem placeDocumentation_header_cons {header : String} {rest : List String}
    (h : isSettingsHeader header = false) (hrest : rest.any isSettingsHeader = true)
    (block : List String) :
    placeDocumentation block (header :: rest) = header :: placeDocumentation block rest := by
  have hname : (sectionName? header == some "setting") = false := h
  have hany : (rest.any fun line ↦ sectionName? line == some "setting") = true := hrest
  unfold placeDocumentation
  rw [documentationSpan?_cons_of_not_settings h]
  cases documentationSpan? rest with
  | some span => rfl
  | none =>
    simp only [Option.map_none, List.any_cons, hname, hany, Bool.false_or, if_true,
      List.takeWhile_cons, List.dropWhile_cons, Bool.not_false]
    rfl

theorem isSettingsHeader_eq_false {line : String} (h : isHeader line = false) :
    isSettingsHeader line = false := by
  by_contra hsettings
  rw [isHeader_of_isSettingsHeader (Bool.not_eq_false _ ▸ hsettings)] at h
  cases h

/-- Without settings a new section is put above a header on the first line. -/
theorem placeDocumentation_header_cons_of_none {header : String} {rest : List String}
    (h : isHeader header = true) (hnone : (header :: rest).any isSettingsHeader = false)
    (block : List String) :
    ∃ more, placeDocumentation block (header :: rest) = "*** Settings ***" :: more := by
  have hspan : documentationSpan? (header :: rest) = none := by
    by_contra hsome
    obtain ⟨span, hspan⟩ := Option.ne_none_iff_exists'.mp hsome
    obtain ⟨hcontent, line, hmem, hsettings⟩ := documentationSpan?_eq_some hspan
    refine absurd (List.any_eq_true.mpr ⟨line, ?_, hsettings⟩) (Bool.eq_false_iff.mp hnone)
    rw [hcontent, List.append_assoc]
    exact List.mem_append_left _ hmem
  have hany : ((header :: rest).any fun line ↦ sectionName? line == some "setting") = false := hnone
  rw [placeDocumentation, hspan]
  dsimp only
  rw [hany, if_neg Bool.false_ne_true, List.takeWhile_cons_of_neg (by rw [h]; decide)]
  exact ⟨_, rfl⟩

/-- Two lists that can be swapped hold the same members, unless the first one is empty. -/
theorem mem_of_append_comm {α : Type} {first second : List α} (hne : first ≠ [])
    (h : first ++ second = second ++ first) : ∀ a ∈ second, a ∈ first := by
  have hsecond : second <+: first ++ second := ⟨first, h.symm⟩
  have hfirst : first <+: first ++ second := List.prefix_append _ _
  by_cases hlength : second.length ≤ first.length
  · have hprefix := List.prefix_of_prefix_length_le hsecond hfirst hlength
    exact fun a ha ↦ hprefix.subset ha
  · obtain ⟨shorter, hshorter⟩ := List.prefix_of_prefix_length_le hfirst hsecond (by omega)
    have hless : shorter.length < second.length := by
      have hpos := List.length_pos_iff.mpr hne
      rw [← hshorter, List.length_append]
      omega
    rw [← hshorter, List.append_assoc, List.append_cancel_left_eq] at h
    have hrest := mem_of_append_comm hne h
    intro a ha
    rw [← hshorter] at ha
    exact (List.mem_append.mp ha).elim id (hrest a)
termination_by second.length

/-- Two rows in place of a block, and a block in place of two other rows: both blocks are these
rows, because of the second block only the first line can be like the first row and only the others
like the second one. -/
theorem swapped_blocks_iff {first last title note start : String}
    {block between more : List String} (hstart : start ≠ note)
    (hmore : ∀ line ∈ more, line ≠ title) :
    block ++ between ++ [title, note] = [first, last] ++ between ++ (start :: more) ↔
      block = [first, last] ∧ start :: more = [title, note] := by
  refine ⟨fun h ↦ ?_, fun ⟨hblock, hother⟩ ↦ by rw [hblock, hother]⟩
  obtain rfl | ⟨front, lowest, rfl⟩ := List.eq_nil_or_concat more
  · have hlast := congrArg List.getLast? h
    simp only [List.append_assoc, List.getLast?_append, List.getLast?_cons_cons,
      List.getLast?_singleton, Option.some_or, Option.some.injEq] at hlast
    exact absurd hlast.symm hstart
  · rw [List.concat_eq_append] at h hmore ⊢
    obtain rfl | ⟨higher, above, rfl⟩ := List.eq_nil_or_concat front
    · obtain ⟨hblock, hrows⟩ := List.append_inj' h rfl
      exact ⟨List.append_cancel_right hblock, hrows.symm⟩
    · rw [List.concat_eq_append] at h hmore
      have hends : [first, last] ++ between ++ (start :: (higher ++ [above] ++ [lowest])) =
          [first, last] ++ between ++ (start :: higher) ++ [above, lowest] := by simp
      rw [hends] at h
      obtain ⟨_, hrows⟩ := List.append_inj' h rfl
      exact absurd (List.cons.inj hrows).1.symm (hmore above (by simp))

theorem ink?_row {start : String} {c : Char} (h : start.toList.head? = some c)
    (hc : isBlank c = false) (text : String) : ink? (row [start, text]) = some c := by
  refine ink?_of_head? ?_ hc
  rw [toList_row, List.append_assoc, List.head?_append, h]
  rfl

theorem ne_empty_of_ink? {line : String} {c : Char} (h : ink? line = some c) : line ≠ "" := by
  rintro rfl
  cases h

/-- Documentation does not end in an empty line. -/
theorem getLast?_append_documentationBlock (front : List String) (title note : String) :
    (front ++ documentationBlock [title, note]).getLast? ≠ some "" := by
  have hne : documentationBlock [title, note] ≠ [] := List.cons_ne_nil _ _
  rw [List.getLast?_append_of_ne_nil _ hne]
  exact fun h ↦ row_ne_empty _ _ (Option.some.inj h)

theorem length_documentationBlock (title note : String) :
    (documentationBlock [title, note]).length = 2 := rfl

theorem written_documentationBlock (checks : Bool) {title note : String}
    (htitle : Chars.IsLine title.toList) (hnote : Chars.IsLine note.toList) :
    written checks (documentationBlock [title, note]) = documentationBlock [title, note] :=
  written_eq_self checks fun line hline ↦ ⟨isLine_documentationBlock htitle hnote line hline,
    isValidationComment_documentationBlock title note line hline⟩

/-- Without settings the documentation brings two more lines with it. -/
theorem length_written_openSettings (checks : Bool) {title note : String}
    (htitle : Chars.IsLine title.toList) (hnote : Chars.IsLine note.toList) {content : List String}
    (h : content.any isSettingsHeader = false) :
    (written checks (placeDocumentation (documentationBlock [title, note]) content)).length =
      (written checks content).length + 4 := by
  obtain ⟨before, after, hplace, haround, _⟩ := placeDocumentation_eq content
  rw [aroundDocumentation, h, if_neg Bool.false_ne_true] at haround
  have hnew : written checks ["*** Settings ***", ""] = ["*** Settings ***", ""] :=
    written_eq_self checks (by decide)
  have hcontent : written checks content =
      written checks (content.takeWhile fun line ↦ !isHeader line) ++
        written checks (content.dropWhile fun line ↦ !isHeader line) := by
    rw [← written_append, List.takeWhile_append_dropWhile]
  have hopen : openSettings content = content.takeWhile (fun line ↦ !isHeader line) ++
      (["*** Settings ***", ""] ++ content.dropWhile fun line ↦ !isHeader line) := rfl
  have hlength : (written checks before).length + (written checks after).length =
      (written checks content).length + 2 := by
    rw [← List.length_append, ← written_append, haround, hopen, written_append, written_append,
      hnew, hcontent]
    simp only [List.length_append, List.length_cons, List.length_nil]
    omega
  rw [hplace, written_append, written_append, written_documentationBlock checks htitle hnote,
    List.length_append, List.length_append, length_documentationBlock]
  omega

/-- With settings but without a documentation setting the documentation comes between lines that
are all of the content, and there is a header above it. -/
theorem placeDocumentation_of_none {content : List String} (h : documentationSpan? content = none)
    (hany : content.any isSettingsHeader = true) :
    ∃ before after, content = before ++ after ∧
      (∀ block, placeDocumentation block content = before ++ block ++ after) ∧
      ∃ line ∈ before, isHeader line = true := by
  obtain ⟨before, after, hplace, haround, hheader, _⟩ := placeDocumentation_eq content
  rw [aroundDocumentation, if_pos hany, withoutDocumentation, h] at haround
  exact ⟨before, after, haround.symm, hplace, hheader⟩

section Rows

variable (checks : Bool) {own other note : String} (hown : Chars.IsLine own.toList)
  (hother : Chars.IsLine other.toList) (hnote : Chars.IsLine note.toList)

include hown hnote

/-- Documentation for lines that have none, whether or not they start inside the settings, does not
come to the same place. -/
theorem placed_ne_of_none {content : List String} (h : documentationSpan? content = none) :
    withoutEmptyEnd (written checks (placeDocumentation (documentationBlock [own, note])
        content)) ≠
      withoutEmptyEnd (written checks (documentationBlock [own, note] ++ content)) := by
  have hblock := written_documentationBlock checks hown hnote
  intro heq
  cases hany : content.any isSettingsHeader with
  | false =>
    have hlonger := length_written_openSettings checks hown hnote hany
    have hplaced := length_withoutEmptyEnd
      (written checks (placeDocumentation (documentationBlock [own, note]) content))
    have hfirst := length_withoutEmptyEnd
      (written checks (documentationBlock [own, note] ++ content))
    rw [heq] at hplaced
    rw [written_append, hblock, List.length_append, length_documentationBlock] at hfirst
    rw [written_append, hblock] at hplaced
    omega
  | true =>
    obtain ⟨before, after, hcontent, hplace, header, hmem, hheader⟩ :=
      placeDocumentation_of_none h hany
    rw [hplace, hcontent, written_append, written_append, written_append, written_append, hblock,
      ← List.append_assoc] at heq
    have hswap := eq_of_withoutEmptyEnd_append _ (getLast?_append_documentationBlock _ _ _)
      (Or.inr (by simp [Nat.add_comm])) heq.symm
    obtain ⟨same, hsame, hstar⟩ := exists_writtenLine checks (ink?_of_isHeader hheader) (by decide)
    have hrow : same ∈ documentationBlock [own, note] :=
      mem_of_append_comm (List.cons_ne_nil _ _) hswap same (List.mem_filterMap.mpr
        ⟨header, hmem, hsame⟩)
    obtain rfl | hrow := List.mem_cons.mp hrow
    · rw [ink?_row (c := 'D') (by decide) (by decide)] at hstar
      exact absurd hstar (by decide)
    · rw [List.mem_singleton.mp hrow, ink?_row (c := '.') (by decide) (by decide)] at hstar
      exact absurd hstar (by decide)

include hother

/-- A setting above the first header is not found without the header of the settings. If there is
no other one, new documentation comes to a place of its own. -/
theorem placed_ne_of_above {block after : List String} (hblock : written checks block ≠ [])
    (h : documentationSpan? after = none) :
    withoutEmptyEnd (written checks
        (block ++ placeDocumentation (documentationBlock [other, note]) after)) ≠
      withoutEmptyEnd (written checks (documentationBlock [own, note] ++ after)) := by
  have hfirst := written_documentationBlock checks hown hnote
  have hsecond := written_documentationBlock checks hother hnote
  have hpos := List.length_pos_iff.mpr hblock
  intro heq
  cases hany : after.any isSettingsHeader with
  | false =>
    have hlonger := length_written_openSettings checks hother hnote hany
    have hplaced := (length_withoutEmptyEnd (written checks (block ++
      placeDocumentation (documentationBlock [other, note]) after))).2
    have hkept := (length_withoutEmptyEnd
      (written checks (documentationBlock [own, note] ++ after))).1
    rw [heq, written_append checks block, List.length_append, hlonger] at hplaced
    rw [written_append, hfirst, List.length_append, length_documentationBlock] at hkept
    rw [written_append, hfirst] at hplaced
    omega
  | true =>
    obtain ⟨above, below, hafter, hplaced, _⟩ := placeDocumentation_of_none h hany
    rw [hplaced, hafter] at heq
    simp only [written_append, hfirst, hsecond] at heq
    have hsame : documentationBlock [own, note] ++ written checks above =
        written checks block ++ written checks above ++ documentationBlock [other, note] := by
      refine eq_of_withoutEmptyEnd_append (written checks below)
        (getLast?_append_documentationBlock _ _ _) (Or.inr ?_) ?_
      · simp only [List.length_append, length_documentationBlock]
        omega
      · simpa only [List.append_assoc] using heq.symm
    have hlength := congrArg List.length hsame
    simp only [List.length_append, length_documentationBlock] at hlength
    omega

/-- If there is another setting, both have to be generated ones already. -/
theorem placed_eq_iff_of_above {block after : List String} {found : DocumentationSpan}
    (h : documentationSpan? after = some found) :
    withoutEmptyEnd (written checks
        (block ++ placeDocumentation (documentationBlock [other, note]) after)) =
      withoutEmptyEnd (written checks (documentationBlock [own, note] ++ after)) ↔
      written checks block = documentationBlock [own, note] ∧
        written checks found.block = documentationBlock [other, note] := by
  have hfirst := written_documentationBlock checks hown hnote
  have hsecond := written_documentationBlock checks hother hnote
  obtain ⟨hafter, _⟩ := documentationSpan?_eq_some h
  obtain ⟨start, more, hblock, hstart, hmore⟩ := written_block checks h
  have hplaced : placeDocumentation (documentationBlock [other, note]) after =
      found.before ++ documentationBlock [other, note] ++ found.after := by
    rw [placeDocumentation, h]
  have hink : ∀ line ∈ start :: more, line ≠ "" :=
    List.forall_mem_cons.mpr ⟨hstart.elim ne_empty_of_ink? ne_empty_of_ink?,
      fun line hline ↦ ne_empty_of_ink? (hmore line hline)⟩
  have hends : (documentationBlock [own, note] ++ written checks found.before ++
      (start :: more)).getLast? ≠ some "" := by
    rw [List.getLast?_append_of_ne_nil _ (List.cons_ne_nil _ _)]
    exact fun hlast ↦ hink _ (List.mem_of_getLast? hlast) rfl
  have hrow : start ≠ row ["...", note] := by
    rintro rfl
    rw [ink?_row (c := '.') (by decide) (by decide)] at hstart
    exact absurd hstart (by decide)
  have hdifferent : ∀ line ∈ more, line ≠ row ["Documentation", other] := by
    rintro _ hline rfl
    have hdot := hmore _ hline
    rw [ink?_row (c := 'D') (by decide) (by decide)] at hdot
    exact absurd hdot (by decide)
  have hswap : written checks block ++ written checks found.before ++
        documentationBlock [other, note] =
      documentationBlock [own, note] ++ written checks found.before ++ (start :: more) ↔
      written checks block = documentationBlock [own, note] ∧
        start :: more = documentationBlock [other, note] := swapped_blocks_iff hrow hdifferent
  rw [hblock, ← hswap, hplaced, hafter]
  simp only [written_append, hfirst, hsecond, hblock]
  constructor
  · intro heq
    refine eq_of_withoutEmptyEnd_append (written checks found.after)
      hends (Or.inl (getLast?_append_documentationBlock _ _ _)) ?_
    simpa only [List.append_assoc] using heq
  · intro heq
    have hwhole := congrArg (fun list ↦ withoutEmptyEnd (list ++ written checks found.after)) heq
    simpa only [List.append_assoc] using hwhole

theorem placed_above_iff {content : List String} {span : DocumentationSpan}
    (hspan : documentationSpanFrom true content = some span)
    (hheaders : ∀ line ∈ span.before ++ span.block, isHeader line = false) :
    withoutEmptyEnd (written checks
        (placeDocumentation (documentationBlock [other, note]) content)) =
      withoutEmptyEnd (written checks
        (placeBelowSettings (documentationBlock [own, note]) content)) ↔
      ∃ found, documentationSpan? content = some found ∧
        written checks span.block = documentationBlock [own, note] ∧
        written checks found.block = documentationBlock [other, note] := by
  obtain ⟨hcontent, _⟩ := documentationSpanFrom_eq_some hspan
  obtain ⟨first, more, hrow, _⟩ := written_block checks hspan
  have hblock : written checks span.block ≠ [] := by
    rw [hrow]
    exact List.cons_ne_nil _ _
  have hplace : placeDocumentation (documentationBlock [other, note]) content =
      span.before ++ (span.block ++
        placeDocumentation (documentationBlock [other, note]) span.after) := by
    rw [hcontent, placeDocumentation_append hheaders, List.append_assoc]
  have hbelow : placeBelowSettings (documentationBlock [own, note]) content =
      span.before ++ (documentationBlock [own, note] ++ span.after) := by
    rw [placeBelowSettings, hspan]
    exact List.append_assoc _ _ _
  have hleft : written checks (span.block ++
      placeDocumentation (documentationBlock [other, note]) span.after) ≠ [] := by
    rw [written_append]
    exact List.append_ne_nil_of_left_ne_nil hblock _
  have hright : written checks (documentationBlock [own, note] ++ span.after) ≠ [] := by
    rw [written_append, written_documentationBlock checks hown hnote]
    exact List.cons_ne_nil _ _
  rw [hplace, hbelow, written_append, written_append checks span.before,
    withoutEmptyEnd_append _ hleft, withoutEmptyEnd_append _ hright, List.append_cancel_left_eq,
    documentationSpan?_of_above hspan hheaders]
  cases hinner : documentationSpan? span.after with
  | none =>
    refine iff_of_false (placed_ne_of_above checks hown hother hnote hblock hinner) ?_
    rintro ⟨_, h, _⟩
    cases h
  | some inner =>
    rw [placed_eq_iff_of_above checks hown hother hnote hinner]
    exact ⟨fun hgenerated ↦ ⟨_, rfl, hgenerated⟩, by rintro ⟨_, ⟨⟩, hgenerated⟩; exact hgenerated⟩

/-- Documentation that is placed without the header of the settings comes to the place that it has
below the header, or else two settings are generated ones already. -/
theorem placed_same_iff {content : List String}
    (htitle : documentationSpanFrom true content = documentationSpan? content → own = other) :
    withoutEmptyEnd (written checks
        (placeDocumentation (documentationBlock [other, note]) content)) =
      withoutEmptyEnd (written checks
        (placeBelowSettings (documentationBlock [own, note]) content)) ↔
      ∃ span found, documentationSpanFrom true content = some span ∧
        documentationSpan? content = some found ∧
        (span = found ∨ written checks span.block = documentationBlock [own, note] ∧
          written checks found.block = documentationBlock [other, note]) := by
  obtain hsame | ⟨span, hspan, hheaders⟩ := documentationSpanFrom_true_cases content
  · obtain rfl := htitle hsame
    unfold placeBelowSettings
    rw [hsame]
    cases hfound : documentationSpan? content with
    | some found =>
      have hplace : placeDocumentation (documentationBlock [own, note]) content =
          found.before ++ documentationBlock [own, note] ++ found.after := by
        rw [placeDocumentation, hfound]
      rw [hplace]
      exact iff_of_true rfl ⟨found, found, rfl, rfl, Or.inl rfl⟩
    | none =>
      refine iff_of_false (placed_ne_of_none checks hown hnote hfound) ?_
      rintro ⟨_, _, h, _⟩
      cases h
  · rw [placed_above_iff checks hown hother hnote hspan hheaders, hspan]
    constructor
    · rintro ⟨found, hfound, hgenerated⟩
      exact ⟨span, found, rfl, hfound, Or.inr hgenerated⟩
    · rintro ⟨_, found, ⟨⟩, hfound, hsame | hgenerated⟩
      · exact absurd hsame (ne_of_above hspan hheaders hfound)
      · exact ⟨found, hfound, hgenerated⟩

end Rows

end SuiteMigration.Robot
