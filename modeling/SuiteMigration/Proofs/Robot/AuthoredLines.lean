import SuiteMigration.Proofs.Robot.RecordedReport
import SuiteMigration.Proofs.Robot.ValidityRule

/-!
What a check leaves alone. It renews the marker line, the documentation setting and the comment on
the check; the other lines are those that somebody wrote. A check keeps them, in their order, unless
one of them reads like a comment on a check; and where it has nothing to report, blank lines and
markers below the comment that goes become the start of the file and go with it.
-/

set_option autoImplicit false
set_option relaxedAutoImplicit false

namespace SuiteMigration.Robot

open SuiteMigration.Text

/-! ### The lines that somebody wrote -/

/-- The number that the digits in a line spell. -/
def numberIn (line : String) : Nat :=
  Nat.ofDigitChars 10 (line.toList.filter Char.isDigit) 0

/-- Whether a line is a comment on a check as a tier writes it. -/
def isOwnComment (line : String) : Bool :=
  line == validationStart ++ s!" {numberIn line} issue(s)"

/-- The lines below the leading blank lines and markers, and below the tool's own comment on a check
if it stands directly below a marker. -/
def belowOwnComment (content : List String) : List String :=
  match content.dropWhile isLeading with
  | [] => []
  | first :: rest =>
      if (content.takeWhile isLeading).getLast?.any isMarkerLine && isOwnComment first then rest
      else first :: rest

/-- Lines without blank ones at the end and without the documentation setting. -/
def properLines (content : List String) : List String :=
  withoutDocumentation (withoutTrailingBlank content)

/-- The lines of a text that no tier wrote. -/
def authoredLines (existing : String) : List String :=
  properLines (belowOwnComment (lines existing))

theorem filter_isDigit_validationComment (r : Report) :
    (validationComment r).toList.filter Char.isDigit = Nat.toDigits 10 r.issues.length := by
  have hdigits : (toString r.issues.length).toList = Nat.toDigits 10 r.issues.length := by
    simp [Nat.toString_eq_repr, Nat.repr]
  have hall : (Nat.toDigits 10 r.issues.length).filter Char.isDigit =
      Nat.toDigits 10 r.issues.length :=
    List.filter_eq_self.mpr fun _ hc ↦ Nat.isDigit_of_mem_toDigits (by decide) (by decide) hc
  have hstart : (validationStart.toList ++ [' ']).filter Char.isDigit = [] := by decide
  have hend : (" issue(s)".toList).filter Char.isDigit = [] := by decide
  rw [toList_validationComment, List.append_cons, List.filter_append, List.filter_append, hdigits,
    hall, hstart, hend, List.nil_append, List.append_nil]

theorem isOwnComment_iff (line : String) :
    isOwnComment line = true ↔ ∃ r : Report, line = validationComment r := by
  rw [isOwnComment, beq_iff_eq]
  constructor
  · intro h
    refine ⟨⟨List.replicate (numberIn line) ""⟩, ?_⟩
    rw [validationComment, List.length_replicate, ← h]
  · rintro ⟨r, rfl⟩
    rw [numberIn, filter_isDigit_validationComment, Nat.ofDigitChars_ten_toDigits]
    rfl

theorem isLeading_of_isBlankText {line : String} (h : isBlankText line = true) :
    isLeading line = true := by
  rw [isLeading, h, Bool.true_or]

theorem isValidationComment_eq_false_of_isLeading {line : String} (h : isLeading line = true) :
    isValidationComment line = false := by
  by_contra hcomment
  rw [isLeading_of_isValidationComment (Bool.not_eq_false _ ▸ hcomment)] at h
  cases h

/-- The lines above the text proper: leading ones, and below them a comment on a check, if any. -/
structure IsFront (lead own rest : List String) : Prop where
  leading : ∀ line ∈ lead, isLeading line = true
  comments : ∀ line ∈ own, isValidationComment line = true
  marked : own ≠ [] → lead ≠ []
  unled : own = [] → ∀ line ∈ rest.head?, isLeading line = false

theorem exists_isFront (content : List String) :
    ∃ lead own, content = lead ++ own ++ belowOwnComment content ∧
      IsFront lead own (belowOwnComment content) := by
  have hlead : ∀ line ∈ content.takeWhile isLeading, isLeading line = true :=
    fun _ hline ↦ List.mem_takeWhile_imp hline
  have hsplit := List.takeWhile_append_dropWhile (p := isLeading) (l := content)
  have hhead (line : String) (h : (content.dropWhile isLeading).head? = some line) :
      isLeading line = false := isLeading_of_head?_dropWhile h
  unfold belowOwnComment
  generalize content.takeWhile isLeading = lead at *
  cases hrest : content.dropWhile isLeading with
  | nil =>
    rw [hrest] at hsplit
    exact ⟨lead, [], by simpa using hsplit.symm, hlead, nofun, nofun, fun _ ↦ nofun⟩
  | cons first rest =>
    rw [hrest] at hsplit hhead
    dsimp only
    split
    next hown =>
      rw [Bool.and_eq_true, Option.any_eq_true] at hown
      obtain ⟨⟨marker, hmarker, -⟩, hcomment⟩ := hown
      obtain ⟨r, rfl⟩ := (isOwnComment_iff first).mp hcomment
      refine ⟨lead, [validationComment r], by simpa using hsplit.symm, hlead, ?_, fun _ ↦ ?_, nofun⟩
      · exact List.forall_mem_singleton.mpr (isValidationComment_validationComment r)
      · exact List.ne_nil_of_mem (List.mem_of_getLast? hmarker)
    next =>
      exact ⟨lead, [], by simpa using hsplit.symm, hlead, nofun, nofun, fun _ ↦ hhead⟩

/-! ### Blank lines at the end -/

theorem exists_blank_end (content : List String) :
    ∃ blanks, content = withoutTrailingBlank content ++ blanks ∧
      (∀ line ∈ blanks, isBlankText line = true) ∧
      ∀ line ∈ (withoutTrailingBlank content).getLast?, isBlankText line = false := by
  refine ⟨content.rtakeWhile isBlankText, List.rdropWhile_append_rtakeWhile.symm,
    fun _ hline ↦ List.mem_rtakeWhile_imp hline, fun line hline ↦ ?_⟩
  obtain ⟨hne, rfl⟩ := List.mem_getLast?_eq_getLast hline
  exact Bool.eq_false_iff.mpr (List.rdropWhile_last_not _ _ hne)

/-- What ends before a list starts does not go on in it. -/
theorem takeWhile_append_of_not {α : Type} {p : α → Bool} {second : List α}
    (h : ∀ a ∈ second, p a = false) (first : List α) :
    (first ++ second).takeWhile p = first.takeWhile p ∧
      (first ++ second).dropWhile p = first.dropWhile p ++ second := by
  have hnone : second.takeWhile p = [] ∧ second.dropWhile p = second := by
    cases second with
    | nil => exact ⟨rfl, rfl⟩
    | cons a rest => simp [h a List.mem_cons_self]
  induction first with
  | nil => exact hnone
  | cons a rest ih =>
    rw [List.cons_append, List.takeWhile_cons, List.takeWhile_cons, List.dropWhile_cons,
      List.dropWhile_cons, ih.1, ih.2]
    cases p a <;> exact ⟨rfl, rfl⟩

section Blanks

variable {blanks : List String} (hblanks : ∀ line ∈ blanks, isBlankText line = true)

include hblanks

/-- A blank line is neither a header nor a row of a documentation setting. -/
theorem documentationSpanFrom_blanks (inSettings : Bool) :
    documentationSpanFrom inSettings blanks = none := by
  induction blanks with
  | nil => rfl
  | cons line rest ih =>
    obtain ⟨hline, hrest⟩ := List.forall_mem_cons.mp hblanks
    have hname : sectionName? line = none := by
      simpa [isHeader] using isHeader_eq_false_of_isLeading (isLeading_of_isBlankText hline)
    have hrow : isDocumentationRow line = false := by
      rw [isDocumentationRow, splitCells_of_isBlankText hline]
      decide
    rw [documentationSpanFrom, hname, hrow, Bool.and_false, ih hrest]
    rfl

theorem documentationSpanFrom_append_blanks (inSettings : Bool) (content : List String) :
    documentationSpanFrom inSettings (content ++ blanks) =
      (documentationSpanFrom inSettings content).map fun span ↦
        { span with after := span.after ++ blanks } := by
  have hends : ∀ line ∈ blanks, isContinuation line = false := fun line hline ↦ by
    by_contra hcontinued
    have hink := ink?_of_isContinuation (Bool.not_eq_false _ ▸ hcontinued)
    rw [ink?_of_isBlankText (hblanks line hline)] at hink
    cases hink
  induction content generalizing inSettings with
  | nil => exact documentationSpanFrom_blanks hblanks inSettings
  | cons line rest ih =>
    rw [List.cons_append, documentationSpanFrom, documentationSpanFrom]
    cases sectionName? line with
    | some name =>
      dsimp only
      rw [ih, Option.map_map, Option.map_map]
      rfl
    | none =>
      dsimp only
      split
      · have hspan := takeWhile_append_of_not hends rest
        rw [hspan.1, hspan.2]
        rfl
      · rw [ih, Option.map_map, Option.map_map]
        rfl

theorem withoutDocumentation_append_blanks (content : List String) :
    withoutDocumentation (content ++ blanks) = withoutDocumentation content ++ blanks := by
  rw [withoutDocumentation, withoutDocumentation, documentationSpan?, documentationSpan?,
    documentationSpanFrom_append_blanks hblanks]
  cases documentationSpanFrom false content with
  | none => rfl
  | some span => exact (List.append_assoc _ _ _).symm

end Blanks

theorem exists_withoutDocumentation_eq (content : List String) :
    ∃ blanks, withoutDocumentation content = properLines content ++ blanks ∧
      ∀ line ∈ blanks, isBlankText line = true := by
  obtain ⟨blanks, hcontent, hblanks, -⟩ := exists_blank_end content
  refine ⟨blanks, ?_, hblanks⟩
  rw [properLines, ← withoutDocumentation_append_blanks hblanks, ← hcontent]

/-! ### An empty line at the end -/

theorem sublist_withoutEmptyEnd {kept content : List String} (h : kept.Sublist content)
    (hlast : kept.getLast? ≠ some "") : kept.Sublist (withoutEmptyEnd content) := by
  obtain ⟨-, heq⟩ | heq := withoutEmptyEnd_cases content
  · rwa [heq]
  · rw [heq] at h
    obtain ⟨front, last, rfl, hfront, hempty⟩ := List.sublist_append_iff.mp h
    obtain rfl | rfl := List.sublist_singleton.mp hempty
    · rwa [List.append_nil]
    · exact absurd List.getLast?_concat hlast

/-! ### Lines above the first header -/

/-- Lines among others with no more headers come from above the first header if they stand above
it. -/
theorem takeWhile_sublist_of_countP_le {α : Type} {p : α → Bool} {first second : List α}
    (h : first.Sublist second) (hcount : second.countP p ≤ first.countP p) :
    (first.takeWhile fun a ↦ !p a).Sublist (second.takeWhile fun a ↦ !p a) := by
  induction h with
  | slnil => exact .slnil
  | @cons first second a hsub ih =>
    have hle : first.countP p ≤ second.countP p := hsub.countP_le
    cases ha : p a with
    | true =>
      rw [List.countP_cons_of_pos ha] at hcount
      omega
    | false =>
      rw [List.countP_cons_of_neg (Bool.eq_false_iff.mp ha)] at hcount
      rw [List.takeWhile_cons_of_pos (by rw [ha]; rfl)]
      exact (ih hcount).cons a
  | @cons_cons first second a hsub ih =>
    rw [List.countP_cons, List.countP_cons, Nat.add_le_add_iff_right] at hcount
    rw [List.takeWhile_cons, List.takeWhile_cons]
    split
    · exact (ih hcount).cons_cons a
    · exact .slnil

/-- Between lines and those of them with the same headers nothing is lost above the first header. -/
theorem takeWhile_eq_of_sublist {α : Type} {p : α → Bool} {first second third : List α}
    (hfirst : first.Sublist second) (hsecond : second.Sublist third)
    (hcount : third.countP p ≤ first.countP p)
    (habove : (first.takeWhile fun a ↦ !p a) = third.takeWhile fun a ↦ !p a) :
    (second.takeWhile fun a ↦ !p a) = third.takeWhile fun a ↦ !p a := by
  refine (takeWhile_sublist_of_countP_le hsecond (hcount.trans hfirst.countP_le)).antisymm ?_
  rw [← habove]
  exact takeWhile_sublist_of_countP_le hfirst (hsecond.countP_le.trans hcount)

/-! ### Authored lines among lines with documentation -/

theorem mem_withoutDocumentation_or {content : List String} {line : String}
    (h : line ∈ aroundDocumentation content) :
    line ∈ withoutDocumentation content ∨ line = "*** Settings ***" ∨ line = "" := by
  cases hany : content.any isSettingsHeader with
  | true =>
    rw [aroundDocumentation, if_pos hany] at h
    exact Or.inl h
  | false =>
    rw [withoutDocumentation_eq_self hany]
    exact mem_aroundDocumentation h

theorem withoutDocumentation_sublist (block content : List String) :
    (withoutDocumentation content).Sublist (placeDocumentation block content) := by
  obtain ⟨before, after, hplace, haround, -⟩ := placeDocumentation_eq content
  have hkept : (withoutDocumentation content).Sublist (before ++ after) := by
    rw [haround, aroundDocumentation]
    split
    · exact List.Sublist.refl _
    next hnone =>
      rw [withoutDocumentation_eq_self (Bool.eq_false_iff.mpr hnone), openSettings]
      conv_lhs =>
        rw [← List.takeWhile_append_dropWhile (p := fun line ↦ !isHeader line) (l := content)]
      exact ((List.sublist_cons_self _ _).trans (List.sublist_cons_self _ _)).append_left _
  rw [hplace]
  exact hkept.trans ((List.sublist_append_left before block).append_right after)

/-- Authored lines keep their place next to the documentation. -/
theorem authored_sublist_placeDocumentation {block : List String} (hblock : block ≠ [])
    (content : List String) :
    (properLines content).Sublist
      (withoutEmptyEnd (placeDocumentation block content)) := by
  obtain ⟨blanks, hcontent, hblanks, hlast⟩ := exists_blank_end content
  rw [properLines]
  generalize withoutTrailingBlank content = proper at hcontent hlast ⊢
  subst hcontent
  have hempty : proper.getLast? ≠ some "" := fun hempty ↦ absurd (hlast "" hempty) (by decide)
  cases hspan : documentationSpan? proper with
  | some span =>
    have hplace : placeDocumentation block (proper ++ blanks) =
        span.before ++ (block ++ (span.after ++ blanks)) := by
      rw [placeDocumentation, documentationSpan?, documentationSpanFrom_append_blanks hblanks,
        ← documentationSpan?, hspan, ← List.append_assoc]
      rfl
    rw [hplace, withoutDocumentation, hspan, withoutEmptyEnd_append _ (by simp [hblock])]
    refine List.Sublist.append_left (sublist_withoutEmptyEnd ?_ fun hend ↦ hempty ?_) _
    · exact (List.sublist_append_left _ _).trans (List.sublist_append_right _ _)
    · rw [(documentationSpan?_eq_some hspan).1, List.getLast?_append, hend]
      rfl
  | none =>
    have hself : withoutDocumentation proper = proper := by rw [withoutDocumentation, hspan]
    have hkept := withoutDocumentation_sublist block (proper ++ blanks)
    rw [withoutDocumentation_append_blanks hblanks] at hkept
    refine sublist_withoutEmptyEnd ((List.sublist_append_left _ _).trans hkept) ?_
    rwa [hself]

/-- If no authored line is a comment on a check, none of the lines with documentation is. -/
theorem filter_placeDocumentation_of_authored {title note : String} {content : List String}
    (h : ∀ line ∈ properLines content, isValidationComment line = false) :
    (placeDocumentation (documentationBlock [title, note]) content).filter
        (fun line ↦ !isValidationComment line) =
      placeDocumentation (documentationBlock [title, note]) content := by
  obtain ⟨before, after, hplace, haround, -⟩ := placeDocumentation_eq content
  obtain ⟨blanks, hproper, hblanks⟩ := exists_withoutDocumentation_eq content
  have hblank {line : String} (hline : isBlankText line = true) :
      isValidationComment line = false :=
    isValidationComment_eq_false_of_isLeading (isLeading_of_isBlankText hline)
  have hkept : ∀ line ∈ before ++ after, isValidationComment line = false := by
    intro line hline
    rw [haround] at hline
    obtain hline | rfl | rfl := mem_withoutDocumentation_or hline
    · rw [hproper] at hline
      obtain hline | hline := List.mem_append.mp hline
      · exact h line hline
      · exact hblank (hblanks line hline)
    · decide
    · exact hblank rfl
  refine List.filter_eq_self.mpr fun line hline ↦ ?_
  rw [Bool.not_eq_true']
  rw [hplace, List.append_assoc, List.mem_append, List.mem_append] at hline
  obtain hline | hline | hline := hline
  · exact hkept line (List.mem_append_left _ hline)
  · exact isValidationComment_documentationBlock title note line hline
  · exact hkept line (List.mem_append_right _ hline)

/-! ### Valid files have settings -/

theorem library?_of_sectionName_ne {r : SectionRow} (h : r.sectionName ≠ "setting") :
    r.library? = none := by
  rw [SectionRow.library?, if_neg (by simpa using h)]

theorem sectionName_ne_of_mem_rowsFrom {content : List String}
    (h : content.any isSettingsHeader = false) {name : String} (hname : name ≠ "setting")
    (number : Nat) : ∀ r ∈ rowsFrom number name content, r.sectionName ≠ "setting" := by
  induction content generalizing number name with
  | nil => exact nofun
  | cons line rest ih =>
    rw [List.any_cons, Bool.or_eq_false_iff] at h
    rw [rowsFrom]
    cases hsection : sectionName? line with
    | some next =>
      refine ih h.2 ?_ _
      rintro rfl
      rw [isSettingsHeader, hsection] at h
      exact absurd h.1 (by decide)
    | none =>
      dsimp only
      split
      · exact ih h.2 hname _
      · exact List.forall_mem_cons.mpr ⟨hname, ih h.2 hname _⟩

/-- A line that is no header and imports nothing adds no library. -/
theorem library?_rowsFrom_cons {line : String} (hline : isHeader line = false)
    (himport : importedLibrary? line = none) {number : Nat} {name : String} {rest : List String}
    (h : ∀ r ∈ rowsFrom (number + 1) name rest, r.library? = none) :
    ∀ r ∈ rowsFrom number name (line :: rest), r.library? = none := by
  have hsection : sectionName? line = none := by simpa [isHeader] using hline
  rw [rowsFrom, hsection]
  dsimp only
  split
  · exact h
  · refine List.forall_mem_cons.mpr ⟨?_, h⟩
    rw [SectionRow.library?, himport]
    split <;> rfl

section Block

variable (title note : String)

theorem head?_documentationBlock : ∀ line ∈ documentationBlock [title, note],
    line.toList.head? = some 'D' ∨ line.toList.head? = some '.' := by
  intro line hline
  obtain rfl | hline := List.mem_cons.mp hline
  · exact Or.inl (by rw [toList_row]; rfl)
  · rw [List.mem_singleton.mp hline]
    exact Or.inr (by rw [toList_row]; rfl)

theorem isHeader_documentationBlock :
    ∀ line ∈ documentationBlock [title, note], isHeader line = false := by
  intro line hline
  obtain hhead | hhead := head?_documentationBlock title note line hline
  · exact isHeader_eq_false_of_ink? (ink?_of_head? hhead (by decide)) (by decide)
  · exact isHeader_eq_false_of_ink? (ink?_of_head? hhead (by decide)) (by decide)

theorem importedLibrary?_documentationBlock :
    ∀ line ∈ documentationBlock [title, note], importedLibrary? line = none := by
  intro line hline
  by_contra himport
  obtain ⟨name, hname⟩ := Option.ne_none_iff_exists'.mp himport
  obtain ⟨c, hc, hlower⟩ := exists_head?_of_importedLibrary? hname
  obtain hhead | hhead := head?_documentationBlock title note line hline
  · rw [← Option.some.inj (hhead.symm.trans hc)] at hlower
    exact absurd hlower (by decide)
  · rw [← Option.some.inj (hhead.symm.trans hc)] at hlower
    exact absurd hlower (by decide)

/-- New settings import nothing, and the next section starts right below them. -/
theorem library?_rowsFrom_newSettings {content : List String}
    (h : content.any isSettingsHeader = false)
    (hheader : ∀ line ∈ content.head?, isHeader line = true) (number : Nat) (name : String) :
    ∀ r ∈ rowsFrom number name
      ("*** Settings ***" :: (documentationBlock [title, note] ++ "" :: content)),
      r.library? = none := by
  have hnew : sectionName? "*** Settings ***" = some "setting" := by decide
  have hplain := isHeader_documentationBlock title note
  have himport := importedLibrary?_documentationBlock title note
  rw [rowsFrom, hnew]
  refine library?_rowsFrom_cons (hplain _ (by simp [documentationBlock]))
    (himport _ (by simp [documentationBlock])) ?_
  refine library?_rowsFrom_cons (hplain _ (by simp [documentationBlock]))
    (himport _ (by simp [documentationBlock])) ?_
  refine library?_rowsFrom_cons (by decide) (by decide) ?_
  cases content with
  | nil => exact List.forall_mem_nil _
  | cons line rest =>
    obtain ⟨next, hnext⟩ := Option.isSome_iff_exists.mp (hheader line rfl)
    rw [List.any_cons, Bool.or_eq_false_iff] at h
    have hother : next ≠ "setting" := by
      rintro rfl
      rw [isSettingsHeader, hnext] at h
      exact absurd h.1 (by decide)
    rw [rowsFrom, hnext]
    exact fun r hr ↦
      library?_of_sectionName_ne (sectionName_ne_of_mem_rowsFrom h.2 hother _ r hr)

theorem placeDocumentation_of_no_settings {content : List String}
    (h : content.any isSettingsHeader = false)
    (hheader : ∀ line ∈ content.head?, isHeader line = true) (block : List String) :
    placeDocumentation block content = "*** Settings ***" :: (block ++ "" :: content) := by
  have hany : (content.any fun line ↦ sectionName? line == some "setting") = false := h
  rw [placeDocumentation, documentationSpan?_eq_none h]
  dsimp only
  rw [hany, if_neg Bool.false_ne_true]
  cases content with
  | nil => rfl
  | cons line rest =>
    have hline := hheader line rfl
    rw [List.takeWhile_cons_of_neg (by simp [hline]), List.dropWhile_cons_of_neg (by simp [hline])]
    rfl

/-- No library is imported in settings that are only there for the documentation. -/
theorem library?_rowsFrom_placeDocumentation {content : List String}
    (h : content.any isSettingsHeader = false) {name : String} (hname : name ≠ "setting")
    (number : Nat) :
    ∀ r ∈ rowsFrom number name (placeDocumentation (documentationBlock [title, note]) content),
      r.library? = none := by
  induction content generalizing number with
  | nil =>
    rw [placeDocumentation_of_no_settings h nofun]
    exact library?_rowsFrom_newSettings title note h nofun number name
  | cons line rest ih =>
    cases hheader : isHeader line with
    | true =>
      have hhead : ∀ other ∈ (line :: rest).head?, isHeader other = true := by simpa using hheader
      rw [placeDocumentation_of_no_settings h hhead]
      exact library?_rowsFrom_newSettings title note h hhead number name
    | false =>
      have hsection : sectionName? line = none := by simpa [isHeader] using hheader
      rw [List.any_cons, Bool.or_eq_false_iff] at h
      rw [placeDocumentation_cons hheader, rowsFrom, hsection]
      dsimp only
      split
      · exact ih h.2 _
      · exact List.forall_mem_cons.mpr ⟨library?_of_sectionName_ne hname, ih h.2 _⟩

/-- A file that is valid with documentation has settings without it. -/
theorem any_isSettingsHeader_of_isValid {content : List String}
    (hlines : ∀ line ∈ placeDocumentation (documentationBlock [title, note]) content,
      Chars.IsLine line.toList)
    (hne : placeDocumentation (documentationBlock [title, note]) content ≠ [])
    (hvalid : (validate (joinLines (placeDocumentation (documentationBlock [title, note])
      content))).isValid = true) : content.any isSettingsHeader = true := by
  by_contra hnone
  rw [Bool.not_eq_true] at hnone
  have hlibrary : library? (joinLines (placeDocumentation (documentationBlock [title, note])
      content)) = none := by
    rw [library?, sectionRows, joinLines, lines_intercalate hne hlines,
      List.filterMap_eq_nil_iff.mpr
        (library?_rowsFrom_placeDocumentation title note hnone (by decide) 1)]
    rfl
  rw [Report.isValid, List.isEmpty_iff, validate, List.append_eq_nil_iff, libraryIssues,
    hlibrary] at hvalid
  cases hvalid.2

end Block

/-! ### Authored lines below a front -/

theorem takeWhile_append_of_exists {α : Type} {p : α → Bool} {first : List α}
    (h : ∃ a ∈ first, p a = false) (second : List α) :
    (first ++ second).takeWhile p = first.takeWhile p := by
  obtain ⟨a, hmem, ha⟩ := h
  have hlength : (first.takeWhile p).length ≠ first.length := fun heq ↦ by
    rw [(List.takeWhile_sublist p).eq_of_length heq |>.symm] at hmem
    rw [List.mem_takeWhile_imp hmem] at ha
    cases ha
  rw [List.takeWhile_append, if_neg hlength]

section Settings

variable {content : List String} (hsettings : content.any isSettingsHeader = true)
  (title note : String)

include hsettings

/-- With settings of its own a text has the headers that are authored, and it starts with lines that
are. -/
theorem headers_placeDocumentation :
    (placeDocumentation (documentationBlock [title, note]) content).countP isHeader =
        (properLines content).countP isHeader ∧
      ((properLines content).takeWhile fun line ↦ !isHeader line) =
        (placeDocumentation (documentationBlock [title, note]) content).takeWhile
          (fun line ↦ !isHeader line) ∧
      (placeDocumentation (documentationBlock [title, note]) content).head? =
        (properLines content).head? := by
  obtain ⟨before, after, hplace, haround, ⟨header, hmem, hheader⟩, -⟩ :=
    placeDocumentation_eq content
  obtain ⟨blanks, hproper, hblanks⟩ := exists_withoutDocumentation_eq content
  have hplain : ∀ line ∈ blanks, isHeader line = false := fun line hline ↦
    isHeader_eq_false_of_isLeading (isLeading_of_isBlankText (hblanks line hline))
  rw [aroundDocumentation, if_pos hsettings, hproper] at haround
  generalize properLines content = kept at haround ⊢
  have hkept : header ∈ kept := by
    have hall : header ∈ kept ++ blanks := haround ▸ List.mem_append_left _ hmem
    refine (List.mem_append.mp hall).resolve_right fun hblank ↦ ?_
    rw [hplain header hblank] at hheader
    cases hheader
  have hends : (!isHeader header) = false := by rw [hheader]; rfl
  rw [hplace]
  refine ⟨?_, ?_, ?_⟩
  · have hblock : (documentationBlock [title, note]).countP isHeader = 0 :=
      List.countP_eq_zero.mpr fun line hline ↦
        Bool.eq_false_iff.mp (isHeader_documentationBlock title note line hline)
    have hnone : blanks.countP isHeader = 0 :=
      List.countP_eq_zero.mpr fun line hline ↦ Bool.eq_false_iff.mp (hplain line hline)
    have hcount := congrArg (List.countP isHeader) haround
    rw [List.countP_append, List.countP_append, hnone] at hcount
    rw [List.countP_append, List.countP_append, hblock]
    exact hcount
  · rw [List.append_assoc, takeWhile_append_of_exists ⟨header, hmem, hends⟩,
      ← takeWhile_append_of_exists ⟨header, hmem, hends⟩ after, haround,
      takeWhile_append_of_exists ⟨header, hkept, hends⟩]
  · have hbefore : (before ++ after).head? = before.head? :=
      List.head?_append_of_ne_nil _ (List.ne_nil_of_mem hmem)
    rw [List.append_assoc, List.head?_append_of_ne_nil _ (List.ne_nil_of_mem hmem), ← hbefore,
      haround, List.head?_append_of_ne_nil _ (List.ne_nil_of_mem hkept)]

/-- Authored lines are kept below a front just if none of them is a comment on a check and none of
them is leading once the comment is gone. -/
theorem authored_sublist_iff :
    (properLines content).Sublist (withoutEmptyEnd
        (((placeDocumentation (documentationBlock [title, note]) content).filter fun line ↦
          !isValidationComment line).dropWhile isLeading)) ↔
      (∀ line ∈ properLines content, isValidationComment line = false) ∧
        ∀ line ∈ (properLines content).head?, isLeading line = false := by
  obtain ⟨hcount, habove, hhead⟩ := headers_placeDocumentation hsettings title note
  constructor
  · intro h
    have hfree : ∀ line ∈ properLines content, isValidationComment line = false := by
      intro line hline
      have hmem := (List.dropWhile_sublist _).mem ((withoutEmptyEnd_sublist _).mem (h.mem hline))
      simpa using (List.mem_filter.mp hmem).2
    refine ⟨hfree, fun line hline ↦ ?_⟩
    rw [filter_placeDocumentation_of_authored hfree] at h
    by_contra hleading
    rw [Bool.not_eq_false] at hleading
    have hsame := takeWhile_eq_of_sublist (h.trans (withoutEmptyEnd_sublist _))
      (List.dropWhile_sublist _) hcount.le habove
    rw [← hhead] at hline
    obtain ⟨more, hplaced⟩ := List.head?_eq_some_iff.mp hline
    rw [hplaced, List.takeWhile_cons_of_pos
      (by rw [isHeader_eq_false_of_isLeading hleading]; rfl)] at hsame
    have hstart : ((line :: more).dropWhile isLeading).head? = some line := by
      obtain ⟨others, hothers⟩ := List.takeWhile_prefix (p := fun line ↦ !isHeader line)
        (l := (line :: more).dropWhile isLeading)
      rw [← hothers, hsame]
      rfl
    rw [isLeading_of_head?_dropWhile hstart] at hleading
    cases hleading
  · rintro ⟨hfree, hunled⟩
    rw [filter_placeDocumentation_of_authored hfree]
    have hdrop : (placeDocumentation (documentationBlock [title, note]) content).dropWhile
        isLeading = placeDocumentation (documentationBlock [title, note]) content := by
      rw [← hhead] at hunled
      cases hplaced : placeDocumentation (documentationBlock [title, note]) content with
      | nil => rfl
      | cons line more =>
        rw [hplaced] at hunled
        exact List.dropWhile_cons_of_neg (Bool.eq_false_iff.mp (hunled line rfl))
    rw [hdrop]
    exact authored_sublist_placeDocumentation (List.cons_ne_nil _ _) content

/-- A first line that is a comment on a check is lost, even if a byte order mark covered the same
comment on the next line that is kept. -/
theorem not_authored_sublist {comment first other : String} {below kept : List String}
    (hplaced : placeDocumentation (documentationBlock [title, note]) content = comment :: below)
    (hcomment : isValidationComment comment = true)
    (hkept : below.filter (fun line ↦ !isValidationComment line) = first :: kept) :
    ¬ (properLines content).Sublist (other :: kept) := by
  intro h
  obtain ⟨hcount, habove, hhead⟩ := headers_placeDocumentation hsettings title note
  have hplain : isHeader comment = false :=
    isHeader_eq_false_of_ink? (ink?_of_isValidationComment hcomment) (by decide)
  rw [hplaced] at hcount habove hhead
  obtain ⟨authored, hauthored⟩ := List.head?_eq_some_iff.mp hhead.symm
  have hcut : (!isHeader comment) = true := by rw [hplain]; rfl
  rw [hauthored, List.countP_cons_of_neg (Bool.eq_false_iff.mp hplain),
    List.countP_cons_of_neg (Bool.eq_false_iff.mp hplain)] at hcount
  rw [hauthored, List.takeWhile_cons, List.takeWhile_cons, if_pos hcut, if_pos hcut] at habove
  have hbelow : (first :: kept).Sublist below := hkept ▸ List.filter_sublist
  have hsub : authored.Sublist kept := by
    rw [hauthored] at h
    obtain hlater | ⟨-, hsub⟩ := List.cons_sublist_cons'.mp h
    · have hmem : comment ∈ first :: kept := List.mem_cons_of_mem _ (hlater.mem List.mem_cons_self)
      rw [← hkept, List.mem_filter, hcomment] at hmem
      cases hmem.2
    · exact hsub
  -- the first line that is kept cannot be missing above the first header, nor be that header
  have hfirst : isHeader first = false := by
    by_contra hheader
    have hle : (first :: kept).countP isHeader ≤ kept.countP isHeader :=
      hbelow.countP_le.trans (hcount.le.trans hsub.countP_le)
    rw [List.countP_cons_of_pos (Bool.not_eq_false _ ▸ hheader)] at hle
    exact Nat.not_succ_le_self _ hle
  have hwith := takeWhile_eq_of_sublist (hsub.cons first) hbelow hcount.le
    (List.cons.inj habove).2
  have hsame := takeWhile_eq_of_sublist hsub ((List.sublist_cons_self first kept).trans hbelow)
    hcount.le (List.cons.inj habove).2
  rw [← hsame, List.takeWhile_cons_of_pos (by rw [hfirst]; rfl)] at hwith
  exact List.cons_ne_self _ _ hwith

end Settings

theorem exists_placeDocumentation_eq_cons (block content : List String) :
    ∃ line more, placeDocumentation block content = line :: more ∧
      (content.head? = some line ∨ line = "*** Settings ***") := by
  obtain ⟨before, after, hplace, -, ⟨header, hmem, -⟩, hhead⟩ := placeDocumentation_eq content
  obtain ⟨line, more, rfl⟩ := List.exists_cons_of_ne_nil (List.ne_nil_of_mem hmem)
  exact ⟨line, _, hplace block, hhead.imp Eq.symm Option.some.inj⟩

section Front

variable {lead own rest : List String} (hfront : IsFront lead own rest) (title note : String)

include hfront

theorem isHeader_front : ∀ line ∈ lead ++ own, isHeader line = false := by
  intro line hline
  obtain hline | hline := List.mem_append.mp hline
  · exact isHeader_eq_false_of_isLeading (hfront.leading line hline)
  · exact isHeader_eq_false_of_ink? (ink?_of_isValidationComment (hfront.comments line hline))
      (by decide)

theorem any_isSettingsHeader_front :
    (lead ++ own ++ rest).any isSettingsHeader = rest.any isSettingsHeader := by
  have hnone : (lead ++ own).any isSettingsHeader = false :=
    List.any_eq_false.mpr fun line hline hsettings ↦ by
      have hheader := isHeader_front hfront line hline
      rw [isHeader_of_isSettingsHeader hsettings] at hheader
      cases hheader
  rw [List.any_append, hnone, Bool.false_or]

theorem filter_front (placed : List String) :
    (lead ++ own ++ placed).filter (fun line ↦ !isValidationComment line) =
      lead ++ placed.filter fun line ↦ !isValidationComment line := by
  have hlead : lead.filter (fun line ↦ !isValidationComment line) = lead :=
    List.filter_eq_self.mpr fun line hline ↦ by
      rw [isValidationComment_eq_false_of_isLeading (hfront.leading line hline)]
      rfl
  have hown : own.filter (fun line ↦ !isValidationComment line) = [] :=
    List.filter_eq_nil_iff.mpr fun line hline ↦ by
      rw [hfront.comments line hline]
      decide
  rw [List.filter_append, List.filter_append, hlead, hown, List.append_nil]

/-- Where nothing stands above the text proper, lines with documentation do not start with a leading
line. -/
theorem isLeading_head?_placeDocumentation (hlead : lead = []) (block : List String) :
    ∀ line ∈ (placeDocumentation block rest).head?, isLeading line = false := by
  have hown : own = [] := by
    by_contra hown
    exact hfront.marked hown hlead
  rw [← dropWhile_placeDocumentation (hfront.unled hown)]
  exact fun line hline ↦ isLeading_of_head?_dropWhile hline

/-- Below the comment on a check authored lines are kept just if none of them is such a comment. -/
theorem authored_sublist_belowMarker_iff :
    (properLines rest).Sublist (withoutEmptyEnd (belowMarker
        (lead ++ (placeDocumentation (documentationBlock [title, note]) rest).filter fun line ↦
          !isValidationComment line))) ↔
      ∀ line ∈ properLines rest, isValidationComment line = false := by
  constructor
  · intro h line hline
    have hmem := (belowMarker_sublist _).mem ((withoutEmptyEnd_sublist _).mem (h.mem hline))
    obtain hmem | hmem := List.mem_append.mp hmem
    · exact isValidationComment_eq_false_of_isLeading (hfront.leading line hmem)
    · simpa using (List.mem_filter.mp hmem).2
  · intro hfree
    have hblock : documentationBlock [title, note] ≠ [] := List.cons_ne_nil _ _
    have hauthored := authored_sublist_placeDocumentation hblock rest
    have hhead (hlead : lead = []) := isLeading_head?_placeDocumentation hfront hlead
      (documentationBlock [title, note])
    rw [filter_placeDocumentation_of_authored hfree]
    obtain ⟨first, more, hplaced, -⟩ :=
      exists_placeDocumentation_eq_cons (documentationBlock [title, note]) rest
    rw [hplaced] at hauthored hhead ⊢
    have hbelow : ∃ above, belowMarker (lead ++ first :: more) = above ++ first :: more := by
      cases lead with
      | nil => exact ⟨[], belowMarker_cons (hhead rfl first rfl) more⟩
      | cons line others =>
        rw [List.cons_append, belowMarker]
        split
        · exact ⟨others, rfl⟩
        · exact ⟨line :: others, rfl⟩
    obtain ⟨above, habove⟩ := hbelow
    rw [habove, withoutEmptyEnd_append _ (List.cons_ne_nil _ _)]
    exact hauthored.trans (List.sublist_append_right _ _)

/-- In a valid file authored lines are kept just if none of them is a comment on a check and none of
them is leading once the comment is gone. -/
theorem authored_sublist_unmarked_iff (hsettings : rest.any isSettingsHeader = true)
    (hmark : ∀ line ∈ (lead ++ own ++ rest).head?, line.toList.head? ≠ some '\uFEFF')
    {first : String} {more : List String}
    (hchecked : lead ++ (placeDocumentation (documentationBlock [title, note]) rest).filter
      (fun line ↦ !isValidationComment line) = first :: more) :
    (properLines rest).Sublist (withoutEmptyEnd
        ((withoutByteOrderMark first :: more).dropWhile isLeading)) ↔
      (∀ line ∈ properLines rest, isValidationComment line = false) ∧
        ∀ line ∈ (properLines rest).head?, isLeading line = false := by
  have hiff := authored_sublist_iff hsettings title note
  cases hlead : lead with
  | cons line others =>
    have hfirst : withoutByteOrderMark line = line :=
      withoutByteOrderMark_eq_self (hmark line (by rw [hlead]; rfl))
    have hall : lead ++ (placeDocumentation (documentationBlock [title, note]) rest).filter
        (fun line ↦ !isValidationComment line) = withoutByteOrderMark first :: more := by
      rw [hchecked]
      rw [hlead] at hchecked
      rw [← (List.cons.inj hchecked).1, hfirst]
    rwa [← hall, List.dropWhile_append_of_pos hfront.leading]
  | nil =>
    have hown : own = [] := by
      by_contra hown
      exact hfront.marked hown hlead
    rw [hlead, hown] at hmark
    obtain ⟨line, below, hplaced, hstart⟩ :=
      exists_placeDocumentation_eq_cons (documentationBlock [title, note]) rest
    have hcovered : withoutByteOrderMark line = line := by
      refine withoutByteOrderMark_eq_self ?_
      obtain hstart | rfl := hstart
      · exact hmark line hstart
      · decide
    rw [hlead, hplaced, List.nil_append] at hchecked
    cases hcomment : isValidationComment line with
    | true =>
      rw [List.filter_cons_of_neg (by rw [hcomment]; decide)] at hchecked
      refine iff_of_false (fun h ↦ ?_) fun h ↦ ?_
      · exact not_authored_sublist hsettings title note hplaced hcomment hchecked
          (h.trans ((withoutEmptyEnd_sublist _).trans (List.dropWhile_sublist _)))
      · have hhead := (headers_placeDocumentation hsettings title note).2.2
        rw [hplaced] at hhead
        rw [h.1 line (List.mem_of_head? hhead.symm)] at hcomment
        cases hcomment
    | false =>
      rw [hplaced] at hiff
      rw [List.filter_cons_of_pos (by rw [hcomment]; rfl)] at hchecked hiff
      obtain ⟨rfl, rfl⟩ := List.cons.inj hchecked
      rwa [hcovered]

end Front

/-! ### What is written for lines without carriage returns -/

theorem map_readBack_eq_self {content : List String}
    (h : ∀ line ∈ content, readBack line = line) : content.map readBack = content :=
  (List.map_congr_left h).trans (List.map_id' _)

section Written

variable {m : Marker} (hm : m.Tiered) {content : List String} (hne : content ≠ [])
  (hlines : ∀ line ∈ content, Chars.IsLine line.toList)

include hlines

theorem checkedLines_of_isLine :
    checkedLines content = content.filter fun line ↦ !isValidationComment line := by
  rw [checkedLines, map_readBack_eq_self fun line hline ↦ readBack_eq_self (hlines line hline)]

include hm hne

theorem lines_written_of_invalid (hvalid : (validate (joinLines content)).isValid = false) :
    lines (joinLines (m.render :: bodyLines true content)) =
      m.render :: (commentOn (validate (joinLines content)) ++ withoutEmptyEnd (belowMarker
        (content.filter fun line ↦ !isValidationComment line))) := by
  have hfixed : ∀ line ∈ belowMarker (content.filter fun line ↦ !isValidationComment line),
      readBack line = line := fun line hline ↦
    readBack_eq_self (hlines line (List.mem_of_mem_filter ((belowMarker_sublist _).mem hline)))
  have hcomment := (oneLine_validationComment (validate (joinLines content))).isLine
  rw [lines_written hm, bodyLines_of_invalid hne (fun line hline ↦ (hlines line hline).1) hvalid,
    checkedLines_of_isLine hlines, map_readBack_eq_self hfixed, List.map_cons,
    readBack_eq_self hcomment, map_readBack_eq_self fun line hline ↦
      hfixed line ((withoutEmptyEnd_sublist _).mem hline), commentOn, hvalid]
  rfl

theorem lines_written_of_valid (hvalid : (validate (joinLines content)).isValid = true)
    {first : String} {more : List String}
    (hchecked : (content.filter fun line ↦ !isValidationComment line) = first :: more) :
    lines (joinLines (m.render :: bodyLines true content)) =
      m.render :: (commentOn (validate (joinLines content)) ++
        withoutEmptyEnd ((withoutByteOrderMark first :: more).dropWhile isLeading)) := by
  have hkept : ∀ line ∈ first :: more, readBack line = line := fun line hline ↦
    readBack_eq_self (hlines line (List.mem_of_mem_filter (hchecked ▸ hline)))
  obtain ⟨hfirst, hmore⟩ := List.forall_mem_cons.mp hkept
  have hfixed : ∀ line ∈ withoutByteOrderMark first :: more, readBack line = line := by
    refine List.forall_mem_cons.mpr ⟨?_, hmore⟩
    rw [← withoutByteOrderMark_readBack, hfirst]
  rw [← checkedLines_of_isLine hlines] at hchecked
  rw [lines_written hm, bodyLines_uncovered hne (fun line hline ↦ (hlines line hline).1) hvalid
    hchecked, map_readBack_eq_self hfixed, map_readBack_eq_self fun line hline ↦
      hfixed line ((List.dropWhile_sublist _).mem ((withoutEmptyEnd_sublist _).mem hline)),
    commentOn, if_pos hvalid, List.nil_append]

end Written

/-! ### What a check leaves alone -/

section Check

variable (existing : String) (request : TierRequest) (fresh : Option String)

theorem tierBase_of_validation (h : effectiveTier request.tier fresh = .validation) :
    tierBase existing request fresh = existing := by
  rw [tierBase, h]
  rfl

theorem isLine_of_mem_tierLines (h : effectiveTier request.tier fresh = .validation)
    (hreturn : '\r' ∉ existing.toList) :
    ∀ line ∈ tierLines existing request fresh, Chars.IsLine line.toList := by
  rw [tierLines, tierBase_of_validation existing request fresh h]
  refine isLine_placeDocumentation (fun line hline ↦ ?_) (isLine_documentationBlock
    (isLine_tierTitle _ _ _) (isLine_tierNote existing request fresh))
  exact (Chars.oneLine_of_mem_lines hreturn (mem_lines_iff.mp hline)).isLine

/-- A check that runs reports on the file. -/
theorem of_applied_eq_validation
    (h : (applyTier existing request fresh).applied = some .validation) :
    effectiveTier request.tier fresh = .validation ∧
      (applyTier existing request fresh).validation =
        some (validate (joinLines (tierLines existing request fresh))) := by
  obtain ⟨-, heq⟩ | ⟨-, heq⟩ := applyTier_cases existing request fresh
  · rw [heq] at h
    cases h
  · have heffective : effectiveTier request.tier fresh = .validation := by
      rw [heq] at h
      exact Option.some.inj h
    refine ⟨heffective, ?_⟩
    have hsome : (applyTier existing request fresh).validation.isSome = true := by
      rw [heq, isSome_validation_runTier, heffective]
      rfl
    obtain ⟨r, hr⟩ := Option.isSome_iff_exists.mp hsome
    rw [hr, (applyTier_of_validation existing request fresh hr).1]

/-- Of a text that starts with a header no line is kept that reads like a comment on a check, unless
it is the comment that the check writes. -/
theorem not_mem_lines_of_isValidationComment
    (hheader : ∀ first ∈ (lines existing).head?, isHeader first = true)
    (hruns : (applyTier existing request fresh).applied = some .validation) {comment : String}
    (hcomment : isValidationComment comment = true) (hother : isOwnComment comment = false) :
    comment ∉ lines (applyTier existing request fresh).content := by
  obtain ⟨heffective, hreport⟩ := of_applied_eq_validation existing request fresh hruns
  obtain ⟨first, rest, hplaced, hfirst⟩ := exists_isHeader_placeDocumentation hheader
    (documentationBlock [tierTitle existing (tierBase existing request fresh) request.path,
      tierNote existing request fresh])
  have htier : tierLines existing request fresh = first :: rest := by
    rw [tierLines, tierBase_of_validation existing request fresh heffective]
    rwa [tierBase_of_validation existing request fresh heffective] at hplaced
  have hfeed := not_mem_of_mem_tierLines existing request fresh
  rw [htier] at hfeed
  rw [(applyTier_of_validation existing request fresh hreport).2, htier,
    lines_written (tierMarker_tiered existing request fresh),
    bodyLines_of_isHeader hfeed true hfirst, if_pos rfl]
  intro hmem
  obtain rfl | hmem := List.mem_cons.mp hmem
  · rw [Marker.isValidationComment_render] at hcomment
    cases hcomment
  · obtain ⟨line, hline, rfl⟩ := List.mem_map.mp hmem
    obtain hline | hline := List.mem_append.mp hline
    · rw [commentOn] at hline
      split at hline
      · cases hline
      · rw [List.mem_singleton.mp hline,
          readBack_eq_self (oneLine_validationComment _).isLine] at hother
        exact Bool.eq_false_iff.mp hother ((isOwnComment_iff _).mpr ⟨_, rfl⟩)
    · have hkept := (withoutEmptyEnd_sublist _).mem hline
      rw [written_true] at hkept
      obtain ⟨source, hsource, rfl⟩ := List.mem_map.mp hkept
      rw [isValidationComment_readBack, isValidationComment_readBack] at hcomment
      rw [List.mem_filter, hcomment] at hsource
      cases hsource.2

/-- Below the marker and the comment on the check, a check that runs on a text without carriage
returns and without a byte order mark keeps all authored lines, as they are and in their order, just
if none of them reads like a comment on a check and, where the file is valid, the first of them is
neither blank nor a marker. -/
theorem authored_lines_kept_iff (hmark : existing.toList.head? ≠ some '\uFEFF')
    (hreturn : '\r' ∉ existing.toList)
    (hruns : (applyTier existing request fresh).applied = some .validation) :
    ∃ r body, (applyTier existing request fresh).validation = some r ∧
      lines (applyTier existing request fresh).content =
        (tierMarker existing request fresh).render :: (commentOn r ++ body) ∧
      ((authoredLines existing).Sublist body ↔
        (∀ line ∈ authoredLines existing, isValidationComment line = false) ∧ (r.isValid = true →
          ∀ line ∈ (authoredLines existing).head?, isLeading line = false)) := by
  obtain ⟨heffective, hreport⟩ := of_applied_eq_validation existing request fresh hruns
  have hcontent := (applyTier_of_validation existing request fresh hreport).2
  have hm := tierMarker_tiered existing request fresh
  have hne := tierLines_ne_nil existing request fresh
  have hlines := isLine_of_mem_tierLines existing request fresh heffective hreturn
  obtain ⟨lead, own, hexisting, hfront⟩ := exists_isFront (lines existing)
  obtain ⟨title, note, htier⟩ : ∃ title note, tierLines existing request fresh =
      placeDocumentation (documentationBlock [title, note]) (lines existing) :=
    ⟨_, _, by rw [tierLines, tierBase_of_validation existing request fresh heffective]⟩
  have hplaced := placeDocumentation_append (isHeader_front hfront)
    (documentationBlock [title, note]) (belowOwnComment (lines existing))
  rw [← hexisting, ← htier] at hplaced
  have hchecked : (tierLines existing request fresh).filter (fun line ↦ !isValidationComment line) =
      lead ++ (placeDocumentation (documentationBlock [title, note])
        (belowOwnComment (lines existing))).filter fun line ↦ !isValidationComment line := by
    rw [hplaced, filter_front hfront]
  cases hvalid : (validate (joinLines (tierLines existing request fresh))).isValid with
  | false =>
    have hwritten := lines_written_of_invalid hm hne hlines hvalid
    rw [← hcontent, hchecked] at hwritten
    refine ⟨_, _, hreport, hwritten, ?_⟩
    rw [hvalid]
    refine (authored_sublist_belowMarker_iff hfront title note).trans ?_
    exact (and_iff_left Bool.noConfusion).symm
  | true =>
    have hsettings : (belowOwnComment (lines existing)).any isSettingsHeader = true := by
      rw [htier] at hlines hne hvalid
      have hany := any_isSettingsHeader_of_isValid title note hlines hne hvalid
      rwa [hexisting, any_isSettingsHeader_front hfront] at hany
    have hhead : ∀ line ∈ (lead ++ own ++ belowOwnComment (lines existing)).head?,
        line.toList.head? ≠ some '\uFEFF' := by
      rw [← hexisting]
      exact fun line hline hstart ↦ hmark (head?_of_lines hline hstart)
    obtain ⟨first, more, hkept⟩ : ∃ first more,
        ((tierLines existing request fresh).filter fun line ↦ !isValidationComment line) =
          first :: more := by
      obtain ⟨first, more, hkept, -⟩ :=
        exists_checkedLines hne (fun line hline ↦ (hlines line hline).1) hvalid
      exact ⟨first, more, checkedLines_of_isLine hlines ▸ hkept⟩
    have hwritten := lines_written_of_valid hm hne hlines hvalid hkept
    rw [← hcontent] at hwritten
    refine ⟨_, _, hreport, hwritten, ?_⟩
    rw [hvalid]
    refine (authored_sublist_unmarked_iff hfront title note hsettings hhead
      (hchecked.symm.trans hkept)).trans ?_
    exact and_congr_right' ⟨fun h _ ↦ h, fun h ↦ h rfl⟩

end Check

/-- A comment below a keyword stays, and the comment on the last check does not. -/
theorem authored_lines_kept_below_own_comment :
    let existing := joinLines ["# robomigrate: mode=manual tier=2", "# Validation: 2 issue(s)",
      "*** Keywords ***", "Open", "# Checked by hand", "    Click    id=a", ""]
    let request : TierRequest := ⟨.enhanced, .validation, true, "robot/login.resource"⟩
    existing.toList.head? ≠ some '\uFEFF' ∧ '\r' ∉ existing.toList ∧
      (applyTier existing request none).applied = some .validation ∧
      authoredLines existing =
        ["*** Keywords ***", "Open", "# Checked by hand", "    Click    id=a"] ∧
      ∃ r body, (applyTier existing request none).validation = some r ∧
        lines (applyTier existing request none).content =
          (tierMarker existing request none).render :: (commentOn r ++ body) ∧
        (authoredLines existing).Sublist body := by
  intro existing request
  obtain ⟨hmark, hreturn, hlines⟩ : existing.toList.head? ≠ some '\uFEFF' ∧
      '\r' ∉ existing.toList ∧ lines existing = _ :=
    lines_joinLines_of_oneLine (by decide) (by decide +kernel)
  have hruns : (applyTier existing request none).applied = some .validation := rfl
  have hauthored : authoredLines existing =
      ["*** Keywords ***", "Open", "# Checked by hand", "    Click    id=a"] := by
    rw [authoredLines, hlines]
    decide +kernel
  obtain ⟨r, body, hreport, hwritten, hiff⟩ :=
    authored_lines_kept_iff existing request none hmark hreturn hruns
  refine ⟨hmark, hreturn, hruns, hauthored, r, body, hreport, hwritten, hiff.mpr ?_⟩
  rw [hauthored]
  exact ⟨by decide +kernel, fun _ ↦ by decide +kernel⟩

/-- A comment below a keyword that reads like a comment on a check is lost. -/
theorem comment_below_keyword_lost :
    let existing := joinLines ["*** Settings ***", "Library    Browser", "", "*** Keywords ***",
      "Open", "# Validation: checked by hand", "    Click    id=a"]
    let request : TierRequest := ⟨.enhanced, .validation, true, "robot/login.resource"⟩
    existing.toList.head? ≠ some '\uFEFF' ∧ '\r' ∉ existing.toList ∧
      (applyTier existing request none).applied = some .validation ∧
      "# Validation: checked by hand" ∈ authoredLines existing ∧
      "# Validation: checked by hand" ∉ lines (applyTier existing request none).content := by
  intro existing request
  obtain ⟨hmark, hreturn, hlines⟩ : existing.toList.head? ≠ some '\uFEFF' ∧
      '\r' ∉ existing.toList ∧ lines existing = _ :=
    lines_joinLines_of_oneLine (by decide) (by decide +kernel)
  have hruns : (applyTier existing request none).applied = some .validation := rfl
  refine ⟨hmark, hreturn, hruns, ?_, ?_⟩
  · rw [authoredLines, hlines]
    decide +kernel
  · refine not_mem_lines_of_isValidationComment existing request none ?_ hruns (by decide)
      (by decide)
    rw [hlines]
    decide +kernel

end SuiteMigration.Robot
