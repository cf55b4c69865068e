import Mathlib.Algebra.Order.BigOperators.Group.List
import Mathlib.Algebra.Order.Group.Nat
import SuiteMigration.Proofs.Robot.HeaderRefresh
import SuiteMigration.Proofs.Text.Lines

/-!
What the three rewrites of a text do to its lines: documentation is placed, the comment on a check
is put below the marker, and the marker is put first. Each of them reads the lines of a text and
writes lines again. A line that is written and read back can lose a carriage return, and an empty
line at the end of a text is taken for its end when the marker is put on it. Otherwise lines that
have been written by the same rewrites before come out as they are.
-/

set_option autoImplicit false
set_option relaxedAutoImplicit false

namespace SuiteMigration.Robot

open SuiteMigration.Text

/-! ### Lines that are written -/

theorem toList_joinLines (content : List String) :
    (joinLines content).toList = Chars.join ['\n'] (content.map String.toList) ++ ['\n'] := by
  simp [joinLines, Chars.join]

theorem joinLines_cons {line : String} {rest : List String} (h : rest ≠ []) :
    joinLines (line :: rest) = line ++ "\n" ++ joinLines rest := by
  obtain ⟨next, more, rfl⟩ := List.exists_cons_of_ne_nil h
  rw [← String.toList_inj, toList_joinLines]
  simp [toList_joinLines]

/-- Lines are read back as they were written, up to carriage returns. -/
theorem lines_joinLines {content : List String} (hne : content ≠ [])
    (h : ∀ line ∈ content, '\n' ∉ line.toList) :
    lines (joinLines content) = content.map readBack := by
  have hfirst {line : String} (hline : '\n' ∉ line.toList) (rest : List Char) :
      (Chars.lines (line.toList ++ '\n' :: rest)).map String.ofList =
        readBack line :: (Chars.lines rest).map String.ofList := by
    rw [Chars.lines_append_newline_of_not_mem hline]
    rfl
  induction content with
  | nil => exact absurd rfl hne
  | cons line rest ih =>
    obtain ⟨hline, hrest⟩ := List.forall_mem_cons.mp h
    by_cases hempty : rest = []
    · subst hempty
      simpa [lines, toList_joinLines, Chars.lines] using hfirst hline []
    · rw [joinLines_cons hempty, List.map_cons, ← ih hempty hrest, lines, lines]
      simpa using hfirst hline (joinLines rest).toList

theorem joinLines_inj {first second : List String} (hfirst : first ≠ []) (hsecond : second ≠ [])
    (hlines : ∀ line ∈ first, Chars.IsLine line.toList)
    (hothers : ∀ line ∈ second, Chars.IsLine line.toList) :
    joinLines first = joinLines second ↔ first = second := by
  refine ⟨fun heq ↦ ?_, congrArg joinLines⟩
  have h := congrArg lines heq
  rwa [joinLines, joinLines, lines_intercalate hfirst hlines,
    lines_intercalate hsecond hothers] at h

/-- The lines that are left when an empty line at the end is taken for the end of the text. -/
def withoutEmptyEnd (content : List String) : List String :=
  if content.getLast? = some "" then content.dropLast else content

theorem withoutEmptyEnd_sublist (content : List String) :
    (withoutEmptyEnd content).Sublist content := by
  unfold withoutEmptyEnd
  split
  · exact List.dropLast_sublist _
  · exact List.Sublist.refl _

theorem withoutEmptyEnd_cases (content : List String) :
    (content.getLast? ≠ some "" ∧ withoutEmptyEnd content = content) ∨
      content = withoutEmptyEnd content ++ [""] := by
  unfold withoutEmptyEnd
  split
  next h =>
    obtain ⟨front, rfl⟩ := List.getLast?_eq_some_iff.mp h
    rw [List.dropLast_concat]
    exact Or.inr rfl
  next h => exact Or.inl ⟨h, rfl⟩

theorem withoutEmptyEnd_cons {line : String} (h : line ≠ "") (rest : List String) :
    withoutEmptyEnd (line :: rest) = line :: withoutEmptyEnd rest := by
  unfold withoutEmptyEnd
  cases rest with
  | nil => simp [h]
  | cons next more =>
    rw [List.getLast?_cons_cons]
    split <;> rfl

theorem getLast?_cons_ne_empty_iff {line : String} (h : line ≠ "") {rest : List String} :
    (line :: rest).getLast? ≠ some "" ↔ rest.getLast? ≠ some "" := by
  cases rest with
  | nil => simp [h]
  | cons next more => rw [List.getLast?_cons_cons]

/-- A text that is closed with a line feed unless it has one at its end. -/
theorem closed_intercalate (start : String) {kept : List String}
    (h : ∀ line ∈ kept, '\n' ∉ line.toList) :
    (if endsWith (start ++ "\n" ++ String.intercalate "\n" kept) "\n" then
        start ++ "\n" ++ String.intercalate "\n" kept
      else start ++ "\n" ++ String.intercalate "\n" kept ++ "\n") =
      joinLines (start :: withoutEmptyEnd kept) := by
  obtain rfl | ⟨front, last, rfl⟩ := List.eq_nil_or_concat kept
  · rw [String.intercalate_nil, String.append_empty, if_pos (endsWith_append _ _)]
    rfl
  · rw [List.concat_eq_append] at h ⊢
    have htext : (start ++ "\n" ++ String.intercalate "\n" (front ++ [last])).toList =
        Chars.join ['\n'] ((start :: front).map String.toList) ++ '\n' :: last.toList := by
      rw [← Chars.join_concat _ (by simp)]
      cases front <;> simp [Chars.join]
    by_cases hlast : last = ""
    · subst hlast
      have hend := endsWith_newline_iff.mpr (by rw [htext]; simp)
      rw [if_pos hend, withoutEmptyEnd, if_pos List.getLast?_concat, List.dropLast_concat,
        ← String.toList_inj, htext, toList_joinLines]
      rfl
    · have hend : ¬ endsWith (start ++ "\n" ++ String.intercalate "\n" (front ++ [last])) "\n" =
          true := by
        rw [endsWith_newline_iff, htext, List.getLast?_append]
        obtain ⟨c, more, hmore⟩ := List.exists_cons_of_ne_nil
          (fun hnil ↦ hlast (String.toList_inj.mp hnil))
        rw [hmore, List.getLast?_cons_cons, ← hmore, Option.or_eq_some_iff]
        rintro (hfeed | ⟨hnone, _⟩)
        · exact h last (by simp) (List.mem_of_getLast? hfeed)
        · rw [List.getLast?_eq_none_iff.mp hnone] at hmore
          cases hmore
      rw [if_neg hend, withoutEmptyEnd, if_neg (by simpa using hlast), ← String.toList_inj,
        String.toList_append, htext, toList_joinLines, ← Chars.join_concat _ (by simp)]
      simp

theorem not_mem_of_mem_unmarkedLines {content line : String} (h : line ∈ unmarkedLines content) :
    '\n' ∉ line.toList :=
  not_mem_of_mem_lines ((List.dropWhile_sublist _).mem h)

theorem ensureMarker_eq_joinLines (content : String) (m : Marker) :
    ensureMarker content m =
      joinLines (m.render :: withoutEmptyEnd (unmarkedLines content)) := by
  unfold ensureMarker
  dsimp only
  exact closed_intercalate m.render fun _ hline ↦ not_mem_of_mem_unmarkedLines hline

/-! ### How lines start -/

theorem isPrefix_trimEnd (cs : List Char) : Chars.trimEnd cs <+: cs := by
  have hsuffix := List.dropWhile_suffix (l := cs.reverse) isBlank
  simpa [Chars.trimEnd, Chars.dropEndWhile] using List.reverse_prefix.mpr hsuffix

theorem head?_trim {cs : List Char} {c : Char} (h : cs.head? = some c) (hc : isBlank c = false) :
    (Chars.trim cs).head? = some c := by
  have hmem := List.mem_of_head? h
  have hne := Chars.trim_ne_nil hmem hc
  have hstart : Chars.trimStart cs = cs := by
    obtain ⟨rest, rfl⟩ := List.head?_eq_some_iff.mp h
    exact List.dropWhile_cons_of_neg (Bool.eq_false_iff.mp hc)
  have hfront : Chars.trim cs <+: cs := by
    rw [Chars.trim, hstart]
    exact isPrefix_trimEnd cs
  obtain ⟨others, hothers⟩ := hfront
  rw [← List.head?_append_of_ne_nil _ hne, hothers, h]

theorem startsWith_eq_false {s start : String} {c d : Char} (hs : s.toList.head? = some c)
    (hstart : start.toList.head? = some d) (hne : c ≠ d) : startsWith s start = false := by
  obtain ⟨rest, hrest⟩ := List.head?_eq_some_iff.mp hs
  obtain ⟨others, hothers⟩ := List.head?_eq_some_iff.mp hstart
  rw [startsWith, Chars.startsWith, hrest, hothers, Chars.afterStart?, if_neg (Ne.symm hne)]
  rfl

theorem isHeader_of_hash {line : String} (h : line.toList.head? = some '#') :
    isHeader line = false := by
  have hhead := head?_trim h (by decide)
  unfold isHeader sectionName?
  split
  next heq =>
    rw [heq] at hhead
    cases hhead
  next => rfl

def isValidationComment (line : String) : Bool :=
  startsWith line validationStart

/-- The comment on a check, if there is anything to say. -/
def commentOn (r : Report) : List String :=
  if r.isValid then [] else [validationComment r]

theorem Marker.render_ne_empty (m : Marker) : m.render ≠ "" := by
  intro h
  obtain ⟨rest, hrest⟩ := m.render_eq_cons
  rw [h] at hrest
  cases hrest

theorem Marker.isHeader_render (m : Marker) : isHeader m.render = false := by
  obtain ⟨rest, hrest⟩ := m.render_eq_cons
  exact isHeader_of_hash (by rw [hrest]; rfl)

theorem Marker.Tiered.isMarkerLine_render {m : Marker} (hm : m.Tiered) :
    isMarkerLine m.render = true := by
  obtain ⟨rest, hrest, _⟩ := Option.map_eq_some_iff.mp hm.ofLine?_render
  obtain ⟨cs, hcs, _⟩ := Option.map_eq_some_iff.mp hrest
  rw [isMarkerLine, startsWith, Chars.startsWith, hcs]
  rfl

theorem Marker.isValidationComment_render (m : Marker) : isValidationComment m.render = false := by
  obtain ⟨rest, hrest⟩ : ∃ rest, m.render.toList = markerStart.toList ++ rest := by
    rw [m.toList_render]
    cases m.fields with
    | nil => exact ⟨[], by simp⟩
    | cons field others => exact ⟨_, by simp; rfl⟩
  rw [isValidationComment, startsWith, hrest]
  rfl

theorem oneLine_toString (n : Nat) : Chars.OneLine (toString n).toList := by
  intro c hc
  have hmem : c ∈ Nat.toDigits 10 n := by simpa [Nat.toString_eq_repr, Nat.repr] using hc
  have hdigit : c.isDigit = true := Nat.isDigit_of_mem_toDigits (by decide) (by decide) hmem
  refine ⟨?_, ?_⟩
  · rintro rfl
    cases hdigit
  · rintro rfl
    cases hdigit

theorem toList_validationComment (r : Report) :
    (validationComment r).toList =
      validationStart.toList ++ ' ' :: (toString r.issues.length).toList ++
        " issue(s)".toList := by
  have htext (s : String) : toString s = s := rfl
  simp [validationComment, htext]

theorem oneLine_validationComment (r : Report) :
    Chars.OneLine (validationComment r).toList := by
  have hstart : Chars.OneLine validationStart.toList := by decide
  have hspace : Chars.OneLine [' '] := by decide
  have hend : Chars.OneLine " issue(s)".toList := by decide
  rw [toList_validationComment]
  exact (hstart.append (hspace.append (oneLine_toString _))).append hend

theorem validationComment_ne_empty (r : Report) : validationComment r ≠ "" := by
  intro h
  have hlist := toList_validationComment r
  rw [h] at hlist
  cases hlist

theorem isHeader_validationComment (r : Report) : isHeader (validationComment r) = false :=
  isHeader_of_hash (by rw [toList_validationComment]; rfl)

theorem isValidationComment_validationComment (r : Report) :
    isValidationComment (validationComment r) = true := by
  rw [isValidationComment, startsWith, Chars.startsWith, toList_validationComment,
    List.append_assoc, Chars.afterStart?_append]
  rfl

theorem isLeading_validationComment (r : Report) : isLeading (validationComment r) = false := by
  have hlast : (validationComment r).toList.getLast? = some ')' := by
    rw [toList_validationComment, List.getLast?_append]
    rfl
  have htrim : Chars.trim (validationComment r).toList = (validationComment r).toList := by
    refine Chars.trim_eq_self (fun c hc ↦ ?_) fun c hc ↦ ?_
    · rw [toList_validationComment] at hc
      obtain rfl : '#' = c := Option.some.inj hc
      decide
    · rw [hlast] at hc
      obtain rfl : ')' = c := Option.some.inj hc
      decide
  have hmarker : isMarkerLine (validationComment r) = false := by
    rw [isMarkerLine, startsWith, trim, String.toList_ofList, htrim, toList_validationComment]
    rfl
  have hblank : isBlankText (validationComment r) = false := by
    rw [isBlankText, toList_validationComment]
    rfl
  rw [isLeading, hblank, hmarker]
  rfl

theorem isLine_commentOn (r : Report) :
    ∀ line ∈ commentOn r, Chars.IsLine line.toList := by
  intro line hline
  unfold commentOn at hline
  split at hline
  · cases hline
  · rw [List.mem_singleton.mp hline]
    exact (oneLine_validationComment r).isLine

theorem toList_row (start text : String) :
    (row [start, text]).toList = start.toList ++ separator.toList ++ text.toList := by
  simp [row]

theorem isLine_row {start text : String} (hstart : Chars.OneLine start.toList)
    (htext : Chars.IsLine text.toList) : Chars.IsLine (row [start, text]).toList := by
  have hseparator : Chars.OneLine separator.toList := by decide
  rw [toList_row]
  exact (hstart.append hseparator).append_isLine htext

theorem isLine_documentationBlock {title note : String} (htitle : Chars.IsLine title.toList)
    (hnote : Chars.IsLine note.toList) :
    ∀ line ∈ documentationBlock [title, note], Chars.IsLine line.toList := by
  intro line hline
  obtain rfl | hline := List.mem_cons.mp hline
  · exact isLine_row (by decide) htitle
  · rw [List.mem_singleton.mp hline]
    exact isLine_row (by decide) hnote

theorem isValidationComment_documentationBlock (title note : String) :
    ∀ line ∈ documentationBlock [title, note], isValidationComment line = false := by
  have hcomment : validationStart.toList.head? = some '#' := by decide
  intro line hline
  obtain rfl | hline := List.mem_cons.mp hline
  · exact startsWith_eq_false (c := 'D') (by rw [toList_row]; rfl) hcomment (by decide)
  · rw [List.mem_singleton.mp hline]
    exact startsWith_eq_false (c := '.') (by rw [toList_row]; rfl) hcomment (by decide)

/-! ### Documentation that stays as it is -/

theorem documentationSpan?_cons {line : String} (h : isHeader line = false) (rest : List String) :
    documentationSpan? (line :: rest) =
      (documentationSpan? rest).map fun span ↦ { span with before := line :: span.before } := by
  have hname : sectionName? line = none := by simpa [isHeader] using h
  unfold documentationSpan?
  rw [documentationSpanFrom, hname]
  rfl

theorem exists_span_cons_iff {line : String} (h : isHeader line = false)
    {block rest : List String} :
    (∃ span, documentationSpan? (line :: rest) = some span ∧ span.block = block) ↔
      ∃ span, documentationSpan? rest = some span ∧ span.block = block := by
  rw [documentationSpan?_cons h]
  cases documentationSpan? rest <;> simp

/-- What stands above the first header stays above the documentation. -/
theorem placeDocumentation_cons {line : String} (h : isHeader line = false)
    (block rest : List String) :
    placeDocumentation block (line :: rest) = line :: placeDocumentation block rest := by
  have hname : sectionName? line = none := by simpa [isHeader] using h
  unfold placeDocumentation
  rw [documentationSpan?_cons h]
  cases documentationSpan? rest with
  | some span => rfl
  | none =>
    have hsettings : (sectionName? line == some "setting") = false := by rw [hname]; rfl
    simp only [Option.map_none, List.any_cons, hsettings, Bool.false_or, List.takeWhile_cons,
      List.dropWhile_cons, h, Bool.not_false, if_true]
    split <;> rfl

theorem length_placeDocumentation {content : List String}
    (h : documentationSpan? content = none) (block : List String) :
    content.length + block.length ≤ (placeDocumentation block content).length := by
  obtain ⟨before, after, hplace, haround, _⟩ := placeDocumentation_eq content
  have hlength : content.length ≤ (aroundDocumentation content).length := by
    unfold aroundDocumentation withoutDocumentation openSettings
    rw [h]
    split
    · exact Nat.le_refl _
    · have hsplit := congrArg List.length
        (List.takeWhile_append_dropWhile (p := fun line ↦ !isHeader line) (l := content))
      simp only [List.length_append, List.length_cons] at hsplit ⊢
      omega
  rw [← haround] at hlength
  rw [hplace]
  simp only [List.length_append] at hlength ⊢
  omega

theorem placeDocumentation_eq_self_iff {block content : List String} (hblock : block ≠ []) :
    placeDocumentation block content = content ↔
      ∃ span, documentationSpan? content = some span ∧ span.block = block := by
  cases hspan : documentationSpan? content with
  | none =>
    have hlength := length_placeDocumentation hspan block
    have hpos := List.length_pos_iff.mpr hblock
    refine ⟨fun heq ↦ ?_, nofun⟩
    rw [heq] at hlength
    omega
  | some span =>
    have hcontent := (documentationSpan?_eq_some hspan).1
    have hplace : placeDocumentation block content = span.before ++ block ++ span.after := by
      rw [placeDocumentation, hspan]
    rw [hplace]
    constructor
    · intro heq
      rw [hcontent] at heq
      exact ⟨span, rfl, (List.append_cancel_left (List.append_cancel_right heq)).symm⟩
    · rintro ⟨found, hfound, rfl⟩
      obtain rfl := Option.some.inj hfound
      exact hcontent.symm

theorem filter_placeDocumentation {block content : List String}
    (hblock : ∀ line ∈ block, isValidationComment line = false)
    (hcontent : ∀ line ∈ content, isValidationComment line = false) :
    (placeDocumentation block content).filter (fun line ↦ !isValidationComment line) =
      placeDocumentation block content := by
  refine List.filter_eq_self.mpr fun line hline ↦ ?_
  have hnone : isValidationComment line = false := by
    obtain h | h | rfl | rfl := mem_placeDocumentation hline
    · exact hcontent line h
    · exact hblock line h
    · decide
    · decide
  rw [hnone]
  rfl

/-- The documentation does not come before lines that are not leading. -/
theorem dropWhile_placeDocumentation {block content : List String}
    (h : ∀ line ∈ content.head?, isLeading line = false) :
    (placeDocumentation block content).dropWhile isLeading = placeDocumentation block content := by
  obtain ⟨before, after, hplace, _, ⟨header, hmem, _⟩, hhead⟩ :=
    placeDocumentation_eq content
  obtain ⟨first, more, rfl⟩ := List.exists_cons_of_ne_nil (List.ne_nil_of_mem hmem)
  have hfirst : isLeading first = false := by
    obtain hhead | hhead := hhead
    · exact h first hhead.symm
    · obtain rfl := Option.some.inj hhead
      decide
  rw [hplace, List.append_assoc, List.cons_append]
  exact List.dropWhile_cons_of_neg (Bool.eq_false_iff.mp hfirst)

theorem eq_of_cons_eq_concat {α : Type} {a b : α} {l : List α} (h : a :: l = l ++ [b]) : a = b := by
  induction l with
  | nil => exact (List.cons.inj h).1
  | cons c rest ih =>
    obtain ⟨rfl, hrest⟩ := List.cons.inj h
    exact ih hrest

/-- The two rows of a generated documentation never come in place of one row and an empty line at
the end. -/
theorem placeDocumentation_ne_concat {first last : String} (hlast : last ≠ "")
    (content : List String) : placeDocumentation [first, last] content ≠ content ++ [""] := by
  intro heq
  have hlength := congrArg List.length heq
  rw [List.length_append, List.length_singleton] at hlength
  cases hspan : documentationSpan? content with
  | none =>
    have hle := length_placeDocumentation hspan [first, last]
    simp only [List.length_cons, List.length_nil] at hle
    omega
  | some span =>
    have hcontent := (documentationSpan?_eq_some hspan).1
    have hplace : placeDocumentation [first, last] content =
        span.before ++ [first, last] ++ span.after := by
      rw [placeDocumentation, hspan]
    rw [hplace, hcontent] at hlength heq
    simp only [List.append_assoc, List.append_cancel_left_eq] at heq
    cases hblock : span.block with
    | nil =>
      rw [hblock] at hlength
      simp only [List.length_append, List.length_cons, List.length_nil] at hlength
      omega
    | cons row more =>
      have hmore : more = [] := by
        rw [hblock] at hlength
        simp only [List.length_append, List.length_cons, List.length_nil] at hlength
        exact List.length_eq_zero_iff.mp (by omega)
      rw [hblock, hmore] at heq
      exact hlast (eq_of_cons_eq_concat (List.cons.inj heq).2)

/-- Lines that a generated documentation is put into stay as they are exactly if they hold it
already and do not end in an empty line. -/
theorem withoutEmptyEnd_placeDocumentation_iff {first last : String} (hlast : last ≠ "")
    (content : List String) :
    withoutEmptyEnd (placeDocumentation [first, last] content) = content ↔
      (∃ span, documentationSpan? content = some span ∧ span.block = [first, last]) ∧
        content.getLast? ≠ some "" := by
  rw [← placeDocumentation_eq_self_iff (List.cons_ne_nil _ _)]
  obtain ⟨hend, heq⟩ | heq := withoutEmptyEnd_cases (placeDocumentation [first, last] content)
  · rw [heq]
    exact ⟨fun hsame ↦ ⟨hsame, hsame ▸ hend⟩, And.left⟩
  · refine ⟨fun hsame ↦ ?_, fun ⟨hsame, hend⟩ ↦ ?_⟩
    · rw [hsame] at heq
      exact absurd heq (placeDocumentation_ne_concat hlast content)
    · rw [hsame] at heq
      refine absurd ?_ hend
      rw [heq, List.getLast?_concat]

/-! ### Lines below a marker -/

theorem Marker.Tiered.lines_joinLines {m : Marker} (hm : m.Tiered) {content : List String}
    (h : ∀ line ∈ content, Chars.IsLine line.toList) :
    lines (joinLines (m.render :: content)) = m.render :: content :=
  lines_intercalate (List.cons_ne_nil _ _) (List.forall_mem_cons.mpr ⟨hm.isLine_render, h⟩)

/-- Lines below a marker are written as they are, up to leading lines and an empty line at the
end. -/
theorem ensureMarker_joinLines {m : Marker} (hm : m.Tiered) {content : List String}
    (h : ∀ line ∈ content, Chars.IsLine line.toList) :
    ensureMarker (joinLines (m.render :: content)) m =
      joinLines (m.render :: withoutEmptyEnd (content.dropWhile isLeading)) := by
  obtain ⟨others, hothers⟩ := m.render_eq_cons
  have hmark : withoutByteOrderMark (joinLines (m.render :: content)) =
      joinLines (m.render :: content) := by
    refine withoutByteOrderMark_eq_self fun hfirst ↦ ?_
    have hhead := head?_of_intercalate (by decide) hfirst
    rw [hothers] at hhead
    cases hhead
  have hunmarked : unmarkedLines (joinLines (m.render :: content)) =
      content.dropWhile isLeading := by
    have hleading : isLeading m.render = true := by
      rw [isLeading, hm.isMarkerLine_render, Bool.or_true]
    rw [unmarkedLines, hmark, hm.lines_joinLines h]
    exact List.dropWhile_cons_of_pos hleading
  rw [ensureMarker_eq_joinLines, hunmarked]

/-- The comment on a check is put right below the marker, instead of those on other checks. -/
theorem annotateValidation_joinLines {m : Marker} (hm : m.Tiered) {content : List String}
    (h : ∀ line ∈ content, Chars.IsLine line.toList) (r : Report) :
    annotateValidation (joinLines (m.render :: content)) r =
      joinLines (m.render :: (commentOn r ++
        content.filter fun line ↦ !isValidationComment line)) := by
  have hfilter : (m.render :: content).filter (fun line ↦ !startsWith line validationStart) =
      m.render :: content.filter fun line ↦ !isValidationComment line := by
    have hkept : (!startsWith m.render validationStart) = true := by
      rw [← isValidationComment, m.isValidationComment_render]
      rfl
    exact List.filter_cons_of_pos hkept
  unfold annotateValidation commentOn
  dsimp only
  rw [hm.lines_joinLines h, hfilter]
  split
  · rfl
  · dsimp only
    rw [if_pos hm.isMarkerLine_render]
    rfl

/-- Whether a line is leading does not depend on the way it ends. -/
theorem isLeading_readBack (line : String) :
    isLeading (readBack line) = isLeading line := by
  unfold readBack Chars.withoutReturn
  split
  next hreturn =>
    obtain ⟨front, hfront⟩ := List.getLast?_eq_some_iff.mp hreturn
    have hblank : isBlank '\r' = true := by decide
    rw [hfront, List.dropLast_concat, isLeading, isLeading, isBlankText, isBlankText, isMarkerLine,
      isMarkerLine, trim, trim, hfront, String.toList_ofList,
      Chars.trim_concat_of_blank hblank, List.all_append, List.all_cons, hblank]
    simp
  next => rw [String.ofList_toList]

theorem isLeading_of_head?_dropWhile {content : List String} {line : String}
    (h : (content.dropWhile isLeading).head? = some line) : isLeading line = false := by
  have hnot := List.head?_dropWhile_not isLeading content
  rw [h] at hnot
  simpa using hnot

/-- Below a marker that was put on a text stands a line that is not leading. -/
theorem lines_marked {m : Marker} (hm : m.Tiered) (content : String) :
    ∃ kept, lines (ensureMarker content m) = m.render :: kept ∧
      ∀ line ∈ kept.head?, isLeading line = false := by
  have hfeed : ∀ line ∈ withoutEmptyEnd (unmarkedLines content), '\n' ∉ line.toList :=
    fun line hline ↦ not_mem_of_mem_unmarkedLines ((withoutEmptyEnd_sublist _).mem hline)
  refine ⟨(withoutEmptyEnd (unmarkedLines content)).map readBack, ?_, ?_⟩
  · rw [ensureMarker_eq_joinLines, lines_joinLines (List.cons_ne_nil _ _)
      (List.forall_mem_cons.mpr ⟨hm.isLine_render.1, hfeed⟩), List.map_cons,
      readBack_eq_self hm.isLine_render]
  · intro line hline
    rw [List.head?_map] at hline
    obtain ⟨first, hfirst, rfl⟩ := Option.map_eq_some_iff.mp hline
    have hhead : (unmarkedLines content).head? = some first := by
      obtain ⟨_, heq⟩ | heq := withoutEmptyEnd_cases (unmarkedLines content)
      · rw [← heq, hfirst]
      · rw [heq, List.head?_append, hfirst]
        rfl
    rw [isLeading_readBack]
    exact isLeading_of_head?_dropWhile hhead

/-! ### Carriage returns -/

/-- The number of carriage returns in a text. -/
def returns (s : String) : Nat :=
  s.toList.count '\r'

/-- The number of carriage returns in lines. -/
def returnsIn (content : List String) : Nat :=
  (content.map returns).sum

@[simp] theorem returnsIn_append (first second : List String) :
    returnsIn (first ++ second) = returnsIn first + returnsIn second := by
  simp [returnsIn]

@[simp] theorem returnsIn_cons (line : String) (rest : List String) :
    returnsIn (line :: rest) = returns line + returnsIn rest := by
  simp [returnsIn]

@[simp] theorem returnsIn_nil : returnsIn [] = 0 := rfl

theorem returns_append (s t : String) : returns (s ++ t) = returns s + returns t := by
  simp [returns]

theorem returnsIn_eq (content : List String) :
    returnsIn content = Chars.lineReturns (content.map String.toList) := by
  rw [Chars.lineReturns, List.map_map]
  rfl

theorem returns_intercalate (content : List String) :
    returns (String.intercalate "\n" content) = returnsIn content := by
  rw [returns, String.toList_intercalate, returnsIn_eq, ← Chars.count_join]
  rfl

theorem returnsIn_lines_le (s : String) : returnsIn (lines s) ≤ returns s := by
  rw [returnsIn_eq, map_toList_lines]
  exact Chars.lineReturns_lines_le _

theorem returnsIn_le_of_sublist {first second : List String} (h : first.Sublist second) :
    returnsIn first ≤ returnsIn second :=
  (h.map returns).sum_le_sum fun _ _ ↦ Nat.zero_le _

theorem returns_joinLines (content : List String) :
    returns (joinLines content) = returnsIn content := by
  rw [joinLines, returns_append, returns_intercalate]
  rfl

theorem returns_eq_zero {s : String} (h : Chars.OneLine s.toList) : returns s = 0 :=
  List.count_eq_zero.mpr fun hmem ↦ (h _ hmem).2 rfl

theorem returns_le_of_sublist {s t : String} (h : s.toList.Sublist t.toList) :
    returns s ≤ returns t :=
  h.count_le _

theorem returns_row {start : String} (h : Chars.OneLine start.toList) (text : String) :
    returns (row [start, text]) = returns text := by
  have hstart : start.toList.count '\r' = 0 := returns_eq_zero h
  rw [returns, toList_row, List.count_append, List.count_append, hstart, returns]
  exact Nat.zero_add _

theorem returns_ensureMarker_le {m : Marker} (hm : m.Tiered) (content : String) :
    returns (ensureMarker content m) ≤ returns content := by
  have hrender := returns_eq_zero hm.oneLine_render
  have hkept : returnsIn (unmarkedLines content) ≤ returns content :=
    calc
      returnsIn (unmarkedLines content) ≤ returnsIn (lines (withoutByteOrderMark content)) :=
        returnsIn_le_of_sublist (List.dropWhile_sublist _)
      _ ≤ returns (withoutByteOrderMark content) := returnsIn_lines_le _
      _ ≤ returns content := by
        refine returns_le_of_sublist ?_
        rw [withoutByteOrderMark, dropStartWhile, String.toList_ofList]
        exact List.dropWhile_sublist _
  have hfeed : returns "\n" = 0 := rfl
  unfold ensureMarker
  dsimp only
  split
  · rw [returns_append, returns_append, returns_intercalate, hrender, hfeed]
    omega
  · rw [returns_append, returns_append, returns_append, returns_intercalate, hrender, hfeed]
    omega

theorem returns_annotateValidation_le (content : String) (r : Report) :
    returns (annotateValidation content r) ≤ returns content := by
  have hcomment := returns_eq_zero (oneLine_validationComment r)
  have hkept : returnsIn ((lines content).filter fun line ↦ !startsWith line validationStart) ≤
      returns content :=
    (returnsIn_le_of_sublist List.filter_sublist).trans (returnsIn_lines_le content)
  unfold annotateValidation
  dsimp only
  split
  · rw [returns_joinLines]
    exact hkept
  · split
    next first rest heq =>
      rw [heq] at hkept
      split <;> rw [returns_joinLines] <;> simp only [returnsIn_cons, hcomment] at hkept ⊢ <;> omega
    next =>
      rw [returns_joinLines, returnsIn_cons, hcomment]
      exact Nat.zero_le _

/-! ### What stands at the end -/

theorem suffix_dropWhile {α : Type} {p : α → Bool} {a : α} {rest content : List α}
    (ha : p a = false) (h : a :: rest <:+ content) : a :: rest <:+ content.dropWhile p := by
  obtain ⟨front, rfl⟩ := h
  rw [List.dropWhile_append]
  split
  · exact ⟨[], (List.dropWhile_cons_of_neg (Bool.eq_false_iff.mp ha)).symm⟩
  · exact List.suffix_append _ _

theorem suffix_withoutEmptyEnd {line : String} {rest content : List String} (hline : line ≠ "")
    (h : line :: rest <:+ content) : line :: withoutEmptyEnd rest <:+ withoutEmptyEnd content := by
  obtain ⟨front, rfl⟩ := h
  refine ⟨front, ?_⟩
  rw [← withoutEmptyEnd_cons hline]
  unfold withoutEmptyEnd
  rw [List.getLast?_append_of_ne_nil _ (List.cons_ne_nil _ _),
    List.dropLast_append_of_ne_nil (List.cons_ne_nil _ _)]
  split <;> rfl

theorem suffix_lines_joinLines {line : String} {rest content : List String}
    (hline : Chars.IsLine line.toList) (hcontent : ∀ line ∈ content, '\n' ∉ line.toList)
    (h : line :: rest <:+ content) : line :: rest.map readBack <:+ lines (joinLines content) := by
  have hne : content ≠ [] := by
    rintro rfl
    cases List.suffix_nil.mp h
  rw [lines_joinLines hne hcontent]
  simpa only [List.map_cons, readBack_eq_self hline] using h.map readBack

/-- How the row of a title reads: it is neither a marker nor a comment, and it starts with no byte
order mark. -/
structure IsTitleRow (line : String) : Prop where
  isLine : Chars.IsLine line.toList
  start : line.toList.head? = some 'D'

theorem IsTitleRow.ne_empty {line : String} (h : IsTitleRow line) : line ≠ "" := by
  rintro rfl
  cases h.start

theorem IsTitleRow.isMarkerLine {line : String} (h : IsTitleRow line) :
    isMarkerLine line = false := by
  have hmarker : markerStart.toList.head? = some '#' := by decide
  have htrim : (trim line).toList.head? = some 'D' := by
    rw [trim, String.toList_ofList]
    exact head?_trim h.start (by decide)
  exact startsWith_eq_false htrim hmarker (by decide)

theorem IsTitleRow.isLeading {line : String} (h : IsTitleRow line) : isLeading line = false := by
  have hblank : isBlankText line = false := by
    obtain ⟨rest, hrest⟩ := List.head?_eq_some_iff.mp h.start
    rw [isBlankText, hrest]
    rfl
  rw [Robot.isLeading, hblank, h.isMarkerLine]
  rfl

theorem IsTitleRow.isValidationComment {line : String} (h : IsTitleRow line) :
    isValidationComment line = false := by
  have hcomment : validationStart.toList.head? = some '#' := by decide
  exact startsWith_eq_false h.start hcomment (by decide)

theorem isTitleRow_row {title : String} (h : Chars.IsLine title.toList) :
    IsTitleRow (row ["Documentation", title]) where
  isLine := isLine_row (by decide) h
  start := by rw [toList_row]; rfl

theorem suffix_annotateValidation {line content : String} {rest : List String}
    (hline : IsTitleRow line) (h : line :: rest <:+ lines content) (r : Report) :
    line :: (rest.filter fun line ↦ !isValidationComment line).map readBack <:+
      lines (annotateValidation content r) := by
  have hkept : line :: rest.filter (fun line ↦ !isValidationComment line) <:+
      (lines content).filter fun line ↦ !isValidationComment line := by
    have hfilter := h.filter fun line ↦ !isValidationComment line
    rwa [List.filter_cons_of_pos (by simp [hline.isValidationComment])] at hfilter
  have hfeed : ∀ line ∈ (lines content).filter (fun line ↦ !isValidationComment line),
      '\n' ∉ line.toList :=
    fun line hmem ↦ not_mem_of_mem_lines (List.mem_of_mem_filter hmem)
  have hcomment : '\n' ∉ (validationComment r).toList := (oneLine_validationComment r).isLine.1
  unfold isValidationComment at hkept hfeed
  unfold annotateValidation
  dsimp only
  split
  · exact suffix_lines_joinLines hline.isLine hfeed hkept
  · split
    next first more heq =>
      rw [heq] at hkept hfeed
      obtain ⟨hfirst, hmore⟩ := List.forall_mem_cons.mp hfeed
      split
      next hmarker =>
        refine suffix_lines_joinLines hline.isLine
          (List.forall_mem_cons.mpr ⟨hfirst, List.forall_mem_cons.mpr ⟨hcomment, hmore⟩⟩) ?_
        obtain hkept | hkept := List.suffix_cons_iff.mp hkept
        · rw [← (List.cons.inj hkept).1, hline.isMarkerLine] at hmarker
          cases hmarker
        · exact (hkept.trans (List.suffix_cons _ _)).trans (List.suffix_cons _ _)
      next =>
        exact suffix_lines_joinLines hline.isLine (List.forall_mem_cons.mpr ⟨hcomment, hfeed⟩)
          (hkept.trans (List.suffix_cons _ _))
    next heq =>
      rw [heq] at hkept
      cases List.suffix_nil.mp hkept

theorem suffix_unmarkedLines {line content : String} {rest : List String}
    (hline : IsTitleRow line) (h : line :: rest <:+ lines content) :
    line :: rest <:+ unmarkedLines content := by
  refine suffix_dropWhile hline.isLeading ?_
  have hchars : line.toList :: rest.map String.toList <:+ Chars.lines content.toList := by
    rw [← map_toList_lines]
    exact h.map String.toList
  have hmark : ∀ c ∈ line.toList.head?, (c.toNat == 0xFEFF) = false := by
    rw [hline.start]
    rintro _ ⟨⟩
    rfl
  have hdropped := (Chars.suffix_lines_dropWhile rfl rfl hmark hchars).map String.ofList
  rw [List.map_cons, map_ofList_map_toList, String.ofList_toList] at hdropped
  rwa [lines, withoutByteOrderMark, dropStartWhile, String.toList_ofList]

theorem suffix_ensureMarker {line content : String} {rest : List String} (hline : IsTitleRow line)
    (h : line :: rest <:+ lines content) {m : Marker} (hm : m.Tiered) :
    line :: (withoutEmptyEnd rest).map readBack <:+ lines (ensureMarker content m) := by
  have hfeed : ∀ line ∈ withoutEmptyEnd (unmarkedLines content), '\n' ∉ line.toList :=
    fun line hmem ↦ not_mem_of_mem_unmarkedLines ((withoutEmptyEnd_sublist _).mem hmem)
  rw [ensureMarker_eq_joinLines]
  refine suffix_lines_joinLines hline.isLine
    (List.forall_mem_cons.mpr ⟨hm.isLine_render.1, hfeed⟩) ?_
  exact (suffix_withoutEmptyEnd hline.ne_empty (suffix_unmarkedLines hline h)).trans
    (List.suffix_cons _ _)

/-- Below the row of the title stands what does not depend on the title. -/
theorem suffix_renewDocumentation (base : String) {note : String}
    (hnote : Chars.IsLine note.toList) :
    ∃ rest, ∀ title : String, Chars.IsLine title.toList →
      row ["Documentation", title] :: rest <:+ lines (renewDocumentation base [title, note]) := by
  obtain ⟨before, after, hplace, _⟩ := placeDocumentation_eq (lines base)
  refine ⟨(row ["...", note] :: after).map readBack, fun title htitle ↦ ?_⟩
  refine suffix_lines_joinLines (isTitleRow_row htitle).isLine (fun line hline ↦ ?_) ?_
  · obtain h | h | rfl | rfl := mem_placeDocumentation hline
    · exact not_mem_of_mem_lines h
    · exact (isLine_documentationBlock htitle hnote line h).1
    · decide
    · decide
  · rw [hplace, List.append_assoc]
    exact List.suffix_append _ _

end SuiteMigration.Robot
