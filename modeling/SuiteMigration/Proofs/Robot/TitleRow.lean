import Mathlib.Data.Bool.AllAny
import SuiteMigration.Proofs.Robot.BodyLines
import SuiteMigration.Proofs.Robot.Cell
import SuiteMigration.Proofs.Robot.Rendering
import SuiteMigration.Proofs.Robot.RowCells

/-!
The title of a file, from the row of its documentation and back. The row is written with the escapes
of a cell, which leave a bar between two spaces as it is; a reader of rows takes such a bar for the
end of a cell, and it skips a cell that starts like the note of a generated file. So no title that
is read holds the one or starts like the other, and a title that does neither is read back.
-/

set_option autoImplicit false
set_option relaxedAutoImplicit false

namespace SuiteMigration.Chars

open SuiteMigration.Text

theorem infix_trim (cs : List Char) : trim cs <:+: cs :=
  (Robot.isPrefix_trimEnd _).isInfix.trans (List.dropWhile_suffix _).isInfix

theorem isBlank_of_head?_trim {cs : List Char} {c : Char} (h : (trim cs).head? = some c) :
    isBlank c = false := by
  have hhead := List.head?_dropWhile_not isBlank cs
  rw [← trimStart, Robot.head?_of_trimEnd h] at hhead
  simpa using hhead

end SuiteMigration.Chars

namespace SuiteMigration.Robot

open SuiteMigration.Text SuiteMigration.Keyword

/-! ### Escapes in a title -/

/-- A character that is written behind a backslash, wherever it stands or in front of a brace. -/
def takesBackslash (c : Char) : Bool :=
  c == '\\' || c == '#' || isVariableMarker c

/-- What is written for a text with backslashes in front of some of the characters that may have
one, and with nothing else changed. -/
inductive Escaped : List Char → List Char → Prop where
  | nil : Escaped [] []
  | plain (c : Char) {cs written : List Char} : Escaped cs written →
      Escaped (c :: cs) (c :: written)
  | escaped {c : Char} {cs written : List Char} : takesBackslash c = true → Escaped cs written →
      Escaped (c :: cs) ('\\' :: c :: written)

/-- Single spaces are written as they are. -/
theorem escaped_escapeFrom {isFirst : Bool} {cs : List Char} (h : Chars.SingleSpaced cs)
    (hfirst : isFirst = true → cs.head? ≠ some ' ') : Escaped cs (escapeFrom isFirst cs) := by
  induction h generalizing isFirst with
  | nil => exact .nil
  | @cons c rest hblank _ ih =>
    have hmore : Escaped rest (escapeFrom false rest) := ih nofun
    obtain ⟨written, heq, hwritten⟩ := escapeFrom_cons isFirst c rest
    by_cases hspace : c = ' '
    · subst hspace
      obtain ⟨_, d, hd, hvisible⟩ := hblank isBlank_space
      obtain ⟨more, rfl⟩ := List.head?_eq_some_iff.mp hd
      have hstart : isFirst = false := Bool.eq_false_iff.mpr fun hstart ↦ hfirst hstart rfl
      have hnext : d ≠ ' ' := by
        rintro rfl
        cases hvisible
      have hself : escapeChar isFirst ' ' (d :: more) = [' '] := by
        simp [escapeChar, isVariableMarker, hstart, hnext]
      rw [escapeFrom, hself]
      exact .plain ' ' hmore
    · rw [heq]
      cases hwritten with
      | space blank => exact absurd blank hspace
      | plain => exact .plain c hmore
      | @escaped d image =>
        unfold unescapedChar? at image
        split_ifs at image with hescapable hfeed htab
        · obtain rfl := Option.some.inj image
          exact .escaped hescapable hmore
        · obtain rfl := Option.some.inj image
          exact absurd (hblank (by decide)).1 hspace
        · obtain rfl := Option.some.inj image
          exact absurd (hblank (by decide)).1 hspace

section Escaped

variable {cs written : List Char} (h : Escaped cs written)

include h

theorem Escaped.isBlank_of_head? (hhead : ∀ c ∈ cs.head?, isBlank c = false) :
    ∀ c ∈ written.head?, isBlank c = false := by
  cases h with
  | nil => exact nofun
  | plain c => exact hhead
  | escaped =>
    rintro _ ⟨⟩
    decide

theorem Escaped.singleSpaced (hspaced : Chars.SingleSpaced cs) : Chars.SingleSpaced written := by
  have hvisible {c : Char} (hc : takesBackslash c = true) : isBlank c = false := by
    simp only [takesBackslash, isVariableMarker, Bool.or_eq_true, beq_iff_eq] at hc
    obtain (rfl | rfl) | ((rfl | rfl) | rfl) | rfl := hc <;> decide
  induction h with
  | nil => exact .nil
  | plain c hmore ih =>
    cases hspaced with
    | cons hblank hrest =>
      refine .cons (fun hc ↦ ⟨(hblank hc).1, ?_⟩) (ih hrest)
      obtain ⟨_, d, hd, hnext⟩ := hblank hc
      cases hmore with
      | nil => cases hd
      | plain => exact ⟨d, hd, hnext⟩
      | escaped => exact ⟨'\\', rfl, by decide⟩
  | escaped hc _ ih =>
    cases hspaced with
    | cons _ hrest =>
      refine .cons (fun hblank ↦ absurd hblank (by decide)) (.cons (fun hblank ↦ ?_) (ih hrest))
      rw [hvisible hc] at hblank
      cases hblank

/-- How a text starts can be told from what is written, up to characters with a backslash. -/
theorem Escaped.prefix_iff {part : List Char} (hpart : ∀ c ∈ part, takesBackslash c = false) :
    part <+: written ↔ part <+: cs := by
  induction h generalizing part with
  | nil => rfl
  | @plain c rest _ _ ih =>
    cases part with
    | nil => simp
    | cons d more =>
      rw [List.cons_prefix_cons, List.cons_prefix_cons, ih (List.forall_mem_cons.mp hpart).2]
  | @escaped c _ _ hc _ _ =>
    cases part with
    | nil => simp
    | cons d more =>
      have hd := hpart d List.mem_cons_self
      rw [List.cons_prefix_cons, List.cons_prefix_cons]
      refine iff_of_false ?_ ?_
      · rintro ⟨rfl, _⟩
        cases hd
      · rintro ⟨rfl, _⟩
        rw [hc] at hd
        cases hd

theorem Escaped.infix_iff {part : List Char} (hpart : ∀ c ∈ part, takesBackslash c = false)
    (hne : part ≠ []) : part <:+: written ↔ part <:+: cs := by
  obtain ⟨d, more, rfl⟩ := List.exists_cons_of_ne_nil hne
  have hd : takesBackslash d = false := hpart d List.mem_cons_self
  have hmismatch {c : Char} (hc : takesBackslash c = true) (rest : List Char) :
      ¬ d :: more <+: c :: rest := by
    rw [List.cons_prefix_cons]
    rintro ⟨rfl, _⟩
    rw [hd] at hc
    cases hc
  induction h with
  | nil => exact Iff.rfl
  | plain c hrest ih =>
    have hprefix := (Escaped.plain c hrest).prefix_iff hpart
    exact List.infix_cons_iff.trans ((or_congr hprefix ih).trans List.infix_cons_iff.symm)
  | @escaped c rest others hc hrest ih =>
    have hbackslash : d :: more <:+: '\\' :: c :: others ↔ d :: more <:+: c :: others :=
      List.infix_cons_iff.trans (or_iff_right (hmismatch rfl _))
    have hwritten : d :: more <:+: c :: others ↔ d :: more <:+: others :=
      List.infix_cons_iff.trans (or_iff_right (hmismatch hc _))
    have htext : d :: more <:+: c :: rest ↔ d :: more <:+: rest :=
      List.infix_cons_iff.trans (or_iff_right (hmismatch hc _))
    exact hbackslash.trans (hwritten.trans (ih.trans htext.symm))

end Escaped

theorem collapse_ne_empty {text : String} (h : isBlankText text = false) : collapse text ≠ "" := by
  obtain ⟨c, hc, hvisible⟩ := List.all_eq_false.mp h
  obtain ⟨word, hword, hmem⟩ := Chars.exists_mem_words hc (Bool.eq_false_iff.mpr hvisible)
  intro hempty
  have hchars := Chars.mem_join_of_mem hword hmem [' ']
  rw [collapse, ← String.toList_inj, String.toList_ofList, Chars.collapse] at hempty
  rw [hempty] at hchars
  cases hchars

theorem escaped_documentationCell {text : String} (h : isBlankText text = false) :
    Escaped (collapse text).toList (documentationCell text).toList := by
  obtain ⟨hspaced, hhead⟩ := Chars.singleSpaced_collapse text.toList
  rw [documentationCell, toList_escapeCell (collapse_ne_empty h), collapse, String.toList_ofList]
  refine escaped_escapeFrom hspaced fun _ hspace ↦ ?_
  exact absurd (hhead ' ' hspace) (by decide)

/-! ### Titles that are read -/

/-- A title as it can be read: no bar stands alone between two of its words, where a reader would
end the cell, and it does not start like the note of a generated file, which a reader skips. -/
structure IsReadableTitle (title : String) : Prop where
  cell : contains title " | " = false
  note : startsWith title noteStart = false

theorem contains_eq_false_iff {text : String} :
    contains text " | " = false ↔ ¬ barredSpace <:+: text.toList := by
  rw [← Bool.not_eq_true]
  exact not_congr Chars.contains_iff

/-- Whatever file it comes from, a title that is read is such a title, and starts with a character
that is not white space. -/
theorem isReadableTitle_of_existingTitle? {content title : String}
    (h : existingTitle? content = some title) :
    IsReadableTitle title ∧ ∃ c, title.toList.head? = some c ∧ isBlank c = false := by
  obtain ⟨span, _, hfind⟩ := Option.bind_eq_some_iff.mp h
  have hkept := List.find?_some hfind
  rw [Bool.and_eq_true, Bool.not_eq_true', Bool.not_eq_true'] at hkept
  obtain ⟨line, _, hcell⟩ := List.mem_flatMap.mp (List.mem_of_find?_eq_some hfind)
  obtain ⟨cell, hmem, rfl⟩ := List.mem_map.mp hcell
  have hbar := not_infix_of_mem_splitCells (List.mem_of_mem_tail hmem)
  obtain ⟨c, rest, hcons⟩ : ∃ c rest, (trim cell).toList = c :: rest := by
    refine List.exists_cons_of_ne_nil fun hnil ↦ ?_
    rw [String.toList_inj.mp (hnil.trans String.toList_empty.symm)] at hkept
    exact Bool.noConfusion hkept.1
  have hhead : (trim cell).toList.head? = some c := by rw [hcons]; rfl
  refine ⟨⟨contains_eq_false_iff.mpr fun hinfix ↦ hbar ?_, hkept.2⟩, c, hhead, ?_⟩
  · rw [trim, String.toList_ofList] at hinfix
    exact hinfix.trans (Chars.infix_trim _)
  · rw [trim, String.toList_ofList] at hhead
    exact Chars.isBlank_of_head?_trim hhead

/-- The title that a file is given starts with a character that is not white space. -/
theorem exists_head?_titleOf (content path : String) :
    ∃ c, (titleOf content path).toList.head? = some c ∧ isBlank c = false := by
  unfold titleOf
  cases htitle : existingTitle? content with
  | some title => exact (isReadableTitle_of_existingTitle? htitle).2
  | none =>
    refine ⟨'M', ?_, by decide⟩
    rw [Option.getD_none, fallbackTitle, String.toList_append]
    rfl

/-! ### Settings that start with a title -/

/-- The first row of the documentation setting that a reader finds. -/
def documentationLine? (content : String) : Option String :=
  (documentationSpan? (lines content)).bind fun span ↦ span.block.head?

/-- Lines with a marker on the first one and the row of a title at the start of the settings. -/
def titledLines (m : Marker) (title : String) (more : List String) : List String :=
  m.render :: "*** Settings ***" :: row ["Documentation", title] :: more

section Titled

variable {content title : String} {m : Marker} {more : List String} {c : Char}
  (hlines : lines content = titledLines m title more) (hhead : title.toList.head? = some c)
  (hc : isBlank c = false)

include hhead hc

theorem splitCells_documentationRow :
    splitCells (row ["Documentation", title]) = "Documentation" :: splitCells title :=
  splitCells_row (Chars.isBlank_of_any (by decide)) hhead hc

theorem documentationSpan?_titledLines (m : Marker) (more : List String) :
    documentationSpan? (titledLines m title more) = some
      ⟨[m.render, "*** Settings ***"],
        row ["Documentation", title] :: more.takeWhile isContinuation,
        more.dropWhile isContinuation⟩ := by
  have hname : sectionName? (row ["Documentation", title]) = none := by
    have hink : ink? (row ["Documentation", title]) = some 'D' :=
      ink?_row (by decide) (by decide) title
    have hheader := isHeader_eq_false_of_ink? hink (by decide)
    simpa [isHeader] using hheader
  have hrow : isDocumentationRow (row ["Documentation", title]) = true := by
    rw [isDocumentationRow, splitCells_documentationRow hhead hc, List.headD_cons]
    decide
  rw [titledLines, documentationSpan?_cons m.isHeader_render,
    documentationSpan?_settings_cons (by decide), documentationSpanFrom, hname, hrow]
  rfl

include hlines

theorem documentationLine?_of_titledLines :
    documentationLine? content = some (row ["Documentation", title]) := by
  rw [documentationLine?, hlines, documentationSpan?_titledLines hhead hc]
  rfl

/-- A reader looks for the title in the cells of the title first. -/
theorem existingTitle?_of_titledLines : ∃ others, existingTitle? content =
    ((splitCells title).map trim ++ others).find? fun cell ↦
      !cell.isEmpty && !startsWith cell noteStart := by
  refine ⟨(more.takeWhile isContinuation).flatMap fun line ↦ (splitCells line).tail.map trim, ?_⟩
  rw [existingTitle?, hlines, documentationSpan?_titledLines hhead hc]
  simp only [Option.bind_eq_bind, Option.bind_some, List.flatMap_cons,
    splitCells_documentationRow hhead hc, List.tail_cons]

omit hlines in
/-- The first cell of a title starts where the title does. -/
theorem exists_cells_eq : ∃ cell others, (splitCells title).map trim = cell :: others ∧
    cell.toList.head? = some c ∧ cell.toList <+: title.toList := by
  obtain ⟨tail, htail⟩ := List.head?_eq_some_iff.mp hhead
  have hkept : Chars.trimEnd title.toList = c :: Chars.trimEnd tail := by
    rw [htail]
    exact Chars.trimEnd_append_cons hc [] tail
  obtain ⟨first, others, hsplit, hprefix⟩ :=
    exists_splitPieces_piecesFrom cellSeparator (some c) (Chars.trimEnd tail)
  have hcells : splitCells title = String.ofList (c :: first) :: others.map String.ofList := by
    rw [splitCells, hkept, if_neg (by simp), splitAtOccurrences, pieces, piecesFrom,
      cellSeparator_eq_none hc]
    dsimp only
    rw [splitPieces, hsplit]
    rfl
  have htrim : Chars.trim (c :: first) = c :: Chars.trimEnd first :=
    Chars.trim_append_cons hc [] first
  refine ⟨trim (String.ofList (c :: first)), _, by rw [hcells]; rfl, ?_, ?_⟩
  · rw [trim, String.toList_ofList, String.toList_ofList, htrim]
    rfl
  · rw [trim, String.toList_ofList, String.toList_ofList, htrim]
    have hcell : c :: Chars.trimEnd first <+: c :: Chars.trimEnd tail :=
      (List.prefix_cons_inj c).mpr ((isPrefix_trimEnd first).trans hprefix)
    rw [← hkept] at hcell
    exact hcell.trans (isPrefix_trimEnd title.toList)

/-- A reader finds some title, unless the title that is written starts like the note. -/
theorem existingTitle?_ne_none (hnote : startsWith title noteStart = false) :
    existingTitle? content ≠ none := by
  obtain ⟨others, heq⟩ := existingTitle?_of_titledLines hlines hhead hc
  obtain ⟨cell, more, hcells, hfirst, hprefix⟩ := exists_cells_eq hhead hc
  have hempty : cell.isEmpty = false := by
    rw [← Bool.not_eq_true, String.isEmpty_iff]
    rintro rfl
    cases hfirst
  have hcell : startsWith cell noteStart = false := by
    by_contra hstart
    have hlonger := (startsWith_iff.mp (Bool.not_eq_false _ ▸ hstart)).trans hprefix
    rw [startsWith_iff.mpr hlonger] at hnote
    cases hnote
  rw [heq, hcells, List.cons_append, List.find?_cons_of_pos (by rw [hempty, hcell]; rfl)]
  exact Option.some_ne_none _

/-- The title that is written is read back exactly if it is one that can be read. -/
theorem existingTitle?_eq_some_iff (hspaced : Chars.SingleSpaced title.toList) :
    existingTitle? content = some title ↔ IsReadableTitle title := by
  refine ⟨fun h ↦ (isReadableTitle_of_existingTitle? h).1, fun h ↦ ?_⟩
  obtain ⟨others, heq⟩ := existingTitle?_of_titledLines hlines hhead hc
  have hne : title ≠ "" := by
    rintro rfl
    cases hhead
  have htrim : trim title = title := by
    rw [trim, Chars.trim_eq_self ?_ hspaced.isBlank_getLast, String.ofList_toList]
    rw [hhead]
    rintro _ ⟨⟩
    exact hc
  have hempty : title.isEmpty = false := by simpa using hne
  rw [heq, splitCells_eq_singleton hne hspaced (contains_eq_false_iff.mp h.cell),
    List.map_singleton, htrim, List.singleton_append,
    List.find?_cons_of_pos (by rw [hempty, h.note]; rfl)]

theorem titleOf_eq_iff (hspaced : Chars.SingleSpaced title.toList) (path : String) :
    titleOf content path = title ↔ IsReadableTitle title := by
  constructor
  · intro h
    unfold titleOf at h
    cases hexisting : existingTitle? content with
    | some found =>
      rw [hexisting, Option.getD_some] at h
      exact h ▸ (isReadableTitle_of_existingTitle? hexisting).1
    | none =>
      -- a title like that for a path does not start like the note, so there would be one to find
      rw [hexisting, Option.getD_none] at h
      refine absurd hexisting (existingTitle?_ne_none hlines hhead hc ?_)
      rw [← h, fallbackTitle]
      exact startsWith_eq_false (c := 'M') (d := 'G') (by rw [String.toList_append]; rfl)
        (by decide) (by decide)
  · intro h
    rw [titleOf, (existingTitle?_eq_some_iff hlines hhead hc hspaced).mpr h]
    rfl

end Titled

/-- A new marker takes the place of the marker in front of a header. -/
theorem lines_ensureMarker_marked {m n : Marker} (hm : m.Tiered) (hn : n.Tiered) {header : String}
    {rest : List String} (hheader : isHeader header = true)
    (hfeed : ∀ line ∈ m.render :: header :: rest, '\n' ∉ line.toList) :
    lines (ensureMarker (joinLines (m.render :: header :: rest)) n) =
      n.render :: (withoutEmptyEnd ((header :: rest).map readBack)).map readBack := by
  have hunmarked : unmarkedLines (joinLines (m.render :: header :: rest)) =
      (header :: rest).map readBack := by
    have hleading : isLeading (readBack header) = false :=
      isLeading_of_isHeader (by rwa [isHeader, sectionName?_readBack])
    rw [unmarkedLines_joinLines_of_isMarkerLine hm.isMarkerLine_render hfeed, List.map_cons]
    exact List.dropWhile_cons_of_neg (Bool.eq_false_iff.mp hleading)
  have hwritten : ∀ line ∈ withoutEmptyEnd (unmarkedLines
      (joinLines (m.render :: header :: rest))), '\n' ∉ line.toList :=
    fun line hline ↦ not_mem_of_mem_unmarkedLines ((withoutEmptyEnd_sublist _).mem hline)
  rw [hunmarked] at hwritten
  rw [ensureMarker_eq_joinLines, hunmarked, lines_joinLines (List.cons_ne_nil _ _)
    (List.forall_mem_cons.mpr ⟨hn.isLine_render.1, hwritten⟩), List.map_cons,
    readBack_eq_self hn.isLine_render]

/-- A refresh writes the title anew and leaves it where it is. -/
theorem exists_lines_refreshed {content title new : String} {m n : Marker} {more : List String}
    {c : Char} (hlines : lines content = titledLines m title more)
    (hhead : title.toList.head? = some c) (hc : isBlank c = false) (hm : m.Tiered) (hn : n.Tiered)
    (hnew : Chars.IsLine new.toList) :
    ∃ rest, lines (ensureMarker
      (renewDocumentation content [new, generatedNote n.mode n.tier]) n) =
        titledLines n new rest := by
  have hblock := isLine_documentationBlock hnew (oneLine_generatedNote hn n.mode).isLine
  obtain ⟨after, hplaced⟩ : ∃ after, placeDocumentation
      (documentationBlock [new, generatedNote n.mode n.tier]) (lines content) =
        m.render :: "*** Settings ***" :: row ["Documentation", new] :: after := by
    rw [hlines, placeDocumentation, documentationSpan?_titledLines hhead hc]
    exact ⟨_, rfl⟩
  have hfeed : ∀ line ∈ m.render :: "*** Settings ***" :: row ["Documentation", new] :: after,
      '\n' ∉ line.toList := by
    rw [← hplaced]
    intro line hline
    obtain h | h | rfl | rfl := mem_placeDocumentation hline
    · exact not_mem_of_mem_lines h
    · exact (hblock line h).1
    · decide
    · decide
  have hrow : Chars.IsLine (row ["Documentation", new]).toList := hblock _ List.mem_cons_self
  have hheader : Chars.IsLine "*** Settings ***".toList := by decide
  rw [renewDocumentation, hplaced, lines_ensureMarker_marked hm hn (by decide) hfeed, List.map_cons,
    List.map_cons, readBack_eq_self hheader, readBack_eq_self hrow,
    withoutEmptyEnd_cons (by decide), withoutEmptyEnd_cons (row_ne_empty _ _), List.map_cons,
    List.map_cons, readBack_eq_self hheader, readBack_eq_self hrow]
  exact ⟨_, rfl⟩

/-- After a forced refresh the documentation starts with the title that the refresh found. -/
theorem documentationLine?_applyTier {content title : String} {m : Marker} {more : List String}
    {c : Char} (hlines : lines content = titledLines m title more)
    (hhead : title.toList.head? = some c) (hc : isBlank c = false) (hm : m.Tiered)
    {request : TierRequest} (htier : request.tier = .quickRefresh) (hforce : request.force = true)
    (fresh : Option String) : documentationLine? (applyTier content request fresh).content =
      some (row ["Documentation", titleOf content request.path]) := by
  have htitle : Chars.IsLine (titleOf content request.path).toList := by
    rw [titleOf_eq]
    exact isLine_tierTitle _ _ _
  obtain ⟨first, hfirst, hvisible⟩ := exists_head?_titleOf content request.path
  obtain ⟨rest, hrest⟩ := exists_lines_refreshed hlines hhead hc hm
    (tierMarker_tiered content request fresh) htitle
  rw [applyTier_of_force content hforce, content_quickRefresh content htier fresh]
  exact documentationLine?_of_titledLines hrest hfirst hvisible

/-! ### Rendered files -/

theorem exists_head?_documentationCell {text : String} (h : isBlankText text = false) :
    ∃ c, (documentationCell text).toList.head? = some c ∧ isBlank c = false := by
  obtain ⟨_, hhead⟩ := Chars.singleSpaced_collapse text.toList
  have hcell := (escaped_documentationCell h).isBlank_of_head? (by
    rw [collapse, String.toList_ofList]
    exact hhead)
  obtain ⟨c, rest, hcons⟩ : ∃ c rest, (documentationCell text).toList = c :: rest := by
    refine List.exists_cons_of_ne_nil ?_
    rw [documentationCell, toList_escapeCell (collapse_ne_empty h)]
    exact escapeFrom_ne_nil true (by simpa using collapse_ne_empty h)
  rw [hcons] at hcell ⊢
  exact ⟨c, rfl, hcell c rfl⟩

theorem singleSpaced_documentationCell {text : String} (h : isBlankText text = false) :
    Chars.SingleSpaced (documentationCell text).toList := by
  refine (escaped_documentationCell h).singleSpaced ?_
  rw [collapse, String.toList_ofList]
  exact (Chars.singleSpaced_collapse text.toList).1

/-- A bar that stands alone, and the start of the note, are written as they are. -/
theorem isReadableTitle_documentationCell_iff {text : String} (h : isBlankText text = false) :
    IsReadableTitle (documentationCell text) ↔ IsReadableTitle (collapse text) := by
  have hescaped := escaped_documentationCell h
  have hbar : barredSpace <:+: (documentationCell text).toList ↔
      barredSpace <:+: (collapse text).toList :=
    hescaped.infix_iff (List.all_iff_forall_prop.mp (by decide)) (by decide)
  have hnote : startsWith (documentationCell text) noteStart =
      startsWith (collapse text) noteStart := by
    rw [Bool.eq_iff_iff, startsWith_iff, startsWith_iff]
    exact hescaped.prefix_iff (List.all_iff_forall_prop.mp (by decide))
  constructor
  · intro ⟨hcell, hstart⟩
    exact ⟨contains_eq_false_iff.mpr (mt hbar.mpr (contains_eq_false_iff.mp hcell)),
      hnote.symm.trans hstart⟩
  · intro ⟨hcell, hstart⟩
    exact ⟨contains_eq_false_iff.mpr (mt hbar.mp (contains_eq_false_iff.mp hcell)),
      hnote.trans hstart⟩

theorem isLine_documentationCell {text : String} (h : isBlankText text = false) :
    Chars.IsLine (documentationCell text).toList := by
  refine ⟨unbroken_escapeCell (collapse text), fun hreturn ↦ ?_⟩
  have hlast := (singleSpaced_documentationCell h).isBlank_getLast '\r' hreturn
  exact absurd hlast (by decide)

/-- The text of a file starts with its marker and the settings, and these with the title. -/
theorem File.exists_lines_eq_titledLines {f : File} {m : Marker} {title : String}
    {rest : List String} (hmarker : f.marker = some m) (hm : m.Tiered) (hheader : f.header = [])
    (hdocumentation : f.documentation = title :: rest) (htitle : isBlankText title = false) :
    ∃ more, Text.lines f.render = titledLines m (documentationCell title) more := by
  obtain ⟨more, hlines⟩ : ∃ more, f.lines = titledLines m (documentationCell title) more := by
    rw [File.lines, hmarker, hheader, hdocumentation]
    exact ⟨_, rfl⟩
  have hkept {line : String} (hline : Chars.IsLine line.toList) :
      Text.lines (line ++ "\n") = [line] := by
    rw [lines_of_unbroken hline.1, readBack_eq_self hline]
  rw [f.lines_render, hlines, titledLines, List.flatMap_cons, List.flatMap_cons, List.flatMap_cons,
    hkept hm.isLine_render, hkept (by decide),
    hkept (isLine_row (by decide) (isLine_documentationCell htitle))]
  exact ⟨_, rfl⟩

end SuiteMigration.Robot
