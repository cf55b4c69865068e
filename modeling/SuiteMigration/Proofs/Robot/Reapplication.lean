import SuiteMigration.Proofs.Robot.Rewriting

/-!
What a tier does to the content that it has written itself. A tier that is recorded is skipped; one
that runs again, because it is forced or because regeneration had no fresh content, reads title,
documentation, comment and marker back from its own output. Regeneration writes the same content
again exactly if it finds the same title again. The other tiers do so exactly if their output is
settled, and not every output is: a file that ends in several blank lines loses one of them each
time.
-/

set_option autoImplicit false
set_option relaxedAutoImplicit false

namespace SuiteMigration.Robot

open SuiteMigration.Text

/-! ### What a tier writes -/

/-- What is left of a text without the white space around it does not end in white space. -/
theorem isBlank_getLast_trim {s : String} {c : Char} (h : (trim s).toList.getLast? = some c) :
    isBlank c = false := by
  rw [trim, String.toList_ofList, Chars.trim, Chars.trimEnd, Chars.dropEndWhile,
    List.getLast?_reverse] at h
  have hhead := List.head?_dropWhile_not isBlank (Chars.trimStart s.toList).reverse
  rw [h] at hhead
  simpa using hhead

theorem isLine_existingTitle {content title : String} (h : existingTitle? content = some title) :
    Chars.IsLine title.toList := by
  obtain ⟨span, hspan, line, hline, hpart⟩ := exists_line_of_existingTitle? h
  have hlines : line ∈ lines content := by
    rw [(documentationSpan?_eq_some hspan).1]
    exact List.mem_append_left _ (List.mem_append_right _ hline)
  refine ⟨fun hfeed ↦ ?_, fun hlast ↦ ?_⟩
  · exact not_mem_of_mem_lines hlines (hpart.mem hfeed)
  · obtain ⟨_, _, hfind⟩ := Option.bind_eq_some_iff.mp h
    obtain ⟨_, _, hcell⟩ := List.mem_flatMap.mp (List.mem_of_find?_eq_some hfind)
    obtain ⟨cell, _, rfl⟩ := List.mem_map.mp hcell
    exact absurd (isBlank_getLast_trim hlast) (by decide)

/-- The title that a tier writes: the one that the file has, or else the one that the text has on
which the tier works, or else one made from the path. -/
def tierTitle (existing base path : String) : String :=
  (existingTitle? existing <|> existingTitle? base).getD (fallbackTitle path)

theorem tierTitle_cases (existing base path : String) :
    existingTitle? existing = some (tierTitle existing base path) ∨
      existingTitle? base = some (tierTitle existing base path) ∨
      tierTitle existing base path = fallbackTitle path := by
  unfold tierTitle
  cases existingTitle? existing with
  | some title => exact Or.inl rfl
  | none =>
    refine Or.inr ?_
    cases existingTitle? base with
    | some title => exact Or.inl rfl
    | none => exact Or.inr rfl

theorem isLine_tierTitle (existing base path : String) :
    Chars.IsLine (tierTitle existing base path).toList := by
  obtain h | h | h := tierTitle_cases existing base path
  · exact isLine_existingTitle h
  · exact isLine_existingTitle h
  · rw [h]
    exact (oneLine_fallbackTitle path).isLine

theorem titleOf_eq (content path : String) :
    titleOf content path = tierTitle content content path := by
  unfold titleOf tierTitle
  cases existingTitle? content <;> rfl

/-- The content that a tier writes with a title: the documentation is put into a text, a comment on
the check of the text if the tier checks, and the marker. -/
def refreshed (checks : Bool) (m : Marker) (title base : String) : String :=
  let documented := renewDocumentation base [title, generatedNote m.mode m.tier]
  ensureMarker
    (if checks then annotateValidation documented (validate documented) else documented) m

/-- The text on which a tier works: fresh content if it takes that over, or else the file. -/
def tierBase (existing : String) (request : TierRequest) (fresh : Option String) : String :=
  if effectiveTier request.tier fresh == .deepRegeneration then fresh.getD existing else existing

theorem content_runTier_eq (existing : String) (request : TierRequest) (fresh : Option String) :
    (runTier existing request fresh).content =
      refreshed (effectiveTier request.tier fresh != .quickRefresh)
        (tierMarker existing request fresh)
        (tierTitle existing (tierBase existing request fresh) request.path)
        (tierBase existing request fresh) := by
  dsimp only [runTier, refreshed, tierMarker, recordedTier, tierTitle, tierBase]
  refine congrArg (ensureMarker · _) ?_
  generalize renewDocumentation _ _ = documented
  cases effectiveTier request.tier fresh <;> rfl

theorem isSome_validation_runTier (existing : String) (request : TierRequest)
    (fresh : Option String) : (runTier existing request fresh).validation.isSome =
      (effectiveTier request.tier fresh != .quickRefresh) := by
  dsimp only [runTier]
  cases effectiveTier request.tier fresh <;> rfl

/-- A tier that runs again leaves the same marker. -/
theorem tierMarker_runTier (existing : String) (request : TierRequest) (fresh : Option String) :
    tierMarker (runTier existing request fresh).content request fresh =
      tierMarker existing request fresh := by
  have hparse := parse?_runTier existing request fresh
  have htier : recordedTier (runTier existing request fresh).content =
      (tierMarker existing request fresh).tier := by
    rw [recordedTier, hparse]
    rfl
  have hmax : max (tierMarker existing request fresh).tier
      (effectiveTier request.tier fresh).number = (tierMarker existing request fresh).tier :=
    Nat.max_eq_left (Nat.le_max_right _ _)
  have hvalidated : (tierMarker existing request fresh).validated =
      ((effectiveTier request.tier fresh != .quickRefresh) ||
        (Marker.parse? existing).any Marker.validated) := by
    rw [← isSome_validation_runTier existing]
    rfl
  rw [tierMarker, htier, hmax, isSome_validation_runTier, hparse, Option.any_some, hvalidated,
    ← Bool.or_assoc, Bool.or_self, ← hvalidated]
  rfl

/-! ### Lines that a tier leaves as they are -/

section Lines

variable {first last : String} (hlast : last ≠ "")
  (hblock : ∀ line ∈ [first, last], isValidationComment line = false)

include hlast hblock

/-- Lines that are checked stay as they are exactly if their documentation does, they do not end in
an empty line, and they hold the comment on the check and no other one. -/
theorem annotated_eq_self_iff {content : List String}
    (hhead : ∀ line ∈ content.head?, isLeading line = false) (r : Report) :
    withoutEmptyEnd ((commentOn r ++ (placeDocumentation [first, last] content).filter
        fun line ↦ !isValidationComment line).dropWhile isLeading) = content ↔
      ((∃ span, documentationSpan? content = some span ∧ span.block = [first, last]) ∧
        content.getLast? ≠ some "") ∧
      ∃ rest, content = commentOn r ++ rest ∧ ∀ line ∈ rest, isValidationComment line = false := by
  unfold commentOn
  by_cases hvalid : r.isValid = true
  · rw [if_pos hvalid]
    simp only [List.nil_append, exists_eq_left']
    rw [← withoutEmptyEnd_placeDocumentation_iff hlast]
    have hkept (h : ∀ line ∈ content, isValidationComment line = false) :
        ((placeDocumentation [first, last] content).filter
          fun line ↦ !isValidationComment line).dropWhile isLeading =
        placeDocumentation [first, last] content := by
      rw [filter_placeDocumentation hblock h, dropWhile_placeDocumentation hhead]
    refine ⟨fun heq ↦ ?_, fun ⟨heq, hnone⟩ ↦ by rw [hkept hnone, heq]⟩
    have hnone : ∀ line ∈ content, isValidationComment line = false := by
      intro line hline
      rw [← heq] at hline
      have hmem := (List.dropWhile_sublist _).mem ((withoutEmptyEnd_sublist _).mem hline)
      simpa using (List.mem_filter.mp hmem).2
    rw [hkept hnone] at heq
    exact ⟨heq, hnone⟩
  · rw [if_neg hvalid]
    have hcomment := isLeading_validationComment r
    rw [List.singleton_append, List.dropWhile_cons_of_neg (Bool.eq_false_iff.mp hcomment),
      withoutEmptyEnd_cons (validationComment_ne_empty r)]
    have hcons (rest : List String) :
        (placeDocumentation [first, last] (validationComment r :: rest)).filter
            (fun line ↦ !isValidationComment line) =
          (placeDocumentation [first, last] rest).filter fun line ↦ !isValidationComment line := by
      rw [placeDocumentation_cons (isHeader_validationComment r)]
      exact List.filter_cons_of_neg (by simp [isValidationComment_validationComment r])
    have hsame (rest : List String) :
        ((∃ span, documentationSpan? (validationComment r :: rest) = some span ∧
            span.block = [first, last]) ∧ (validationComment r :: rest).getLast? ≠ some "") ↔
          withoutEmptyEnd (placeDocumentation [first, last] rest) = rest := by
      rw [withoutEmptyEnd_placeDocumentation_iff hlast,
        exists_span_cons_iff (isHeader_validationComment r),
        getLast?_cons_ne_empty_iff (validationComment_ne_empty r)]
    constructor
    · intro heq
      obtain ⟨rest, rfl⟩ : ∃ rest, content = validationComment r :: rest := ⟨_, heq.symm⟩
      have hrest := (List.cons.inj heq).2
      rw [hcons] at hrest
      have hnone : ∀ line ∈ rest, isValidationComment line = false := by
        intro line hline
        rw [← hrest] at hline
        simpa using (List.mem_filter.mp ((withoutEmptyEnd_sublist _).mem hline)).2
      rw [filter_placeDocumentation hblock hnone] at hrest
      exact ⟨(hsame rest).mpr hrest, rest, rfl, hnone⟩
    · rintro ⟨hkept, rest, rfl, hnone⟩
      rw [List.singleton_append, hcons, filter_placeDocumentation hblock hnone,
        (hsame rest).mp hkept]

end Lines

/-- The lines below the marker that a tier writes for lines that hold the documentation. -/
def refreshedLines (checks : Bool) (report : Report) (content : List String) : List String :=
  if checks then commentOn report ++ content.filter fun line ↦ !isValidationComment line
  else content

theorem isLine_refreshedLines {content : List String}
    (h : ∀ line ∈ content, Chars.IsLine line.toList) (checks : Bool) (report : Report) :
    ∀ line ∈ withoutEmptyEnd ((refreshedLines checks report content).dropWhile isLeading),
      Chars.IsLine line.toList := by
  intro line hline
  have hmem := (List.dropWhile_sublist _).mem ((withoutEmptyEnd_sublist _).mem hline)
  unfold refreshedLines at hmem
  split at hmem
  · obtain hmem | hmem := List.mem_append.mp hmem
    · exact isLine_commentOn report line hmem
    · exact h line (List.mem_of_mem_filter hmem)
  · exact h line hmem

/-- What a tier writes for lines below its marker. -/
theorem refreshed_joinLines {m : Marker} (hm : m.Tiered) {content : List String}
    (h : ∀ line ∈ content, Chars.IsLine line.toList) (checks : Bool) {title : String}
    (htitle : Chars.IsLine title.toList) :
    refreshed checks m title (joinLines (m.render :: content)) =
      (let documented := placeDocumentation
        (documentationBlock [title, generatedNote m.mode m.tier]) content
      joinLines (m.render :: withoutEmptyEnd ((refreshedLines checks
        (validate (joinLines (m.render :: documented))) documented).dropWhile isLeading))) := by
  have hnote := (oneLine_generatedNote hm m.mode).isLine
  have hrenewed : renewDocumentation (joinLines (m.render :: content))
      [title, generatedNote m.mode m.tier] = joinLines (m.render :: placeDocumentation
        (documentationBlock [title, generatedNote m.mode m.tier]) content) := by
    rw [renewDocumentation, hm.lines_joinLines h, placeDocumentation_cons m.isHeader_render]
  have hdocumented := isLine_placeDocumentation h (isLine_documentationBlock htitle hnote)
  unfold refreshed refreshedLines
  dsimp only
  rw [hrenewed]
  split
  · rw [annotateValidation_joinLines hm hdocumented, ensureMarker_joinLines hm]
    intro line hline
    obtain hline | hline := List.mem_append.mp hline
    · exact isLine_commentOn _ line hline
    · exact hdocumented line (List.mem_of_mem_filter hline)
  · exact ensureMarker_joinLines hm hdocumented

/-- Below the marker, a tier leaves lines as they are exactly if they hold the documentation and the
comment that it would write, and do not end in an empty line. -/
theorem refreshedLines_eq_self_iff (m : Marker) {content : List String} (title note : String)
    (hhead : ∀ line ∈ content.head?, isLeading line = false) (checks : Bool) :
    withoutEmptyEnd ((refreshedLines checks
        (validate (joinLines (m.render ::
          placeDocumentation (documentationBlock [title, note]) content)))
        (placeDocumentation (documentationBlock [title, note]) content)).dropWhile isLeading) =
        content ↔
      ((∃ span, documentationSpan? content = some span ∧
        span.block = documentationBlock [title, note]) ∧ content.getLast? ≠ some "") ∧
      (checks = true → ∃ rest,
        content = commentOn (validate (joinLines (m.render :: content))) ++ rest ∧
          ∀ line ∈ rest, isValidationComment line = false) := by
  have hlast : row ["...", note] ≠ "" := row_ne_empty _ _
  have hblock := isValidationComment_documentationBlock title note
  have hsame (h : ∃ span, documentationSpan? content = some span ∧
      span.block = documentationBlock [title, note]) :
      placeDocumentation (documentationBlock [title, note]) content = content :=
    (placeDocumentation_eq_self_iff (List.cons_ne_nil _ _)).mpr h
  cases checks with
  | false =>
    rw [refreshedLines, if_neg Bool.false_ne_true, dropWhile_placeDocumentation hhead]
    exact (withoutEmptyEnd_placeDocumentation_iff hlast content).trans
      (and_iff_left nofun).symm
  | true =>
    rw [refreshedLines, if_pos rfl]
    refine (annotated_eq_self_iff hlast hblock hhead _).trans (and_congr_right fun h ↦ ?_)
    rw [hsame h.1]
    exact ⟨fun hrest _ ↦ hrest, fun hrest ↦ hrest rfl⟩

/-! ### Texts that a tier leaves as they are -/

/-- A text that a tier would write just as it is: its lines end in plain line feeds, its
documentation is the generated one with the title that the text has, it does not end in an empty
line, and if the tier checks then the comment on the check is the only one. -/
structure Settled (checks : Bool) (mode : Mode) (path content : String) : Prop where
  plain : joinLines (lines content) = content
  documented : ∃ span, documentationSpan? (lines content) = some span ∧
    span.block = documentationBlock
      [titleOf content path, generatedNote mode (recordedTier content)]
  ends : (lines content).getLast? ≠ some ""
  annotated : checks = true → ∃ rest, (lines content).tail = commentOn (validate content) ++ rest ∧
    ∀ line ∈ rest, isValidationComment line = false

theorem returns_refreshed_le {m : Marker} (hm : m.Tiered) (checks : Bool) (title base : String) :
    returns (refreshed checks m title base) ≤
      returnsIn (placeDocumentation
        (documentationBlock [title, generatedNote m.mode m.tier]) (lines base)) := by
  unfold refreshed
  dsimp only
  rw [← returns_joinLines]
  split
  · exact (returns_ensureMarker_le hm _).trans (returns_annotateValidation_le _ _)
  · exact returns_ensureMarker_le hm _

/-- The title that a text has itself brings no carriage return with it. -/
theorem returnsIn_placeDocumentation_le {m : Marker} (hm : m.Tiered) (content path : String) :
    returnsIn (placeDocumentation (documentationBlock [titleOf content path,
      generatedNote m.mode m.tier]) (lines content)) ≤ returnsIn (lines content) := by
  have hblock : returnsIn (documentationBlock [titleOf content path,
      generatedNote m.mode m.tier]) = returns (titleOf content path) := by
    rw [documentationBlock, List.map_singleton, returnsIn_cons, returnsIn_cons, returnsIn_nil,
      returns_row (by decide), returns_row (by decide),
      returns_eq_zero (oneLine_generatedNote hm m.mode), Nat.add_zero]
  have hfallback : returns (fallbackTitle path) = 0 := returns_eq_zero (oneLine_fallbackTitle path)
  cases hspan : documentationSpan? (lines content) with
  | none =>
    have htitle : titleOf content path = fallbackTitle path := by
      rw [titleOf, existingTitle?, hspan]
      rfl
    obtain ⟨before, after, hplace, haround, _⟩ := placeDocumentation_eq (lines content)
    have hsame : returnsIn (aroundDocumentation (lines content)) = returnsIn (lines content) := by
      unfold aroundDocumentation withoutDocumentation openSettings
      rw [hspan]
      split
      · rfl
      · conv_rhs => rw [← List.takeWhile_append_dropWhile (p := fun line ↦ !isHeader line)
          (l := lines content)]
        have hheader : returns "*** Settings ***" = 0 := by decide
        have hempty : returns "" = 0 := rfl
        rw [returnsIn_append, returnsIn_append, returnsIn_cons, returnsIn_cons, hheader, hempty]
        omega
    rw [← haround, returnsIn_append] at hsame
    rw [hplace, returnsIn_append, returnsIn_append, hblock, htitle, hfallback]
    omega
  | some span =>
    have htitle : returns (titleOf content path) ≤ returnsIn span.block := by
      unfold titleOf
      cases hexisting : existingTitle? content with
      | none =>
        rw [Option.getD_none, hfallback]
        exact Nat.zero_le _
      | some title =>
        obtain ⟨found, hfound, line, hline, hpart⟩ := exists_line_of_existingTitle? hexisting
        obtain rfl : span = found := Option.some.inj (hspan.symm.trans hfound)
        calc
          returns title ≤ returns line := returns_le_of_sublist hpart
          _ = returnsIn [line] := by simp
          _ ≤ returnsIn span.block := returnsIn_le_of_sublist (List.singleton_sublist.mpr hline)
    have hcontent := congrArg returnsIn (documentationSpan?_eq_some hspan).1
    rw [placeDocumentation, hspan]
    simp only [returnsIn_append] at hcontent ⊢
    omega

theorem plain_of_refreshed {m : Marker} (hm : m.Tiered) {checks : Bool} {path text content : String}
    (hcontent : content = ensureMarker text m)
    (h : refreshed checks m (titleOf content path) content = content) :
    joinLines (lines content) = content := by
  have hreturns : returns content ≤ returnsIn (lines content) :=
    calc
      returns content = returns (refreshed checks m (titleOf content path) content) := by rw [h]
      _ ≤ _ := returns_refreshed_le hm checks _ content
      _ ≤ returnsIn (lines content) := returnsIn_placeDocumentation_le hm content path
  have hend : content.toList.getLast? = some '\n' := by
    rw [hcontent, ensureMarker_eq_joinLines, toList_joinLines, List.getLast?_concat]
  rw [returnsIn_eq, map_toList_lines] at hreturns
  rw [← String.toList_inj, toList_joinLines, map_toList_lines]
  exact (Chars.plain_and_isLine hreturns hend).1

theorem isLine_of_mem_lines {content line : String} (hplain : joinLines (lines content) = content)
    (h : line ∈ lines content) : Chars.IsLine line.toList := by
  have hchars : Chars.Plain content.toList := by
    rw [Chars.Plain, ← map_toList_lines, ← toList_joinLines, hplain]
  exact hchars.isLine _ (mem_lines_iff.mp h)

/-- A tier leaves a text with its own marker as it is exactly if the text is settled. -/
theorem refreshed_eq_self_iff {m : Marker} (hm : m.Tiered) (checks : Bool)
    {path text content : String} (hcontent : content = ensureMarker text m) :
    refreshed checks m (titleOf content path) content = content ↔
      Settled checks m.mode path content := by
  -- both sides need the text to be made up of its lines
  by_cases hplain : joinLines (lines content) = content
  · obtain ⟨kept, hkept, hhead⟩ := lines_marked hm text
    rw [← hcontent] at hkept
    have hlines : ∀ line ∈ kept, Chars.IsLine line.toList := by
      intro line hline
      refine isLine_of_mem_lines hplain ?_
      rw [hkept]
      exact List.mem_cons_of_mem _ hline
    have hjoined : joinLines (m.render :: kept) = content := by rw [← hkept, hplain]
    have htier : recordedTier content = m.tier := by
      rw [recordedTier, hcontent, hm.parse?_ensureMarker]
      rfl
    have htitle : Chars.IsLine (titleOf content path).toList := by
      rw [titleOf_eq]
      exact isLine_tierTitle _ _ _
    have hrefreshed := refreshed_joinLines hm hlines checks htitle
    have hsame := refreshedLines_eq_self_iff m (titleOf content path)
      (generatedNote m.mode m.tier) hhead checks
    have hdocumented := isLine_placeDocumentation hlines
      (isLine_documentationBlock htitle (oneLine_generatedNote hm m.mode).isLine)
    have hwritten (report : Report) := isLine_refreshedLines hdocumented checks report
    rw [hjoined] at hrefreshed hsame
    constructor
    · intro h
      have heq := (joinLines_inj (List.cons_ne_nil _ _) (List.cons_ne_nil _ _)
        (List.forall_mem_cons.mpr ⟨hm.isLine_render, hwritten _⟩)
        (List.forall_mem_cons.mpr ⟨hm.isLine_render, hlines⟩)).mp
          ((hrefreshed.symm.trans h).trans hjoined.symm)
      obtain ⟨⟨hdocumented, hends⟩, hannotated⟩ := hsame.mp (List.cons.inj heq).2
      refine ⟨hplain, ?_, ?_, ?_⟩
      · rwa [hkept, exists_span_cons_iff m.isHeader_render, htier]
      · rwa [hkept, getLast?_cons_ne_empty_iff m.render_ne_empty]
      · rwa [hkept]
    · rintro ⟨-, hdocumented, hends, hannotated⟩
      rw [hkept] at hdocumented hends hannotated
      rw [exists_span_cons_iff m.isHeader_render, htier] at hdocumented
      rw [getLast?_cons_ne_empty_iff m.render_ne_empty] at hends
      rw [hrefreshed]
      dsimp only
      rw [hsame.mpr ⟨⟨hdocumented, hends⟩, hannotated⟩, hjoined]
  · exact ⟨fun h ↦ absurd (plain_of_refreshed hm hcontent h) hplain, fun h ↦ absurd h.plain hplain⟩

example : Settled false .enhanced "robot/login.resource" ("# robomigrate: mode=enhanced tier=1\n" ++
    "*** Settings ***\nDocumentation    Login\n" ++
    "...    Generated by robomigrate; mode=enhanced, tier=1.\n") := by
  have hread : lines ("# robomigrate: mode=enhanced tier=1\n" ++
      "*** Settings ***\nDocumentation    Login\n" ++
      "...    Generated by robomigrate; mode=enhanced, tier=1.\n") =
        ["# robomigrate: mode=enhanced tier=1", "*** Settings ***", "Documentation    Login",
          "...    Generated by robomigrate; mode=enhanced, tier=1."] := by
    rw [lines, String.toList_append, String.toList_append, String.toList_ofList,
      String.toList_ofList, String.toList_ofList]
    decide +kernel
  refine ⟨?_, Option.map_eq_some_iff.mp ?_, ?_, nofun⟩
  · rw [hread]
    decide +kernel
  · rw [titleOf, existingTitle?, recordedTier, Marker.parse?_eq, withoutByteOrderMark_eq_self,
      hread]
    · decide +kernel
    · rw [String.toList_append, String.toList_append, String.toList_ofList]
      exact fun hhead ↦ absurd (Option.some.inj hhead) (by decide)
  · rw [hread]
    decide +kernel

/-! ### Titles that a tier writes -/

/-- What a tier keeps of the lines below the row of the title. -/
theorem suffix_refreshed {m : Marker} (hm : m.Tiered) (checks : Bool) {title base : String}
    {rest : List String} (htitle : Chars.IsLine title.toList)
    (h : row ["Documentation", title] :: rest <:+
      lines (renewDocumentation base [title, generatedNote m.mode m.tier])) :
    row ["Documentation", title] :: (withoutEmptyEnd (if checks then
        (rest.filter fun line ↦ !isValidationComment line).map readBack else rest)).map readBack <:+
      lines (refreshed checks m title base) := by
  have hrow := isTitleRow_row htitle
  unfold refreshed
  dsimp only
  refine suffix_ensureMarker hrow ?_ hm
  split
  · exact suffix_annotateValidation hrow h _
  · exact h

/-- Of two empty lines at the end one stays. -/
theorem getLast?_lines_refreshed {m : Marker} (hm : m.Tiered) (checks : Bool)
    {title base : String} {more : List String} (htitle : Chars.IsLine title.toList)
    (h : row ["Documentation", title] :: (more ++ ["", ""]) <:+
      lines (renewDocumentation base [title, generatedNote m.mode m.tier])) :
    (lines (refreshed checks m title base)).getLast? = some "" := by
  have hdropped (front : List String) : withoutEmptyEnd (front ++ ["", ""]) = front ++ [""] := by
    rw [withoutEmptyEnd, if_pos (by simp), List.dropLast_append_of_ne_nil (by simp)]
    rfl
  have hlast (line : String) (front : List String) :
      (line :: (front ++ [""])).getLast? = some "" :=
    List.getLast?_concat (l := line :: front)
  have hempty : isValidationComment "" = false := by decide
  have hread : readBack "" = "" := readBack_eq_self (by decide)
  obtain ⟨front, hfront⟩ := suffix_refreshed hm checks htitle h
  rw [← hfront]
  cases checks <;> simp [hdropped, hlast, hempty, hread]

theorem row_inj {start first second : String} (h : row [start, first] = row [start, second]) :
    first = second := by
  rw [← String.toList_inj] at h ⊢
  simpa [row] using h

/-- The title of a text can be told from what a tier writes for it. -/
theorem refreshed_inj {m : Marker} (hm : m.Tiered) (checks : Bool) (base : String)
    {first second : String} (hfirst : Chars.IsLine first.toList)
    (hsecond : Chars.IsLine second.toList) :
    refreshed checks m first base = refreshed checks m second base ↔ first = second := by
  refine ⟨fun heq ↦ ?_, fun heq ↦ by rw [heq]⟩
  obtain ⟨rest, hrest⟩ :=
    suffix_renewDocumentation base (oneLine_generatedNote hm m.mode).isLine
  have hends := suffix_refreshed hm checks hfirst (hrest first hfirst)
  rw [heq] at hends
  have hothers := suffix_refreshed hm checks hsecond (hrest second hsecond)
  have hsame := List.suffix_of_suffix_length_le hends hothers (Nat.le_refl _)
  exact row_inj (List.cons.inj (hsame.eq_of_length rfl)).1

/-! ### A tier that is applied twice -/

/-- When a tier that runs again writes the same content: regeneration if it finds the title that it
found before, and the other tiers if their own output is settled. -/
def Repeats (existing : String) (request : TierRequest) (fresh : Option String)
    (content : String) : Tier → Prop
  | .deepRegeneration => ∃ base, fresh = some base ∧
      tierTitle content base request.path = tierTitle existing base request.path
  | tier => Settled (tier != .quickRefresh) request.mode request.path content

theorem effectiveTier_eq_deepRegeneration {tier : Tier} {fresh : Option String}
    (h : effectiveTier tier fresh = .deepRegeneration) : ∃ base, fresh = some base := by
  cases fresh with
  | some base => exact ⟨base, rfl⟩
  | none => cases tier <;> cases h

theorem runTier_again_iff (existing : String) (request : TierRequest) (fresh : Option String) :
    (runTier (runTier existing request fresh).content request fresh).content =
        (runTier existing request fresh).content ↔
      Repeats existing request fresh (runTier existing request fresh).content
        (effectiveTier request.tier fresh) := by
  have hm := tierMarker_tiered existing request fresh
  have hsecond := content_runTier_eq (runTier existing request fresh).content request fresh
  rw [tierMarker_runTier] at hsecond
  by_cases heffective : effectiveTier request.tier fresh = .deepRegeneration
  · obtain ⟨base, rfl⟩ := effectiveTier_eq_deepRegeneration heffective
    have hbase (text : String) : tierBase text request (some base) = base := by
      rw [tierBase, heffective]
      rfl
    have hfirst := content_runTier_eq existing request (some base)
    rw [hbase, heffective] at hfirst hsecond
    generalize (runTier existing request (some base)).content = content at hfirst hsecond ⊢
    have hsame := refreshed_inj hm (Tier.deepRegeneration != .quickRefresh) base
      (isLine_tierTitle content base request.path) (isLine_tierTitle existing base request.path)
    rw [hsecond, heffective]
    constructor
    · exact fun heq ↦ ⟨base, rfl, hsame.mp (heq.trans hfirst)⟩
    · rintro ⟨_, ⟨⟩, htitle⟩
      exact (hsame.mpr htitle).trans hfirst.symm
  · have hbase (text : String) : tierBase text request fresh = text := by
      rw [tierBase, if_neg (by simpa using heffective)]
    obtain ⟨text, htext⟩ := content_runTier existing request fresh
    rw [hbase, ← titleOf_eq] at hsecond
    rw [hsecond, refreshed_eq_self_iff hm _ htext]
    cases htier : effectiveTier request.tier fresh with
    | deepRegeneration => exact absurd htier heffective
    | quickRefresh => rfl
    | validation => rfl

theorem changed_eq_false_iff (existing : String) (request : TierRequest) (fresh : Option String) :
    (applyTier existing request fresh).changed = false ↔
      (applyTier existing request fresh).content = existing := by
  obtain ⟨_, heq⟩ | ⟨_, heq⟩ := applyTier_cases existing request fresh
  · rw [heq]
    exact ⟨fun _ ↦ rfl, fun _ ↦ rfl⟩
  · have hchanged : (runTier existing request fresh).changed =
        ((runTier existing request fresh).content != existing) := by
      dsimp only [runTier]
    rw [heq, hchanged, bne_eq_false_iff_eq]

theorem applied_runTier (existing : String) (request : TierRequest) (fresh : Option String) :
    (runTier existing request fresh).applied = some (effectiveTier request.tier fresh) := by
  dsimp only [runTier]

theorem recordedTier_runTier (existing : String) (request : TierRequest) (fresh : Option String) :
    recordedTier (runTier existing request fresh).content =
      max (recordedTier existing) (effectiveTier request.tier fresh).number := by
  rw [recordedTier, parse?_runTier]
  rfl

/-- What is applied a second time is skipped exactly if it is not forced and the first time has
recorded the tier that is asked for. -/
theorem applied_again_eq_none_iff (existing : String) (request : TierRequest)
    (fresh : Option String) :
    (applyTier (applyTier existing request fresh).content request fresh).applied = none ↔
      request.force = false ∧ ¬ (request.tier = .deepRegeneration ∧ fresh = none ∧
        recordedTier existing < Tier.deepRegeneration.number) := by
  have happlied (text : String) : (applyTier text request fresh).applied = none ↔
      ¬ (request.force = true ∨ recordedTier text < request.tier.number) := by
    obtain ⟨hskipped, heq⟩ | ⟨hruns, heq⟩ := applyTier_cases text request fresh
    · rw [heq]
      exact ⟨fun _ ↦ hskipped, fun _ ↦ rfl⟩
    · rw [heq]
      exact ⟨nofun, fun h ↦ absurd hruns h⟩
  rw [happlied, not_or, Bool.not_eq_true, Nat.not_lt]
  refine and_congr_right fun hforce ↦ ?_
  have hbounds := Tier.number_bounds request.tier
  obtain ⟨hskipped, heq⟩ | ⟨hruns, heq⟩ := applyTier_cases existing request fresh
  · rw [not_or, Nat.not_lt] at hskipped
    rw [heq]
    refine ⟨fun _ hdeep ↦ ?_, fun _ ↦ hskipped.2⟩
    rw [hdeep.1] at hskipped
    exact absurd hdeep.2.2 (Nat.not_lt.mpr hskipped.2)
  · have hlow : recordedTier existing < request.tier.number := by simpa [hforce] using hruns
    rw [heq, recordedTier_runTier, effectiveTier_eq]
    split
    next hdeep =>
      obtain ⟨htier, hfresh⟩ := hdeep
      rw [htier] at hlow ⊢
      refine ⟨fun hle ↦ absurd hle ?_, fun h ↦ absurd ⟨rfl, hfresh, hlow⟩ h⟩
      simp only [Tier.number] at hlow ⊢
      omega
    next hdeep =>
      exact ⟨fun _ h ↦ hdeep ⟨h.1, h.2.1⟩, fun _ ↦ Nat.le_max_right _ _⟩

/-- What runs again ran before. -/
theorem applyTier_eq_runTier_of_again {existing : String} {request : TierRequest}
    {fresh : Option String}
    (h : (applyTier (applyTier existing request fresh).content request fresh).applied ≠ none) :
    applyTier existing request fresh = runTier existing request fresh := by
  obtain ⟨_, heq⟩ | ⟨_, heq⟩ := applyTier_cases existing request fresh
  · rw [heq] at h
    exact absurd (congrArg TierOutcome.applied heq) h
  · exact heq

theorem content_again_eq_iff (existing : String) (request : TierRequest) (fresh : Option String) :
    (applyTier (applyTier existing request fresh).content request fresh).content =
        (applyTier existing request fresh).content ↔
      ∀ tier ∈ (applyTier (applyTier existing request fresh).content request fresh).applied,
        Repeats existing request fresh (applyTier existing request fresh).content tier := by
  obtain ⟨_, heq⟩ | ⟨_, heq⟩ :=
    applyTier_cases (applyTier existing request fresh).content request fresh
  · simp [heq]
  · have hfirst : applyTier existing request fresh = runTier existing request fresh :=
      applyTier_eq_runTier_of_again (by rw [heq, applied_runTier]; exact Option.some_ne_none _)
    rw [heq, hfirst, applied_runTier, runTier_again_iff]
    simp

/-- A tier that is applied a second time, with the same request and the same fresh content, finds
its own content. It is skipped if it is not forced, unless it could only be checked for want of
fresh content; then and whenever it repeats itself the content stays, and otherwise it changes. -/
theorem reapplied_tier_unchanged_iff (existing : String) (request : TierRequest)
    (fresh : Option String) :
    let first := applyTier existing request fresh
    let second := applyTier first.content request fresh
    (second.changed = false ↔ second.content = first.content) ∧
      (second.applied = none ↔ request.force = false ∧ ¬ (request.tier = .deepRegeneration ∧
        fresh = none ∧ recordedTier existing < Tier.deepRegeneration.number)) ∧
      (second.content = first.content ↔ ∀ tier ∈ second.applied,
        Repeats existing request fresh first.content tier) :=
  ⟨changed_eq_false_iff _ request fresh, applied_again_eq_none_iff existing request fresh,
    content_again_eq_iff existing request fresh⟩

/-- A file that ends in two blank lines below its documentation loses one of them to a tier, and the
other one when the tier runs again. -/
theorem content_again_ne_of_blank_end {existing : String} {request : TierRequest}
    (more : List String)
    (happlied : (applyTier (applyTier existing request none).content request none).applied ≠ none)
    (hblank : row ["Documentation", titleOf existing request.path] :: (more ++ ["", ""]) <:+
      lines (renewDocumentation existing [titleOf existing request.path,
        generatedNote request.mode (tierMarker existing request none).tier])) :
    (applyTier (applyTier existing request none).content request none).content ≠
      (applyTier existing request none).content := by
  intro heq
  obtain ⟨tier, htier⟩ := Option.ne_none_iff_exists'.mp happlied
  have hrepeats := (content_again_eq_iff existing request none).mp heq tier htier
  rw [titleOf_eq] at hblank
  have hends : (lines (applyTier existing request none).content).getLast? = some "" := by
    have hbase : tierBase existing request none = existing := by
      unfold tierBase
      split <;> rfl
    rw [applyTier_eq_runTier_of_again happlied, content_runTier_eq, hbase]
    exact getLast?_lines_refreshed (tierMarker_tiered existing request none) _
      (isLine_tierTitle _ _ _) hblank
  cases tier with
  | quickRefresh => exact hrepeats.ends hends
  | validation => exact hrepeats.ends hends
  | deepRegeneration =>
    obtain ⟨_, hfresh, _⟩ := hrepeats
    cases hfresh

/-- Blank lines are lost by a forced refresh and, without force, by regeneration that has no fresh
content. -/
theorem reapplied_tier_loses_blank_line :
    let existing := "*** Settings ***\nDocumentation    Login\n\n\n"
    let forced : TierRequest := ⟨.enhanced, .quickRefresh, true, "robot/login.resource"⟩
    let unforced : TierRequest := ⟨.enhanced, .deepRegeneration, false, "robot/login.resource"⟩
    ∀ request ∈ [forced, unforced],
      let first := applyTier existing request none
      let second := applyTier first.content request none
      second.content ≠ first.content ∧ second.changed = true := by
  intro existing forced unforced request hrequest first second
  have hrecorded : recordedTier existing = 0 := by decide +kernel
  have hblank : ∀ request ∈ [forced, unforced],
      lines (renewDocumentation existing [titleOf existing request.path,
        generatedNote request.mode (max 0 (effectiveTier request.tier none).number)]) =
      ["*** Settings ***", row ["Documentation", titleOf existing request.path],
        row ["...", generatedNote request.mode (max 0 (effectiveTier request.tier none).number)],
        "", ""] := by
    decide +kernel
  have happlied : second.applied ≠ none := by
    rw [Ne, applied_again_eq_none_iff, hrecorded]
    obtain rfl | hrequest := List.mem_cons.mp hrequest
    · exact fun h ↦ Bool.noConfusion h.1
    · rw [List.mem_singleton.mp hrequest]
      exact fun h ↦ h.2 ⟨rfl, rfl, by decide⟩
  have hcontent : second.content ≠ first.content := by
    have hsuffix := hblank request hrequest
    rw [← hrecorded] at hsuffix
    exact content_again_ne_of_blank_end [_] happlied ⟨["*** Settings ***"], hsuffix.symm⟩
  refine ⟨hcontent, ?_⟩
  rw [← Bool.not_eq_false]
  exact fun hsame ↦ hcontent ((changed_eq_false_iff first.content request none).mp hsame)

end SuiteMigration.Robot
