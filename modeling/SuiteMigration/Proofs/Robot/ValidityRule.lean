import SuiteMigration.Proofs.Robot.IssueCount
import SuiteMigration.Proofs.Robot.LeakPatterns
import SuiteMigration.Proofs.Robot.RowCells
import SuiteMigration.Proofs.Text.Case

/-!
What a valid file is. The check goes over the lines once and keeps the section it is in; what it
decides depends on each line and the nearest header above it only, so validity is a statement about
the lines and their headers. The rule speaks of the cells of a line, and each reader of the check is
tied to the rows that the rule describes. A header is never taken for a row of its own section,
although the check does not look at its cells.
-/

set_option autoImplicit false
set_option relaxedAutoImplicit false

namespace SuiteMigration.Robot

open SuiteMigration.Text

/-! ### The rule -/

/-- The name in the nearest header among the lines above. -/
def nearestHeader? (above : List String) : Option String :=
  above.reverse.findSome? sectionName?

/-- A line that is no comment stands below a header with a name. -/
def StandsIn (content name line : String) : Prop :=
  ∃ above below, lines content = above ++ line :: below ∧ nearestHeader? above = some name ∧
    isComment line = false

/-- A row for a library, in letters of either case, that names a recognized one. -/
def NamesLibrary (line : String) : Prop :=
  ∃ setting name others, splitCells line = setting :: name :: others ∧
    equalIgnoringAsciiCase setting "library" = true ∧
    ∃ library ∈ recognizedLibraries, equalIgnoringAsciiCase library (trim name) = true

/-- A recognized library is imported in the settings. -/
def ImportsLibrary (content : String) : Prop :=
  ∃ line, StandsIn content "setting" line ∧ NamesLibrary line

/-- A keyword that drives something, or that starts like an assertion. -/
def IsAction (keyword : String) : Prop :=
  keyword ∈ actionKeywords ∨ ∃ start ∈ assertionStarts, start.toList <+: keyword.toList

/-- A row for the setup or teardown of a suite, a test or a task whose keyword is an action. -/
def RunsAsFixture (line : String) : Prop :=
  ∃ setting keyword others, splitCells line = setting :: keyword :: others ∧
    (∃ scope ∈ ["suite", "test", "task"], ∃ moment ∈ ["setup", "teardown"],
      toLower setting = scope ++ " " ++ moment) ∧
    IsAction (toLower (trim keyword))

/-- A cell that is empty, assigns to a variable or opens a setting in brackets. -/
def StandsAside (cell : String) : Prop :=
  cell = "" ∨ ("$\x7b".toList <+: cell.toList ∧ "=".toList <:+ cell.toList) ∨
    "[".toList <+: cell.toList

/-- An indented row in which the first cell that does not stand aside is an action. -/
def CallsAction (line : String) : Prop :=
  (∃ c ∈ line.toList.head?, c = ' ' ∨ c = '\t') ∧
    ∃ before called after, splitCells line = before ++ called :: after ∧
      (∀ cell ∈ before, StandsAside (trim cell)) ∧ ¬ StandsAside (trim called) ∧
      IsAction (toLower (trim called))

/-- A line of a section runs an action: as a fixture in the settings, or as a call in a body. -/
def RunsAction (name line : String) : Prop :=
  (name = "setting" ∧ RunsAsFixture line) ∨
    (name ∈ ["keyword", "test case", "task"] ∧ CallsAction line)

/-- Source syntax occurs in a line. -/
def HoldsSourceSyntax (line : String) : Prop :=
  ∃ entry ∈ leakPatterns, ∃ p ∈ entry.2, p.OccursIn (Chars.trim line.toList)

/-- The rule for keyword files. -/
structure KeepsRule (content : String) : Prop where
  bodySection : ∃ line ∈ lines content, ∃ name ∈ ["keyword", "test case", "task"],
    sectionName? line = some name
  library : ImportsLibrary content
  action : ∃ name line, StandsIn content name line ∧ RunsAction name line
  noSourceSyntax : ∀ line ∈ lines content, isComment line = false → isHeader line = false →
    ¬ HoldsSourceSyntax line

/-! ### Rows that the check reads -/

theorem isActionKeyword_iff (keyword : String) :
    isActionKeyword keyword = true ↔ IsAction keyword := by
  rw [isActionKeyword, IsAction, Bool.or_eq_true, List.contains_iff_mem, List.any_eq_true]
  simp only [startsWith_iff]

theorem isBeforeKeyword_iff (cell : String) : isBeforeKeyword cell = true ↔ StandsAside cell := by
  rw [isBeforeKeyword, StandsAside, Bool.or_eq_true, Bool.or_eq_true, Bool.and_eq_true,
    String.isEmpty_iff, startsWith_iff, startsWith_iff, endsWith_iff, or_assoc]

theorem mem_fixtureSettings_iff (setting : String) : setting ∈ fixtureSettings ↔
    ∃ scope ∈ ["suite", "test", "task"], ∃ moment ∈ ["setup", "teardown"],
      setting = scope ++ " " ++ moment := by
  simp [fixtureSettings, or_assoc]

theorem importedLibrary?_eq_some_iff {line name : String} : importedLibrary? line = some name ↔
    ∃ setting cell others, splitCells line = setting :: cell :: others ∧
      equalIgnoringAsciiCase setting "library" = true ∧ trim cell = name := by
  unfold importedLibrary?
  rcases splitCells line with _ | ⟨setting, _ | ⟨cell, others⟩⟩
  · simp
  · simp
  · simp [and_assoc]

theorem fixtureKeyword?_eq_some_iff {line keyword : String} : fixtureKeyword? line = some keyword ↔
    ∃ setting cell others, splitCells line = setting :: cell :: others ∧
      toLower setting ∈ fixtureSettings ∧ toLower (trim cell) = keyword := by
  unfold fixtureKeyword?
  rcases splitCells line with _ | ⟨setting, _ | ⟨cell, others⟩⟩
  · simp
  · simp
  · simp [and_assoc]

/-- The check reads a recognized library just in the rows that name one. -/
theorem namesLibrary_iff (line : String) : NamesLibrary line ↔
    ∃ name, importedLibrary? line = some name ∧
      ∃ library ∈ recognizedLibraries, equalIgnoringAsciiCase library name = true := by
  simp only [importedLibrary?_eq_some_iff]
  constructor
  · rintro ⟨setting, cell, others, hcells, hsetting, hknown⟩
    exact ⟨trim cell, ⟨setting, cell, others, hcells, hsetting, rfl⟩, hknown⟩
  · rintro ⟨_, ⟨setting, cell, others, hcells, hsetting, rfl⟩, hknown⟩
    exact ⟨setting, cell, others, hcells, hsetting, hknown⟩

/-- The check reads an action as a fixture just in the rows that run one. -/
theorem runsAsFixture_iff (line : String) : RunsAsFixture line ↔
    ∃ keyword, fixtureKeyword? line = some keyword ∧ isActionKeyword keyword = true := by
  simp only [fixtureKeyword?_eq_some_iff, mem_fixtureSettings_iff, isActionKeyword_iff]
  constructor
  · rintro ⟨setting, cell, others, hcells, hsetting, haction⟩
    exact ⟨_, ⟨setting, cell, others, hcells, hsetting, rfl⟩, haction⟩
  · rintro ⟨_, ⟨setting, cell, others, hcells, hsetting, rfl⟩, haction⟩
    exact ⟨setting, cell, others, hcells, hsetting, haction⟩

/-- The called cell of a row is the first one that does not stand aside. -/
theorem find?_isBeforeKeyword_iff (cells : List String) (keyword : String) :
    (cells.map trim).find? (fun cell ↦ !isBeforeKeyword cell) = some keyword ↔
      ∃ before called after, cells = before ++ called :: after ∧
        (∀ cell ∈ before, StandsAside (trim cell)) ∧ ¬ StandsAside (trim called) ∧
        trim called = keyword := by
  simp only [← isBeforeKeyword_iff]
  rw [List.find?_eq_some_iff_append]
  constructor
  · rintro ⟨hcalled, front, back, hsplit, hfront⟩
    obtain ⟨before, tail, rfl, rfl, htail⟩ := List.map_eq_append_iff.mp hsplit
    obtain ⟨called, after, rfl, rfl, rfl⟩ := List.map_eq_cons_iff.mp htail
    refine ⟨before, called, after, rfl, fun cell hcell ↦ ?_, by simpa using hcalled, rfl⟩
    simpa using hfront (trim cell) (List.mem_map_of_mem hcell)
  · rintro ⟨before, called, after, rfl, hbefore, hcalled, rfl⟩
    refine ⟨by simpa using hcalled, before.map trim, after.map trim, by simp, fun cell hcell ↦ ?_⟩
    obtain ⟨source, hsource, rfl⟩ := List.mem_map.mp hcell
    simpa using hbefore source hsource

/-- The check reads an action as a call just in the rows that call one. -/
theorem callsAction_iff (line : String) : CallsAction line ↔
    ∃ keyword, calledKeyword? line = some keyword ∧ isActionKeyword keyword = true := by
  unfold calledKeyword?
  cases hhead : line.toList.head? with
  | none =>
    refine iff_of_false (fun ⟨⟨c, hc, _⟩, _⟩ ↦ ?_) nofun
    rw [hhead] at hc
    cases hc
  | some c =>
    dsimp only
    split
    next hindented =>
      have hcalled := find?_isBeforeKeyword_iff (splitCells line)
      simp only [Option.map_eq_some_iff, hcalled]
      constructor
      · rintro ⟨-, before, called, after, hcells, hbefore, hfirst, haction⟩
        exact ⟨_, ⟨_, ⟨before, called, after, hcells, hbefore, hfirst, rfl⟩, rfl⟩,
          (isActionKeyword_iff _).mpr haction⟩
      · rintro ⟨_, ⟨_, ⟨before, called, after, hcells, hbefore, hfirst, rfl⟩, rfl⟩, haction⟩
        exact ⟨⟨c, hhead, by simpa using hindented⟩, before, called, after, hcells, hbefore, hfirst,
          (isActionKeyword_iff _).mp haction⟩
    next hplain =>
      refine iff_of_false (fun ⟨⟨d, hd, hindented⟩, _⟩ ↦ hplain ?_) nofun
      obtain rfl := Option.some.inj (hhead.symm.trans hd)
      simpa using hindented

/-! ### Cells of a line that starts with a mark -/

theorem length_takeWhile_append_le {p : Char → Bool} {c : Char} (hc : p c = false)
    (front rest : List Char) : ((front ++ c :: rest).takeWhile p).length ≤ front.length := by
  rw [List.takeWhile_append]
  split
  · rw [List.takeWhile_cons_of_neg (Bool.eq_false_iff.mp hc), List.append_nil]
  · exact (List.takeWhile_sublist _).length_le

section Mark

variable {c : Char}

/-- A separator in front of a mark that is no bar ends before it. -/
theorem cellSeparator_le (hc : isBlank c = false) (hbar : c ≠ '|') {front rest : List Char}
    (hfront : ∀ d ∈ front, isBlank d = true) {before : Option Char} {n : Nat}
    (h : cellSeparator before (front ++ c :: rest) = some n) : n ≤ front.length := by
  have htab : (c == '\t') = false := by
    refine beq_eq_false_iff_ne.mpr ?_
    rintro rfl
    cases hc
  have hspace : (c == ' ') = false := by
    refine beq_eq_false_iff_ne.mpr ?_
    rintro rfl
    cases hc
  have hmark : (front ++ c :: rest).drop ((front ++ c :: rest).takeWhile isBlank).length =
      c :: rest := by
    rw [(Chars.span_append hfront hc rest).1, List.drop_left]
  unfold cellSeparator at h
  dsimp only at h
  rw [hmark] at h
  split at h
  · rw [← Option.some.inj h]
    exact length_takeWhile_append_le (p := (· == '\t')) htab front rest
  · split at h
    · rw [← Option.some.inj h]
      exact length_takeWhile_append_le (p := (· == ' ')) hspace front rest
    · split at h
      next heq => exact absurd (List.cons.inj heq).1 hbar
      next => cases h

/-- White space in front of a mark gives cells of white space, and the start of the cell of the
mark. -/
theorem exists_splitPieces_mark (hc : isBlank c = false) (hbar : c ≠ '|') {front : List Char}
    (hfront : ∀ d ∈ front, isBlank d = true) (rest : List Char) {skip : Nat}
    (hskip : skip ≤ front.length) (before : Option Char) :
    ∃ blanks start tail others,
      splitPieces (piecesFrom cellSeparator skip before (front ++ c :: rest)) =
        blanks ++ (start ++ c :: tail) :: others ∧
      (∀ cell ∈ blanks, ∀ d ∈ cell, isBlank d = true) ∧ ∀ d ∈ start, isBlank d = true := by
  induction front generalizing skip before with
  | nil =>
    obtain rfl : skip = 0 := Nat.le_zero.mp hskip
    obtain ⟨tail, others, hsplit⟩ :=
      exists_splitPieces_eq [c] (piecesFrom cellSeparator 0 (some c) rest)
    refine ⟨[], [], tail, others, ?_, List.forall_mem_nil _, List.forall_mem_nil _⟩
    rw [List.nil_append, piecesFrom, cellSeparator_eq_none hc]
    exact hsplit
  | cons d more ih =>
    obtain ⟨hd, hmore⟩ := List.forall_mem_cons.mp hfront
    cases skip with
    | succ n =>
      rw [List.cons_append, piecesFrom]
      exact ih hmore (Nat.le_of_succ_le_succ hskip) (some d)
    | zero =>
      rw [List.cons_append, piecesFrom]
      split
      next n hfound =>
        have hle : n ≤ (d :: more).length := cellSeparator_le hc hbar hfront hfound
        obtain ⟨blanks, start, tail, others, hsplit, hblanks, hstart⟩ :=
          ih hmore (Nat.sub_le_of_le_add hle) (some d)
        refine ⟨[] :: blanks, start, tail, others, ?_, ?_, hstart⟩
        · rw [splitPieces, hsplit]
          rfl
        · exact List.forall_mem_cons.mpr ⟨List.forall_mem_nil _, hblanks⟩
      next =>
        obtain ⟨blanks, start, tail, others, hsplit, hblanks, hstart⟩ :=
          ih hmore (Nat.zero_le _) (some d)
        rw [splitPieces, hsplit]
        cases blanks with
        | nil => exact ⟨[], d :: start, tail, others, rfl, List.forall_mem_nil _,
            List.forall_mem_cons.mpr ⟨hd, hstart⟩⟩
        | cons cell cells =>
          obtain ⟨hcell, hcells⟩ := List.forall_mem_cons.mp hblanks
          exact ⟨(d :: cell) :: cells, start, tail, others, rfl, List.forall_mem_cons.mpr
            ⟨List.forall_mem_cons.mpr ⟨hd, hcell⟩, hcells⟩, hstart⟩

/-- The cells of a line up to the one in which its mark stands. -/
theorem exists_splitCells_mark {line : String} (h : ink? line = some c) (hbar : c ≠ '|') :
    ∃ blanks cell others, splitCells line = blanks ++ cell :: others ∧
      (∀ blank ∈ blanks, isBlankText blank = true) ∧ ink? cell = some c := by
  obtain ⟨tail, htail⟩ := List.head?_eq_some_iff.mp h
  have hc : isBlank c = false := by
    have hhead := List.head?_dropWhile_not isBlank line.toList
    rwa [← Chars.trimStart, htail] at hhead
  have hfront : ∀ d ∈ line.toList.takeWhile isBlank, isBlank d = true :=
    fun d hd ↦ List.mem_takeWhile_imp hd
  have hline : line.toList = line.toList.takeWhile isBlank ++ c :: tail := by
    rw [← htail, Chars.trimStart, List.takeWhile_append_dropWhile]
  obtain ⟨blanks, start, rest, others, hsplit, hblanks, hstart⟩ :=
    exists_splitPieces_mark hc hbar hfront (Chars.trimEnd tail) (Nat.zero_le _) none
  refine ⟨blanks.map String.ofList, String.ofList (start ++ c :: rest),
    others.map String.ofList, ?_, fun blank hmem ↦ ?_, ?_⟩
  · rw [splitCells, hline, Chars.trimEnd_append_cons hc, if_neg (by simp), splitAtOccurrences,
      pieces, hsplit, List.map_append, List.map_cons]
  · obtain ⟨cell, hcell, rfl⟩ := List.mem_map.mp hmem
    rw [isBlankText, String.toList_ofList, List.all_eq_true]
    exact hblanks cell hcell
  · rw [ink?, String.toList_ofList, Chars.trimStart, (Chars.span_append hstart hc rest).2]
    rfl

end Mark

/-! ### Headers and blank lines are no rows -/

section Header

variable {line : String}

theorem trim_eq_empty_of_isBlankText {text : String} (h : isBlankText text = true) :
    trim text = "" := by
  rw [trim, ← List.append_nil text.toList, Chars.trim_append_of_blank (List.all_eq_true.mp h)]
  rfl

theorem head?_trim_of_ink? {text : String} {c : Char} (h : ink? text = some c) :
    (trim text).toList.head? = some c := by
  obtain ⟨tail, htail⟩ := List.head?_eq_some_iff.mp h
  have hc : isBlank c = false := by
    have hhead := List.head?_dropWhile_not isBlank text.toList
    rwa [← Chars.trimStart, htail] at hhead
  rw [trim, String.toList_ofList, Chars.trim, htail]
  exact congrArg List.head? (Chars.trimEnd_append_cons hc [] tail)

theorem head?_toLower {text : String} {c : Char} (h : text.toList.head? = some c)
    (hsigma : c ≠ 'Σ') (hc : lowerChar c = [c]) : (toLower text).toList.head? = some c := by
  obtain ⟨tail, htail⟩ := List.head?_eq_some_iff.mp h
  rw [toLower, String.toList_ofList, htail, lowerFrom, if_neg (by simpa using hsigma), hc]
  rfl

theorem isActionKeyword_of_mark {c : Char} (hc : c ∈ ['*', '#']) {keyword : String}
    (h : keyword.toList.head? = some c) : isActionKeyword keyword = false := by
  have hall : ∀ other ∈ actionKeywords ++ assertionStarts,
      other.toList.head?.any (fun d ↦ d != '*' && d != '#') = true := by
    decide +kernel
  have hkeywords (other : String) (hother : other ∈ actionKeywords ++ assertionStarts) :
      ∃ d ∈ other.toList.head?, d ∉ ['*', '#'] := by
    obtain ⟨d, hhead, hd⟩ := (Option.any_eq_true _ _).mp (hall other hother)
    exact ⟨d, hhead, by simpa using hd⟩
  rw [isActionKeyword, Bool.or_eq_false_iff, List.any_eq_false]
  refine ⟨Bool.eq_false_iff.mpr fun hmem ↦ ?_, fun start hstart hstarted ↦ ?_⟩
  · obtain ⟨d, hhead, hd⟩ :=
      hkeywords keyword (List.mem_append_left _ (List.contains_iff_mem.mp hmem))
    rw [Option.mem_def.mp hhead] at h
    exact hd (Option.some.inj h ▸ hc)
  · obtain ⟨d, hhead, hd⟩ := hkeywords start (List.mem_append_right _ hstart)
    rw [head?_of_startsWith hstarted hhead] at h
    exact hd (Option.some.inj h ▸ hc)

/-- A header or a comment calls nothing, even if it is indented. -/
theorem calledKeyword?_of_mark {c : Char} (hc : c ∈ ['*', '#']) (h : ink? line = some c) :
    (calledKeyword? line).any isActionKeyword = false := by
  obtain ⟨⟨hbar, hdollar, hbracket⟩, hsigma, hsmall⟩ :
      (c ≠ '|' ∧ c ≠ '$' ∧ c ≠ '[') ∧ c ≠ 'Σ' ∧ c.toNat < 65 := by
    obtain rfl | rfl : c = '*' ∨ c = '#' := by simpa using hc
    · decide
    · decide
  obtain ⟨blanks, cell, others, hcells, hblanks, hink⟩ := exists_splitCells_mark h hbar
  have hhead : (trim cell).toList.head? = some c := head?_trim_of_ink? hink
  have hbefore : isBeforeKeyword (trim cell) = false := by
    have hempty : (trim cell).isEmpty = false := by
      rw [String.isEmpty_eq_false_iff]
      intro hempty
      rw [hempty] at hhead
      cases hhead
    rw [isBeforeKeyword, hempty, startsWith_eq_false hhead (d := '$') (by decide) hdollar,
      startsWith_eq_false hhead (d := '[') (by decide) hbracket]
    rfl
  have hnone : (blanks.map trim).find? (fun text ↦ !isBeforeKeyword text) = none := by
    rw [List.find?_eq_none]
    intro text htext
    obtain ⟨blank, hblank, rfl⟩ := List.mem_map.mp htext
    rw [trim_eq_empty_of_isBlankText (hblanks blank hblank)]
    decide
  have hfound : ((splitCells line).map trim).find? (fun text ↦ !isBeforeKeyword text) =
      some (trim cell) := by
    rw [hcells, List.map_append, List.map_cons, List.find?_append, List.find?_cons, hbefore, hnone]
    rfl
  rw [calledKeyword?, hfound]
  cases line.toList.head? with
  | none => rfl
  | some d =>
    dsimp only
    split
    · rw [Option.map_some, Option.any_some]
      exact isActionKeyword_of_mark hc (head?_toLower hhead hsigma (lowerChar_eq_self hsmall))
    · rfl

/-- A character of white space stays itself in lower case. -/
theorem lowerChar_of_isBlank {c : Char} (h : isBlank c = true) : lowerChar c = [c] := by
  obtain ⟨run, hrun, hfirst, hlast⟩ := Table.exists_run_of_contains h
  have hall : ∀ n ∈ List.range' run.first (run.last + 1 - run.first),
      lowerChar (Char.ofNat n) = [Char.ofNat n] := by
    clear hfirst hlast
    revert run
    decide +kernel
  have hself := hall c.toNat (List.mem_range'_1.mpr ⟨hfirst, by omega⟩)
  rwa [Char.ofNat_toNat] at hself

/-- The first cell of a line, unless it is empty, starts where the line does. -/
theorem head?_of_splitCells {first : String} {others : List String}
    (hcells : splitCells line = first :: others) {c : Char} (hc : first.toList.head? = some c) :
    line.toList.head? = some c := by
  unfold splitCells at hcells
  dsimp only at hcells
  split at hcells
  · cases hcells
  · obtain ⟨part, parts, hsplit, rfl, -⟩ := List.map_eq_cons_iff.mp hcells
    rw [String.toList_ofList] at hc
    have hne : part ≠ [] := by
      rintro rfl
      cases hc
    rw [head?_of_splitAtOccurrences hsplit hne] at hc
    exact head?_of_trimEnd hc

/-- The first cell of a header is empty, or it starts with white space or the mark of a header. -/
theorem head?_first_cell {first : String} {others : List String} (h : isHeader line = true)
    (hcells : splitCells line = first :: others) :
    ∀ c ∈ first.toList.head?, isBlank c = true ∨ c = '*' := by
  intro c hc
  by_cases hblank : isBlank c = true
  · exact Or.inl hblank
  · have hink := ink?_of_head? (head?_of_splitCells hcells hc) (Bool.eq_false_iff.mpr hblank)
    rw [ink?_of_isHeader h] at hink
    exact Or.inr (Option.some.inj hink).symm

theorem asciiLowerChar_of_isBlank {c : Char} (h : isBlank c = true) : asciiLowerChar c = c := by
  refine if_neg fun hupper ↦ ?_
  have hletter : isUpperAscii c = true := by
    rw [isUpperAscii, decide_eq_true hupper.1, decide_eq_true hupper.2]
    rfl
  rw [isBlank_of_isUpperAscii hletter] at h
  cases h

/-- An import starts with its first letter, in either case. -/
theorem exists_head?_of_importedLibrary? {name : String} (h : importedLibrary? line = some name) :
    ∃ c, line.toList.head? = some c ∧ asciiLowerChar c = 'l' := by
  obtain ⟨setting, cell, others, hcells, hlibrary, -⟩ := importedLibrary?_eq_some_iff.mp h
  rw [equalIgnoringAsciiCase, beq_iff_eq, toAsciiLower, ← String.toList_inj,
    String.toList_ofList] at hlibrary
  obtain ⟨c, more, hsetting⟩ : ∃ c more, setting.toList = c :: more := by
    refine List.exists_cons_of_ne_nil fun hnil ↦ ?_
    rw [hnil] at hlibrary
    cases hlibrary
  rw [hsetting, List.map_cons] at hlibrary
  exact ⟨c, head?_of_splitCells hcells (by rw [hsetting]; rfl), (List.cons.inj hlibrary).1⟩

/-- A header imports nothing. -/
theorem importedLibrary?_of_isHeader (h : isHeader line = true) : importedLibrary? line = none := by
  by_contra hsome
  obtain ⟨name, hname⟩ := Option.ne_none_iff_exists'.mp hsome
  obtain ⟨c, hhead, hlower⟩ := exists_head?_of_importedLibrary? hname
  by_cases hblank : isBlank c = true
  · rw [asciiLowerChar_of_isBlank hblank] at hlower
    rw [hlower] at hblank
    exact absurd hblank (by decide)
  · have hink := ink?_of_head? hhead (Bool.eq_false_iff.mpr hblank)
    rw [ink?_of_isHeader h] at hink
    rw [← Option.some.inj hink] at hlower
    exact absurd hlower (by decide)

/-- A header is no setting of a fixture. -/
theorem fixtureKeyword?_of_isHeader (h : isHeader line = true) : fixtureKeyword? line = none := by
  have hall : ∀ setting ∈ fixtureSettings,
      setting.toList.head?.all (fun c ↦ !isBlank c && c != '*') = true := by decide
  have hsettings (setting : String) (hmem : setting ∈ fixtureSettings) (c : Char)
      (hc : setting.toList.head? = some c) : isBlank c = false ∧ c ≠ '*' := by
    have hstart := hall setting hmem
    rw [hc] at hstart
    simpa using hstart
  by_contra hsome
  obtain ⟨keyword, hkeyword⟩ := Option.ne_none_iff_exists'.mp hsome
  obtain ⟨setting, cell, others, hcells, hmem, -⟩ := fixtureKeyword?_eq_some_iff.mp hkeyword
  cases hsetting : setting.toList.head? with
  | none =>
    have hempty : setting = "" := String.toList_eq_nil_iff.mp (List.head?_eq_none_iff.mp hsetting)
    rw [hempty] at hmem
    exact absurd hmem (by decide)
  | some c =>
    obtain hblank | rfl := head?_first_cell h hcells c hsetting
    · have hsigma : c ≠ 'Σ' := by
        rintro rfl
        exact absurd hblank (by decide)
      have hfree := hsettings _ hmem c
        (head?_toLower hsetting hsigma (lowerChar_of_isBlank hblank))
      rw [hfree.1] at hblank
      cases hblank
    · exact (hsettings _ hmem '*'
        (head?_toLower hsetting (by decide) (lowerChar_eq_self (by decide)))).2 rfl

/-- A blank line has no cells. -/
theorem splitCells_of_isBlankText (h : isBlankText line = true) : splitCells line = [] := by
  rw [splitCells, Chars.trimEnd_of_blank (List.all_eq_true.mp h)]
  rfl

/-- A header runs no action, and neither does a blank line. -/
theorem not_runsAction (h : isHeader line = true ∨ isBlankText line = true) (name : String) :
    ¬ RunsAction name line := by
  obtain hheader | hblank := h
  · rw [RunsAction, runsAsFixture_iff, callsAction_iff, fixtureKeyword?_of_isHeader hheader]
    rintro (⟨-, _, hread, -⟩ | ⟨-, keyword, hread, haction⟩)
    · cases hread
    · have hnone := calledKeyword?_of_mark (by decide) (ink?_of_isHeader hheader)
      rw [hread, Option.any_some, haction] at hnone
      cases hnone
  · have hcells := splitCells_of_isBlankText hblank
    rintro (⟨-, setting, cell, others, hfixture, -⟩ | ⟨-, -, before, called, after, hcalled, -⟩)
    · cases hcells.symm.trans hfixture
    · exact absurd (hcells.symm.trans hcalled) (by simp)

/-- A header names no library, and neither does a blank line. -/
theorem not_namesLibrary (h : isHeader line = true ∨ isBlankText line = true) :
    ¬ NamesLibrary line := by
  obtain hheader | hblank := h
  · rw [namesLibrary_iff, importedLibrary?_of_isHeader hheader]
    exact nofun
  · rintro ⟨setting, cell, others, hcells, -⟩
    cases (splitCells_of_isBlankText hblank).symm.trans hcells

end Header

/-! ### Rows and the nearest header -/

theorem nearestHeader?_cons (line : String) (above : List String) :
    nearestHeader? (line :: above) = (nearestHeader? above).or (sectionName? line) := by
  rw [nearestHeader?, List.reverse_cons, List.findSome?_append, ← nearestHeader?]
  congr 1
  cases h : sectionName? line <;> simp [h]

/-- The rows are the lines that are neither headers nor comments nor blank, each in the section of
the nearest header above it. -/
theorem exists_mem_rowsFrom_iff (P : String → String → Prop) (number : Nat) (name : String)
    (content : List String) :
    (∃ r ∈ rowsFrom number name content, P r.sectionName r.text) ↔
      ∃ above line below, content = above ++ line :: below ∧ isHeader line = false ∧
        isInked line = true ∧ P ((nearestHeader? above).getD name) line := by
  induction content generalizing number name with
  | nil =>
    refine iff_of_false (fun ⟨_, hmem, _⟩ ↦ List.not_mem_nil hmem) ?_
    rintro ⟨above, line, below, heq, -⟩
    exact absurd heq (by simp)
  | cons first rest ih =>
    have hsplit (Q : List String → String → Prop) :
        (∃ above line below, first :: rest = above ++ line :: below ∧ Q above line) ↔
          Q [] first ∨ ∃ above line below, rest = above ++ line :: below ∧
            Q (first :: above) line := by
      constructor
      · rintro ⟨above, line, below, heq, hline⟩
        cases above with
        | nil =>
          obtain ⟨rfl, rfl⟩ := List.cons.inj heq
          exact Or.inl hline
        | cons second others =>
          obtain ⟨rfl, rfl⟩ := List.cons.inj heq
          exact Or.inr ⟨others, line, below, rfl, hline⟩
      · rintro (hline | ⟨above, line, below, rfl, hline⟩)
        · exact ⟨[], first, rest, rfl, hline⟩
        · exact ⟨first :: above, line, below, rfl, hline⟩
    rw [hsplit fun above line ↦ isHeader line = false ∧ isInked line = true ∧
      P ((nearestHeader? above).getD name) line]
    simp only [nearestHeader?_cons]
    rw [rowsFrom]
    cases hname : sectionName? first with
    | some next =>
      have hheader : isHeader first = true := by
        rw [isHeader, hname]
        rfl
      dsimp only
      rw [ih, hheader]
      simp
    | none =>
      have hheader : isHeader first = false := by
        rw [isHeader, hname]
        rfl
      dsimp only
      split
      next hskipped =>
        have hinked : isInked first = false := by rw [isInked, hskipped]; rfl
        rw [ih, hinked]
        simp
      next hkept =>
        have hinked : isInked first = true := by
          rw [isInked, Bool.eq_false_iff.mpr hkept]
          rfl
        simp only [List.mem_cons, exists_eq_or_imp]
        rw [ih, hheader, hinked]
        simp [nearestHeader?]

/-! ### What the check asks of the rows -/

theorem holdsSourceSyntax_iff (line : String) :
    HoldsSourceSyntax line ↔ (leak? line).isSome = true :=
  (leak?_isSome_iff line).symm

theorem not_holdsSourceSyntax_of_isBlankText {line : String} (h : isBlankText line = true) :
    ¬ HoldsSourceSyntax line := by
  have hcode : Chars.trim line.toList = [] := by
    rw [← List.append_nil line.toList, Chars.trim_append_of_blank (List.all_eq_true.mp h)]
    rfl
  rw [holdsSourceSyntax_iff, leak?, hcode]
  decide

theorem isBodySection_iff (name : String) :
    isBodySection name = true ↔ name ∈ ["keyword", "test case", "task"] := by
  simp [isBodySection, or_assoc]

/-- The setting of a fixture is no import. -/
theorem importedLibrary?_of_fixtureKeyword? {line keyword : String}
    (h : fixtureKeyword? line = some keyword) : importedLibrary? line = none := by
  have hspaces : ∀ setting ∈ fixtureSettings, ' ' ∈ setting.toList := by decide
  by_contra hsome
  obtain ⟨name, hname⟩ := Option.ne_none_iff_exists'.mp hsome
  obtain ⟨setting, _, _, hcells, hmem, -⟩ := fixtureKeyword?_eq_some_iff.mp h
  obtain ⟨first, _, _, hfirst, hlibrary, -⟩ := importedLibrary?_eq_some_iff.mp hname
  obtain ⟨rfl, -⟩ := List.cons.inj (hcells.symm.trans hfirst)
  rw [equalIgnoringAsciiCase, beq_iff_eq, toAsciiLower, ← String.toList_inj,
    String.toList_ofList] at hlibrary
  -- the settings of fixtures are two words
  have hspace : ' ' ∈ setting.toList := by
    by_contra hno
    refine space_notMem_lowerFrom hno [] ?_
    have hlower := hspaces _ hmem
    rwa [toLower, String.toList_ofList] at hlower
  have hmapped : ' ' ∈ setting.toList.map asciiLowerChar :=
    List.mem_map.mpr ⟨' ', hspace, by decide⟩
  rw [hlibrary] at hmapped
  exact absurd hmapped (by decide)

theorem isAction_iff (r : SectionRow) : r.isAction = true ↔ RunsAction r.sectionName r.text := by
  rw [SectionRow.isAction, RunsAction, runsAsFixture_iff, callsAction_iff, ← isBodySection_iff]
  by_cases hsetting : r.sectionName = "setting"
  · rw [hsetting, if_pos (by decide), Bool.and_eq_true, Option.isNone_iff_eq_none,
      Option.any_eq_true]
    constructor
    · exact fun h ↦ Or.inl ⟨rfl, h.2⟩
    · rintro (⟨-, keyword, hread, haction⟩ | ⟨hbody, -⟩)
      · exact ⟨importedLibrary?_of_fixtureKeyword? hread, keyword, hread, haction⟩
      · exact absurd hbody (by decide)
  · rw [if_neg (by simpa using hsetting), Bool.and_eq_true, Option.any_eq_true]
    exact ⟨Or.inr, fun h ↦ h.resolve_left fun hno ↦ hsetting hno.1⟩

theorem isSome_library?_iff (r : SectionRow) :
    r.library?.isSome = true ↔ r.sectionName = "setting" ∧ NamesLibrary r.text := by
  rw [SectionRow.library?, namesLibrary_iff]
  by_cases hsetting : r.sectionName = "setting"
  · rw [if_pos (by simpa using hsetting), Option.isSome_iff_exists]
    simp only [Option.filter_eq_some_iff, List.any_eq_true, hsetting, true_and]
  · rw [if_neg (by simpa using hsetting)]
    exact iff_of_false nofun fun h ↦ hsetting h.1

/-! ### The parts of a report -/

section Report

variable (content : String)

/-- Rows of the settings or of another section, as lines below their header. -/
theorem exists_mem_sectionRows_iff {P : String → String → Prop} (hempty : ∀ line, ¬ P "" line)
    (hrow : ∀ name line, isHeader line = true ∨ isBlankText line = true → ¬ P name line) :
    (∃ r ∈ sectionRows content, P r.sectionName r.text) ↔
      ∃ name line, StandsIn content name line ∧ P name line := by
  rw [sectionRows, exists_mem_rowsFrom_iff]
  constructor
  · rintro ⟨above, line, below, heq, -, hinked, hholds⟩
    cases hname : nearestHeader? above with
    | none =>
      rw [hname] at hholds
      exact absurd hholds (hempty line)
    | some name =>
      rw [hname] at hholds
      rw [isInked, Bool.not_eq_true', Bool.or_eq_false_iff] at hinked
      exact ⟨name, line, ⟨above, below, heq, hname, hinked.1⟩, hholds⟩
  · rintro ⟨name, line, ⟨above, below, heq, hname, hcomment⟩, hholds⟩
    refine ⟨above, line, below, heq, ?_, ?_, ?_⟩
    · exact Bool.eq_false_iff.mpr fun hheader ↦ hrow name line (Or.inl hheader) hholds
    · rw [isInked, hcomment, Bool.false_or]
      by_contra hblank
      exact hrow name line (Or.inr (by simpa using hblank)) hholds
    · rwa [hname]

theorem filterMap_leakIssue?_eq_nil_iff : (sectionRows content).filterMap leakIssue? = [] ↔
    ∀ line ∈ lines content, isComment line = false → isHeader line = false →
      ¬ HoldsSourceSyntax line := by
  have hrows := exists_mem_rowsFrom_iff (fun _ text ↦ HoldsSourceSyntax text) 1 "" (lines content)
  have hnone : (sectionRows content).filterMap leakIssue? = [] ↔
      ¬ ∃ r ∈ sectionRows content, HoldsSourceSyntax r.text := by
    rw [List.filterMap_eq_nil_iff]
    simp only [holdsSourceSyntax_iff, not_exists, not_and, leakIssue?, Option.map_eq_none_iff,
      Option.not_isSome_iff_eq_none]
  rw [hnone, sectionRows, hrows]
  constructor
  · intro h line hmem hcomment hheader hholds
    obtain ⟨above, below, heq⟩ := List.append_of_mem hmem
    refine h ⟨above, line, below, heq, hheader, ?_, hholds⟩
    rw [isInked, hcomment, Bool.false_or]
    by_contra hblank
    exact not_holdsSourceSyntax_of_isBlankText (by simpa using hblank) hholds
  · rintro h ⟨above, line, below, heq, hheader, hinked, hholds⟩
    rw [isInked, Bool.not_eq_true', Bool.or_eq_false_iff] at hinked
    refine h line ?_ hinked.1 hheader hholds
    rw [heq]
    exact List.mem_append_right _ List.mem_cons_self

theorem hasBodySection_iff : hasBodySection content = true ↔
    ∃ line ∈ lines content, ∃ name ∈ ["keyword", "test case", "task"],
      sectionName? line = some name := by
  rw [hasBodySection, List.any_eq_true]
  refine exists_congr fun line ↦ and_congr_right fun _ ↦ ?_
  rw [Option.any_eq_true]
  exact exists_congr fun name ↦ (and_congr_right fun _ ↦ isBodySection_iff name).trans and_comm

theorem library?_ne_none_iff : library? content ≠ none ↔ ImportsLibrary content := by
  have hrows := exists_mem_sectionRows_iff content
    (P := fun name line ↦ name = "setting" ∧ NamesLibrary line)
    (fun _ h ↦ absurd h.1 (by decide)) fun _ _ hline h ↦ not_namesLibrary hline h.2
  have hsome : library? content ≠ none ↔ ∃ r ∈ sectionRows content, r.library?.isSome = true := by
    rw [library?, Ne, List.getLast?_eq_none_iff, List.filterMap_eq_nil_iff]
    simp only [not_forall, Option.isSome_iff_ne_none, exists_prop, ne_eq]
  rw [hsome]
  simp only [isSome_library?_iff]
  rw [hrows, ImportsLibrary]
  constructor
  · rintro ⟨_, line, hstands, rfl, himport⟩
    exact ⟨line, hstands, himport⟩
  · rintro ⟨line, hstands, himport⟩
    exact ⟨"setting", line, hstands, rfl, himport⟩

theorem any_isAction_iff : (sectionRows content).any SectionRow.isAction = true ↔
    ∃ name line, StandsIn content name line ∧ RunsAction name line := by
  rw [List.any_eq_true]
  simp only [isAction_iff]
  refine exists_mem_sectionRows_iff content (P := RunsAction) ?_ fun name line hline ↦
    not_runsAction hline name
  rintro line (⟨hno, -⟩ | ⟨hno, -⟩) <;> exact absurd hno (by decide)

theorem libraryIssues_eq_nil_iff : libraryIssues content = [] ↔
    ImportsLibrary content ∧ ∃ name line, StandsIn content name line ∧ RunsAction name line := by
  rw [← library?_ne_none_iff, ← any_isAction_iff, libraryIssues]
  cases library? content with
  | none => simp
  | some name => cases (sectionRows content).any SectionRow.isAction <;> simp

/-- A file is valid just if it keeps the rule; without a recognized library it is not. -/
theorem isValid_validate_iff :
    ((validate content).isValid = true ↔ KeepsRule content) ∧
      (¬ ImportsLibrary content → (validate content).isValid = false) := by
  have hvalid : (validate content).isValid = true ↔ KeepsRule content := by
    have hbody : (if hasBodySection content then []
        else ["missing *** Keywords *** or *** Test Cases *** section"]) = [] ↔
        hasBodySection content = true := by
      cases hasBodySection content <;> simp
    rw [Report.isValid, validate, List.isEmpty_iff, List.append_eq_nil_iff,
      List.append_eq_nil_iff, filterMap_leakIssue?_eq_nil_iff, hbody, hasBodySection_iff,
      libraryIssues_eq_nil_iff]
    constructor
    · rintro ⟨⟨hsource, hsection⟩, hlibrary, haction⟩
      exact ⟨hsection, hlibrary, haction, hsource⟩
    · rintro ⟨hsection, hlibrary, haction, hsource⟩
      exact ⟨⟨hsource, hsection⟩, hlibrary, haction⟩
  exact ⟨hvalid, fun hno ↦ Bool.eq_false_iff.mpr fun h ↦ hno (hvalid.mp h).library⟩

end Report

end SuiteMigration.Robot
