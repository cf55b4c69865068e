import SuiteMigration.Proofs.Robot.Unbroken
import SuiteMigration.Proofs.Robot.ValidityRule

/-!
Rows of actions that a check recognizes. The keywords that actions are mapped to and the keywords
that a check looks for are two tables; every keyword of the first is in the second. A reader finds
it in the row, whatever the arguments are: it stands in a cell of its own, behind at most the
variable for the result, and both are written without anything that ends a cell.
-/

set_option autoImplicit false
set_option relaxedAutoImplicit false

namespace SuiteMigration.Robot

open SuiteMigration.Text SuiteMigration.Chars SuiteMigration.Keyword

/-! ### Cells that are read as they are written -/

/-- A text that is one cell: words joined by single spaces, with no bar at the start of a word. -/
structure Solid (cs : List Char) : Prop where
  visible : ∃ c ∈ cs.head?, isBlank c = false
  spaced : SingleSpaced cs
  noBar : ¬ [' ', '|'] <:+: cs

theorem solid_of_word {cs : List Char} (hne : cs ≠ []) (h : ∀ c ∈ cs, isBlank c = false) :
    Solid cs := by
  obtain ⟨c, rest, rfl⟩ := List.exists_cons_of_ne_nil hne
  have hspaced := SingleSpaced.append_word h .nil
  rw [List.append_nil] at hspaced
  refine ⟨⟨c, rfl, h c List.mem_cons_self⟩, hspaced, fun hpart ↦ ?_⟩
  cases h ' ' (hpart.subset List.mem_cons_self)

/-- Behind a cell there is nothing, or a separator. -/
def EndsCell (tail : List Char) : Prop :=
  tail = [] ∨ separator.toList <+: tail

theorem exists_cellSeparator_separator (before : Option Char) (rest : List Char) :
    ∃ n, cellSeparator before (separator.toList ++ rest) = some n := by
  have htabs : (separator.toList ++ rest).takeWhile (· == '\t') = [] := rfl
  have hspaces : 2 ≤ ((separator.toList ++ rest).takeWhile (· == ' ')).length := by
    have hall : ∀ c ∈ separator.toList, (c == ' ') = true := List.all_eq_true.mp (by decide)
    rw [List.takeWhile_append_of_pos hall, List.length_append]
    exact Nat.le_add_right_of_le (by decide)
  unfold cellSeparator
  rw [htabs]
  dsimp only [List.length_nil]
  rw [if_neg (Nat.lt_irrefl 0), if_pos hspaces]
  exact ⟨_, rfl⟩

/-- A text without anything that ends a cell is read character by character. -/
theorem exists_piecesFrom_solid {cs : List Char} (h : SingleSpaced cs) (hbar : ¬ [' ', '|'] <:+: cs)
    (before : Option Char) (tail : List Char) :
    ∃ last, piecesFrom cellSeparator 0 before (cs ++ tail) =
      cs.map .plain ++ piecesFrom cellSeparator 0 last tail := by
  induction h generalizing before with
  | nil => exact ⟨before, rfl⟩
  | @cons c rest hsingle _ ih =>
    have hnone : cellSeparator before (c :: (rest ++ tail)) = none := by
      by_cases hc : isBlank c = true
      · obtain ⟨rfl, d, hd, hvisible⟩ := hsingle hc
        obtain ⟨more, rfl⟩ := List.head?_eq_some_iff.mp hd
        refine cellSeparator_space hvisible (fun heq ↦ absurd ?_ hbar) before
        rw [heq]
        exact (List.prefix_append [' ', '|'] more).isInfix
      · exact cellSeparator_eq_none (Bool.eq_false_iff.mpr hc) before _
    obtain ⟨last, hlast⟩ := ih (fun hpart ↦ hbar (List.infix_cons hpart)) (some c)
    refine ⟨last, ?_⟩
    rw [List.cons_append, piecesFrom, hnone]
    exact congrArg _ hlast

theorem exists_join_eq_cons {cells : List (List Char)} (hne : cells ≠ [])
    (h : ∀ cell ∈ cells, Solid cell) :
    ∃ c rest, join separator.toList cells = c :: rest ∧ isBlank c = false := by
  obtain ⟨cell, others, rfl⟩ := List.exists_cons_of_ne_nil hne
  obtain ⟨c, hhead, hc⟩ := (h cell List.mem_cons_self).visible
  obtain ⟨more, rfl⟩ := List.head?_eq_some_iff.mp hhead
  cases others with
  | nil => exact ⟨c, more, join_singleton _ _, hc⟩
  | cons next further => exact ⟨c, _, join_cons_cons _ _ _ _, hc⟩

theorem exists_join_eq_concat {cells : List (List Char)} (hne : cells ≠ [])
    (h : ∀ cell ∈ cells, Solid cell) :
    ∃ front c, join separator.toList cells = front ++ [c] ∧ isBlank c = false := by
  induction cells with
  | nil => exact absurd rfl hne
  | cons cell rest ih =>
    obtain ⟨hcell, hrest⟩ := List.forall_mem_cons.mp h
    cases rest with
    | nil =>
      rw [join_singleton]
      obtain rfl | ⟨front, c, rfl⟩ := List.eq_nil_or_concat' cell
      · obtain ⟨_, hhead, _⟩ := hcell.visible
        cases hhead
      · exact ⟨front, c, rfl, hcell.spaced.isBlank_getLast c List.getLast?_concat⟩
    | cons next others =>
      obtain ⟨front, c, hjoin, hc⟩ := ih (List.cons_ne_nil _ _) hrest
      exact ⟨_, c, by rw [join_cons_cons, hjoin, ← List.append_assoc], hc⟩

/-- Solid cells are the first cells of a text that they start. -/
theorem exists_splitPieces_cells {cells : List (List Char)} (hne : cells ≠ [])
    (h : ∀ cell ∈ cells, Solid cell) {tail : List Char} (htail : EndsCell tail)
    (before : Option Char) : ∃ others,
      splitPieces (piecesFrom cellSeparator 0 before (join separator.toList cells ++ tail)) =
        cells ++ others := by
  induction cells generalizing before with
  | nil => exact absurd rfl hne
  | cons cell rest ih =>
    obtain ⟨hcell, hrest⟩ := List.forall_mem_cons.mp h
    cases rest with
    | nil =>
      obtain ⟨last, hlast⟩ := exists_piecesFrom_solid hcell.spaced hcell.noBar before tail
      rw [join_singleton, hlast]
      obtain rfl | ⟨more, rfl⟩ := htail
      · exact ⟨[], by rw [piecesFrom, List.append_nil, splitPieces_plain]; rfl⟩
      · obtain ⟨n, hn⟩ := exists_cellSeparator_separator last more
        obtain ⟨text, pieces, hpieces⟩ : ∃ text pieces,
            piecesFrom cellSeparator 0 last (separator.toList ++ more) = .found text :: pieces := by
          change ∃ text pieces, piecesFrom cellSeparator 0 last (' ' :: _) = _
          rw [piecesFrom, show cellSeparator last (' ' :: _) = some n from hn]
          exact ⟨_, _, rfl⟩
        exact ⟨splitPieces pieces, by rw [hpieces, splitPieces_word]; rfl⟩
    | cons next others =>
      obtain ⟨c, first, hfirst, hc⟩ := exists_join_eq_cons (List.cons_ne_nil next others) hrest
      obtain ⟨last, hlast⟩ := exists_piecesFrom_solid hcell.spaced hcell.noBar before
        (separator.toList ++ (join separator.toList (next :: others) ++ tail))
      obtain ⟨cells, hcells⟩ := ih (List.cons_ne_nil _ _) hrest none
      refine ⟨cells, ?_⟩
      rw [join_cons_cons, List.append_assoc, List.append_assoc, hlast, hfirst, List.cons_append,
        piecesFrom_indented hc, splitPieces_word, ← List.cons_append, ← hfirst, hcells]
      rfl

theorem join_append {xs : List (List Char)} (hxs : xs ≠ []) (ys : List (List Char)) :
    ∃ more, join separator.toList (xs ++ ys) = join separator.toList xs ++ more ∧
      EndsCell more := by
  cases ys with
  | nil => exact ⟨[], by rw [List.append_nil, List.append_nil], Or.inl rfl⟩
  | cons y others =>
    refine ⟨separator.toList ++ join separator.toList (y :: others), ?_,
      Or.inr (List.prefix_append _ _)⟩
    induction xs with
    | nil => exact absurd rfl hxs
    | cons x rest ih =>
      cases rest with
      | nil => rw [List.singleton_append, join_cons_cons, join_singleton, List.append_assoc]
      | cons next further =>
        rw [List.cons_append, List.cons_append, join_cons_cons, ← List.cons_append,
          ih (List.cons_ne_nil _ _), join_cons_cons]
        simp only [List.append_assoc]

theorem endsCell_trimEnd {tail : List Char} (h : EndsCell tail) :
    EndsCell (Chars.trimEnd tail) := by
  obtain rfl | ⟨rest, rfl⟩ := h
  · exact Or.inl rfl
  · by_cases hblank : ∀ c ∈ rest, isBlank c = true
    · refine Or.inl (trimEnd_of_blank fun c hc ↦ ?_)
      obtain hc | hc := List.mem_append.mp hc
      · exact List.all_eq_true.mp (by decide : separator.toList.all isBlank = true) c hc
      · exact hblank c hc
    · simp only [not_forall, exists_prop, Bool.not_eq_true] at hblank
      obtain ⟨c, hmem, hc⟩ := hblank
      obtain ⟨front, behind, rfl⟩ := List.append_of_mem hmem
      rw [← List.append_assoc, trimEnd_append_cons hc, List.append_assoc]
      exact Or.inr (List.prefix_append _ _)

/-- The cells of an indented row that starts with solid cells. -/
theorem exists_splitCells_row {start : List String} (hne : start ≠ [])
    (h : ∀ cell ∈ start, Solid cell.toList) (rest : List String) :
    ∃ others, splitCells (separator ++ row (start ++ rest)) = "" :: (start ++ others) := by
  have hsolid : ∀ cell ∈ start.map String.toList, Solid cell := List.forall_mem_map.mpr h
  have hcells : start.map String.toList ≠ [] := by simpa using hne
  obtain ⟨more, hjoin, hmore⟩ := join_append hcells (rest.map String.toList)
  obtain ⟨front, c, hfront, hc⟩ := exists_join_eq_concat hcells hsolid
  obtain ⟨d, first, hfirst, hd⟩ := exists_join_eq_cons hcells hsolid
  have hline : Chars.trimEnd (separator ++ row (start ++ rest)).toList =
      separator.toList ++ (join separator.toList (start.map String.toList) ++
        Chars.trimEnd more) := by
    have hkept := trimEnd_append_cons hc (separator.toList ++ front) more
    rw [String.toList_append, row, String.toList_intercalate, List.map_append, ← Chars.join, hjoin,
      hfront]
    simpa using hkept
  obtain ⟨others, hothers⟩ :=
    exists_splitPieces_cells hcells hsolid (endsCell_trimEnd hmore) none
  have hback : (start.map String.toList).map String.ofList = start := by
    rw [List.map_map]
    exact List.map_id'' (fun _ ↦ String.ofList_toList) start
  refine ⟨others.map String.ofList, ?_⟩
  rw [splitCells, hline, if_neg (by rw [hfirst]; simp), splitAtOccurrences, pieces, hfirst,
    List.cons_append, piecesFrom_indented hd, ← List.cons_append, ← hfirst, splitPieces, hothers,
    List.map_cons, List.map_append, hback]

/-! ### The table of keywords -/

/-- The keywords that actions are mapped to. -/
def mappedKeywords : List String :=
  ["Click Element", "Input Text", "Clear Element Text", "Get Text",
   "Run Keyword And Return Status", "Element Should Be Visible", "Element Should Be Enabled",
   "Submit Form", "Get Element Attribute", "Select From List By Label",
   "Select From List By Value", "Select From List By Index", "Go To", "Go Back", "Reload Page",
   "Maximize Browser Window", "Close Browser", "Get Title", "Get Location",
   "Wait Until Element Is Visible", "Wait Until Element Is Not Visible",
   "Wait Until Element Is Enabled", "Sleep", "Should Be Equal", "Should Be True",
   "Should Not Be True", "Should Not Be Equal"]

/-- Every keyword of the mapping is one that a check looks for. -/
theorem mappedKeywords_recognized : ∀ keyword ∈ mappedKeywords,
    isBeforeKeyword keyword = false ∧ isActionKeyword (toLower keyword) = true := by
  decide +kernel

theorem solid_mappedKeywords {keyword : String} (h : keyword ∈ mappedKeywords) :
    Solid keyword.toList := by
  have hwords : ∀ other ∈ mappedKeywords, other.toList.head?.any (fun c ↦ !isBlank c) = true ∧
      Chars.collapse other.toList = other.toList ∧ '|' ∉ other.toList := by
    decide +kernel
  obtain ⟨hstart, hcollapse, hbar⟩ := hwords keyword h
  obtain ⟨c, hhead, hc⟩ := (Option.any_eq_true _ _).mp hstart
  refine ⟨⟨c, hhead, by simpa using hc⟩,
    hcollapse ▸ (singleSpaced_collapse keyword.toList).1, fun hpart ↦ hbar ?_⟩
  exact hpart.subset (List.mem_cons_of_mem _ List.mem_cons_self)

theorem Solid.trim_eq {cell : String} (h : Solid cell.toList) : Text.trim cell = cell := by
  obtain ⟨c, hhead, hc⟩ := h.visible
  have hfirst : ∀ d ∈ cell.toList.head?, isBlank d = false := fun d hd ↦ by
    rw [← Option.some.inj (hhead.symm.trans hd)]
    exact hc
  rw [Text.trim, trim_eq_self hfirst h.spaced.isBlank_getLast, String.ofList_toList]

/-- A call is read behind cells that come before a keyword. -/
theorem calledKeyword?_row {before : List String}
    (hbefore : ∀ cell ∈ before, Solid cell.toList ∧ isBeforeKeyword cell = true)
    {keyword : String} (hkeyword : keyword ∈ mappedKeywords) (rest : List String) :
    calledKeyword? (separator ++ row (before ++ keyword :: rest)) = some (toLower keyword) := by
  have hsolid : ∀ cell ∈ before ++ [keyword], Solid cell.toList := by
    intro cell hcell
    obtain hcell | hcell := List.mem_append.mp hcell
    · exact (hbefore cell hcell).1
    · exact List.mem_singleton.mp hcell ▸ solid_mappedKeywords hkeyword
  have hrow : before ++ keyword :: rest = before ++ [keyword] ++ rest := by simp
  have hindented : (separator ++ row (before ++ keyword :: rest)).toList.head? = some ' ' := by
    rw [String.toList_append]
    rfl
  obtain ⟨others, hcells⟩ := exists_splitCells_row (by simp) hsolid rest
  have hfirst : (!isBeforeKeyword (Text.trim "")) = false := by decide
  have hnone : (before.map Text.trim).find? (fun cell ↦ !isBeforeKeyword cell) = none := by
    rw [List.find?_eq_none]
    intro cell hcell
    obtain ⟨source, hsource, rfl⟩ := List.mem_map.mp hcell
    rw [(hbefore source hsource).1.trim_eq, (hbefore source hsource).2]
    decide
  have hfound : (!isBeforeKeyword (Text.trim keyword)) = true := by
    rw [(solid_mappedKeywords hkeyword).trim_eq, (mappedKeywords_recognized keyword hkeyword).1]
    rfl
  rw [calledKeyword?, hindented, hrow, hcells]
  dsimp only
  rw [if_pos (by decide), List.map_cons, List.find?_cons, hfirst, List.append_assoc,
    List.map_append, List.find?_append, hnone, Option.none_or, List.singleton_append,
    List.map_cons, List.find?_cons, hfound, Option.map_some,
    (solid_mappedKeywords hkeyword).trim_eq]

/-! ### Rows of actions -/

/-- A name without white space. -/
def IsWordName (name : String) : Prop :=
  ∀ c ∈ name.toList, isBlank c = false

theorem isWordName_of_mem_none : ∀ name ∈ (none : Option String), IsWordName name :=
  fun name hname ↦ absurd hname (Option.not_mem_none name)

theorem calledKeyword?_assigned {bind : Option String} (hbind : ∀ name ∈ bind, IsWordName name)
    {keyword : String} (hkeyword : keyword ∈ mappedKeywords) (rest : List String) :
    calledKeyword? (separator ++ row (assigned bind (keyword :: rest))) =
      some (toLower keyword) := by
  cases bind with
  | none => exact calledKeyword?_row (List.forall_mem_nil _) hkeyword rest
  | some name =>
    have hcell : (scalar name ++ "=").toList =
        "$\x7b".toList ++ (name.toList ++ "\x7d=".toList) := by
      rw [scalar]
      simp
    have hsolid : Solid (scalar name ++ "=").toList := by
      refine solid_of_word (by rw [hcell]; simp) fun c hc ↦ ?_
      rw [hcell, List.mem_append, List.mem_append] at hc
      obtain hc | hc | hc := hc
      · exact isBlank_of_any (by decide) c hc
      · exact hbind name rfl c hc
      · exact isBlank_of_any (by decide) c hc
    have hbefore : isBeforeKeyword (scalar name ++ "=") = true := by
      have hstart : Text.startsWith (scalar name ++ "=") "$\x7b" = true := by
        rw [Text.startsWith, Chars.startsWith, hcell, afterStart?_append]
        rfl
      have hend : Text.endsWith (scalar name ++ "=") "=" = true := by
        rw [Text.endsWith, Chars.endsWith, Chars.beforeEnd?, String.toList_append,
          List.reverse_append]
        rfl
      rw [isBeforeKeyword, hstart, hend]
      simp
    exact calledKeyword?_row (List.forall_mem_singleton.mpr ⟨hsolid, hbefore⟩) hkeyword rest

/-! ### The issue of an unused library -/

/-- The issue that a library is imported but not used. -/
def unusedLibraryIssue (library : String) : String :=
  "imports " ++ library ++ " but calls none of its action keywords"

/-- A file with an action has no issue of that kind, whatever else is wrong with it. -/
theorem unusedLibraryIssue_notMem {content : String}
    (h : ∃ name line, StandsIn content name line ∧ RunsAction name line) (library : String) :
    unusedLibraryIssue library ∉ (validate content).issues := by
  have hhead : (unusedLibraryIssue library).toList.head? = some 'i' := by
    rw [unusedLibraryIssue, String.toList_append, String.toList_append]
    rfl
  have hother {issue : String} {c : Char} (hissue : issue.toList.head? = some c) (hc : c ≠ 'i') :
      unusedLibraryIssue library ≠ issue := by
    intro heq
    rw [heq, hissue] at hhead
    exact hc (Option.some.inj hhead)
  rw [validate, List.mem_append, List.mem_append, not_or, not_or]
  refine ⟨⟨fun hmem ↦ ?_, fun hmem ↦ ?_⟩, fun hmem ↦ ?_⟩
  · obtain ⟨r, -, hleak⟩ := List.mem_filterMap.mp hmem
    obtain ⟨kind, -, hissue⟩ := Option.map_eq_some_iff.mp hleak
    refine hother (c := 'l') ?_ (by decide) rfl
    rw [← hissue]
    simp only [String.toList_append, List.append_assoc]
    rfl
  · split at hmem
    · cases hmem
    · exact hother (c := 'm') (by decide) (by decide) (List.mem_singleton.mp hmem)
  · rw [libraryIssues, (any_isAction_iff content).mpr h] at hmem
    split at hmem
    · refine hother (c := 'm') ?_ (by decide) (List.mem_singleton.mp hmem)
      rw [String.toList_append, String.toList_append]
      rfl
    · cases hmem

end SuiteMigration.Robot

namespace SuiteMigration

open SuiteMigration.Text SuiteMigration.Keyword SuiteMigration.Robot

/-- An element that a row can name: declared elsewhere, or found by a known strategy. -/
def Element.IsKnown : Element → Prop
  | .located locator => (locatorPrefix? locator.strategy).isSome = true
  | .named _ => True

/-- An action on a browser that is mapped to a keyword. Its result is kept under a name, if any. -/
def Action.IsMapped : Action → Prop
  | .interaction element action _ bind =>
      element.IsKnown ∧ (∀ method, action ≠ .other method) ∧ ∀ name ∈ bind, IsWordName name
  | .browser _ bind => ∀ name ∈ bind, IsWordName name
  | .waitFor _ element => element.IsKnown
  | .navigate _ | .sleep _ | .assertion _ _ => True
  | _ => False

theorem Element.IsKnown.exists_elementCell? {element : Element} (h : element.IsKnown) :
    ∃ cell, elementCell? element = some cell := by
  cases element with
  | located locator =>
    obtain ⟨kind, hkind⟩ := Option.isSome_iff_exists.mp h
    exact ⟨_, by rw [elementCell?, renderLocator?, hkind]; rfl⟩
  | named name => exact ⟨_, rfl⟩

/-- The cells of an interaction: perhaps a variable, then a keyword of the table. -/
theorem exists_interactionCells_eq (locator : String) {action : ElementAction}
    (haction : ∀ method, action ≠ .other method) {bind : Option String}
    (hbind : ∀ name ∈ bind, IsWordName name) (args : List String) :
    ∃ kept keyword rest, interactionCells locator action bind args =
        assigned kept (keyword :: rest) ∧
      (∀ name ∈ kept, IsWordName name) ∧ keyword ∈ mappedKeywords := by
  cases action with
  | click => exact ⟨none, _, _, rfl, isWordName_of_mem_none, by decide⟩
  | fill => exact ⟨none, _, _, rfl, isWordName_of_mem_none, by decide⟩
  | clear => exact ⟨none, _, _, rfl, isWordName_of_mem_none, by decide⟩
  | getText =>
    refine ⟨some (bind.getD "text"), _, _, rfl, fun name hname ↦ ?_, by decide⟩
    cases bind with
    | none =>
      rw [← Option.some.inj hname]
      exact Chars.isBlank_of_any (by decide)
    | some given => exact hbind name hname
  | isDisplayed =>
    cases bind with
    | none => exact ⟨none, _, _, rfl, isWordName_of_mem_none, by decide⟩
    | some name => exact ⟨some name, _, _, rfl, hbind, by decide⟩
  | isEnabled =>
    cases bind with
    | none => exact ⟨none, _, _, rfl, isWordName_of_mem_none, by decide⟩
    | some name => exact ⟨some name, _, _, rfl, hbind, by decide⟩
  | submit => exact ⟨none, _, _, rfl, isWordName_of_mem_none, by decide⟩
  | getAttribute => exact ⟨bind, _, _, rfl, hbind, by decide⟩
  | select by_ => cases by_ <;> exact ⟨none, _, _, rfl, isWordName_of_mem_none, by decide⟩
  | other method => exact absurd rfl (haction method)

/-- The last row of a mapped action: perhaps a variable, then a keyword of the table. -/
theorem Action.IsMapped.exists_last_row {a : Action} (h : a.IsMapped) :
    ∃ kept keyword rest,
      (actionRows a).getLast? = some (row (assigned kept (keyword :: rest))) ∧
      (∀ name ∈ kept, IsWordName name) ∧ keyword ∈ mappedKeywords := by
  cases a with
  | interaction element action args bind =>
    obtain ⟨hknown, haction, hbind⟩ := h
    obtain ⟨locator, hlocator⟩ := hknown.exists_elementCell?
    obtain ⟨kept, keyword, rest, hcells, hkept, hkeyword⟩ :=
      exists_interactionCells_eq locator haction hbind (args.map fun arg ↦ (convert arg).text)
    refine ⟨kept, keyword, rest, ?_, hkept, hkeyword⟩
    rw [actionRows, hlocator, ← hcells]
    cases action with
    | other method => exact absurd rfl (haction method)
    | _ => exact List.getLast?_concat
  | navigate url => exact ⟨none, _, _, List.getLast?_concat, isWordName_of_mem_none, by decide⟩
  | browser call bind =>
    refine ⟨bind.filter fun _ ↦ BrowserCall.returnsValue call, browserKeyword call, [], rfl, ?_, ?_⟩
    · exact fun name hname ↦ h name (Option.mem_filter_iff.mp hname).1
    · cases call <;> decide
  | waitFor kind element =>
    obtain ⟨locator, hlocator⟩ := Element.IsKnown.exists_elementCell? h
    refine ⟨none, waitKeyword kind, [locator, scalar "TIMEOUT"], ?_, isWordName_of_mem_none, ?_⟩
    · rw [actionRows, hlocator]
      rfl
    · cases kind <;> decide
  | sleep millis => exact ⟨none, _, _, rfl, isWordName_of_mem_none, by decide⟩
  | assertion kind args =>
    cases kind <;> exact ⟨none, _, _, List.getLast?_concat, isWordName_of_mem_none, by decide⟩
  | _ => exact h.elim

/-- The names of results and of elements bring no line feed into a row. -/
theorem Action.IsMapped.plain {a : Action} (h : a.IsMapped) : a.Plain := by
  have hname {bind : Option String} (hbind : ∀ name ∈ bind, IsWordName name) :
      ∀ name ∈ bind, Chars.Unbroken name.toList := by
    intro name hname hfeed
    cases hbind name hname _ hfeed
  cases a with
  | interaction element action args bind => exact hname h.2.2
  | browser call bind => exact hname h
  | navigate url => trivial
  | waitFor kind element => trivial
  | sleep millis => trivial
  | assertion kind args => trivial
  | _ => exact h.elim

/-- The last row of a mapped action is one line, and a check finds its action in it: in a section
of keywords it is enough for an imported library to be used. -/
theorem Action.IsMapped.last_row_recognized {a : Action} (h : a.IsMapped) :
    ∃ r keyword, (actionRows a).getLast? = some r ∧ Chars.Unbroken r.toList ∧
      calledKeyword? (separator ++ r) = some keyword ∧ isActionKeyword keyword = true ∧
      ∀ content above line below, lines content = above ++ line :: below →
        nearestHeader? above = some "keyword" → trimEnd line = trimEnd (separator ++ r) →
        ∀ library, unusedLibraryIssue library ∉ (validate content).issues := by
  obtain ⟨kept, keyword, rest, hlast, hkept, hkeyword⟩ := h.exists_last_row
  have hcalled := calledKeyword?_assigned hkept hkeyword rest
  have haction := (mappedKeywords_recognized keyword hkeyword).2
  refine ⟨_, toLower keyword, hlast,
    h.plain.unbroken_actionRows _ (List.mem_of_getLast? hlast), hcalled, haction,
    fun content above line below hcontent hsection hline library ↦ ?_⟩
  have hread : calledKeyword? line = some (toLower keyword) := by
    rw [← calledKeyword?_trimEnd, hline, calledKeyword?_trimEnd, hcalled]
  have hcomment : isComment line = false := by
    by_contra hcomment
    have hhash : ink? line = some '#' := beq_iff_eq.mp (Bool.not_eq_false _ ▸ hcomment)
    have hnone := calledKeyword?_of_mark (by decide) hhash
    rw [hread, Option.any_some, haction] at hnone
    cases hnone
  exact unusedLibraryIssue_notMem ⟨"keyword", line, ⟨above, below, hcontent, hsection, hcomment⟩,
    Or.inr ⟨by decide, (callsAction_iff line).mpr ⟨toLower keyword, hread, haction⟩⟩⟩ library

/-- The text of a declared element, kept in a variable of its own. -/
theorem kept_text_recognized :
    (Action.interaction (.named "title") .getText [] (some "label")).IsMapped ∧
      ∃ r keyword,
        (actionRows (.interaction (.named "title") .getText [] (some "label"))).getLast? = some r ∧
        calledKeyword? (separator ++ r) = some keyword ∧ isActionKeyword keyword = true := by
  have hmapped :
      (Action.interaction (.named "title") .getText [] (some "label")).IsMapped := by
    refine ⟨trivial, nofun, fun name hname ↦ ?_⟩
    rw [← Option.some.inj hname]
    exact Chars.isBlank_of_any (by decide)
  obtain ⟨r, keyword, hlast, -, hcalled, haction, -⟩ := Action.IsMapped.last_row_recognized hmapped
  exact ⟨hmapped, r, keyword, hlast, hcalled, haction⟩

end SuiteMigration
