import SuiteMigration.Proofs.Robot.Rewriting

/-!
Cells of a row as a reader finds them. No cell ends before a character that is not white space, so
words are never cut. A row of two cells is split behind the first one, and the second one again if a
bar stands alone between two of its words: a reader takes such a bar for the end of a cell.
-/

set_option autoImplicit false
set_option relaxedAutoImplicit false

namespace SuiteMigration.Chars

open SuiteMigration.Text

/-- A text function that may cut at the end, but only after the last character that is not white
space. -/
def CutsBlanks (f : List Char → List Char) : Prop :=
  ∀ front c tail, isBlank c = false → ∃ rest, f (front ++ c :: tail) = front ++ c :: rest

theorem cutsBlanks_trimEnd : CutsBlanks trimEnd :=
  fun front _ tail hc ↦ ⟨trimEnd tail, trimEnd_append_cons hc front tail⟩

theorem cutsBlanks_withoutReturn : CutsBlanks withoutReturn := by
  intro front c tail hc
  unfold withoutReturn
  split
  next hreturn =>
    cases tail with
    | nil =>
      rw [List.getLast?_concat] at hreturn
      rw [Option.some.inj hreturn] at hc
      cases hc
    | cons d more =>
      refine ⟨(d :: more).dropLast, ?_⟩
      rw [List.dropLast_append_of_ne_nil (List.cons_ne_nil _ _)]
      rfl
  next => exact ⟨tail, rfl⟩

/-- A word is not cut. -/
theorem CutsBlanks.exists_append {f : List Char → List Char} (hf : CutsBlanks f)
    {word : List Char} (hne : word ≠ []) (hword : ∀ c ∈ word, isBlank c = false)
    (front tail : List Char) : ∃ rest, f (front ++ word ++ tail) = front ++ word ++ rest := by
  obtain rfl | ⟨init, last, rfl⟩ := List.eq_nil_or_concat' word
  · exact absurd rfl hne
  · obtain ⟨rest, hrest⟩ := hf (front ++ init) last tail
      (hword last (List.mem_append_right _ List.mem_cons_self))
    refine ⟨rest, ?_⟩
    simpa using hrest

/-! ### Single spaces -/

/-- A text whose only white space are spaces, each with another character behind it. -/
inductive SingleSpaced : List Char → Prop where
  | nil : SingleSpaced []
  | cons {c : Char} {rest : List Char} :
      (isBlank c = true → c = ' ' ∧ ∃ d ∈ rest.head?, isBlank d = false) → SingleSpaced rest →
      SingleSpaced (c :: rest)

theorem SingleSpaced.append_word {word rest : List Char} (hword : ∀ c ∈ word, isBlank c = false)
    (hrest : SingleSpaced rest) : SingleSpaced (word ++ rest) := by
  induction word with
  | nil => exact hrest
  | cons c more ih =>
    obtain ⟨hc, hmore⟩ := List.forall_mem_cons.mp hword
    exact .cons (fun hblank ↦ absurd (hc.symm.trans hblank) Bool.false_ne_true) (ih hmore)

/-- Words that are joined by single spaces. -/
theorem singleSpaced_join {parts : List (List Char)}
    (h : ∀ part ∈ parts, part ≠ [] ∧ ∀ c ∈ part, isBlank c = false) :
    SingleSpaced (join [' '] parts) ∧ ∀ c ∈ (join [' '] parts).head?, isBlank c = false := by
  induction parts with
  | nil => exact ⟨.nil, nofun⟩
  | cons part rest ih =>
    obtain ⟨⟨hne, hpart⟩, hrest⟩ := List.forall_mem_cons.mp h
    obtain ⟨hspaced, hhead⟩ := ih hrest
    obtain ⟨c, more, rfl⟩ := List.exists_cons_of_ne_nil hne
    have hfirst : isBlank c = false := hpart c List.mem_cons_self
    cases rest with
    | nil =>
      rw [join_singleton]
      refine ⟨?_, fun d hd ↦ Option.some.inj hd ▸ hfirst⟩
      simpa using SingleSpaced.append_word hpart .nil
    | cons next others =>
      have hjoined : ∃ d ∈ (join [' '] (next :: others)).head?, isBlank d = false := by
        obtain ⟨d, hd⟩ : ∃ d, (join [' '] (next :: others)).head? = some d := by
          obtain ⟨e, tail, rfl⟩ := List.exists_cons_of_ne_nil (hrest next List.mem_cons_self).1
          cases others <;> simp
        exact ⟨d, hd, hhead d hd⟩
      rw [join_cons_cons, List.append_assoc]
      refine ⟨SingleSpaced.append_word hpart (.cons (fun _ ↦ ⟨rfl, hjoined⟩) hspaced),
        fun d hd ↦ ?_⟩
      exact Option.some.inj hd ▸ hfirst

theorem singleSpaced_collapse (cs : List Char) :
    SingleSpaced (collapse cs) ∧ ∀ c ∈ (collapse cs).head?, isBlank c = false :=
  singleSpaced_join fun _ hword ↦
    ⟨ne_nil_of_mem_words hword, fun _ hc ↦ (mem_of_mem_words hword hc).2⟩

theorem SingleSpaced.isBlank_getLast {cs : List Char} (h : SingleSpaced cs) :
    ∀ c ∈ cs.getLast?, isBlank c = false := by
  induction h with
  | nil => exact nofun
  | @cons c rest hblank _ ih =>
    cases rest with
    | nil =>
      rintro _ ⟨⟩
      by_contra hc
      obtain ⟨_, _, hd, _⟩ := hblank (Bool.not_eq_false _ ▸ hc)
      cases hd
    | cons d more =>
      rw [List.getLast?_cons_cons]
      exact ih

end SuiteMigration.Chars

namespace SuiteMigration.Robot

open SuiteMigration.Text

/-! ### Cells of an indented line -/

/-- No cell ends before a character that is not white space. -/
theorem cellSeparator_eq_none {c : Char} (hc : isBlank c = false) (before : Option Char)
    (rest : List Char) : cellSeparator before (c :: rest) = none := by
  have htab : (c == '\t') = false := by
    refine beq_eq_false_iff_ne.mpr ?_
    rintro rfl
    cases hc
  have hspace : (c == ' ') = false := by
    refine beq_eq_false_iff_ne.mpr ?_
    rintro rfl
    cases hc
  have htabs : (c :: rest).takeWhile (· == '\t') = [] :=
    List.takeWhile_cons_of_neg (Bool.eq_false_iff.mp htab)
  have hspaces : (c :: rest).takeWhile (· == ' ') = [] :=
    List.takeWhile_cons_of_neg (Bool.eq_false_iff.mp hspace)
  have hblanks : (c :: rest).takeWhile isBlank = [] :=
    List.takeWhile_cons_of_neg (Bool.eq_false_iff.mp hc)
  unfold cellSeparator
  rw [htabs, hspaces, hblanks]
  dsimp only [List.length_nil]
  rw [if_neg (Nat.lt_irrefl 0), if_neg (by decide)]
  split <;> rfl

theorem exists_piecesFrom_eq {word : List Char} (hword : ∀ c ∈ word, isBlank c = false)
    (before : Option Char) (tail : List Char) :
    ∃ last, piecesFrom cellSeparator 0 before (word ++ tail) =
      word.map .plain ++ piecesFrom cellSeparator 0 last tail := by
  induction word generalizing before with
  | nil => exact ⟨before, rfl⟩
  | cons c more ih =>
    obtain ⟨hc, hmore⟩ := List.forall_mem_cons.mp hword
    obtain ⟨last, hlast⟩ := ih hmore (some c)
    refine ⟨last, ?_⟩
    rw [List.cons_append, piecesFrom, cellSeparator_eq_none hc]
    dsimp only
    rw [hlast]
    rfl

theorem exists_splitPieces_eq (word : List Char) (pieces : List Piece) :
    ∃ first others, splitPieces (word.map .plain ++ pieces) = (word ++ first) :: others := by
  induction word with
  | nil =>
    fun_cases splitPieces pieces with
    | case1 => exact ⟨_, _, rfl⟩
    | case2 => exact ⟨_, _, rfl⟩
    | case3 => exact ⟨_, _, rfl⟩
    | case4 => exact ⟨_, _, rfl⟩
  | cons c more ih =>
    obtain ⟨first, others, heq⟩ := ih
    refine ⟨first, others, ?_⟩
    rw [List.map_cons, List.cons_append, splitPieces, heq]
    rfl

/-- Indentation in front of a word is one separator of cells. -/
theorem cellSeparator_indented {c : Char} (hc : isBlank c = false) (before : Option Char)
    (rest : List Char) : cellSeparator before (separator.toList ++ c :: rest) = some 4 := by
  have hspaces : ∀ d ∈ separator.toList, (d == ' ') = true := List.all_eq_true.mp (by decide)
  have hspace : (c == ' ') = false := by
    refine beq_eq_false_iff_ne.mpr ?_
    rintro rfl
    cases hc
  unfold cellSeparator
  rw [(Chars.span_append hspaces hspace rest).1]
  rfl

/-- What stands before a place does not matter for a separator there. -/
theorem piecesFrom_indented {c : Char} (hc : isBlank c = false) (before : Option Char)
    (rest : List Char) : piecesFrom cellSeparator 0 before (separator.toList ++ c :: rest) =
      .found separator.toList :: piecesFrom cellSeparator 0 none (c :: rest) := by
  have hfour := cellSeparator_indented hc before rest
  change piecesFrom cellSeparator 0 before (' ' :: ' ' :: ' ' :: ' ' :: c :: rest) = _
  change cellSeparator before (' ' :: ' ' :: ' ' :: ' ' :: c :: rest) = some 4 at hfour
  rw [piecesFrom, hfour]
  rfl

/-- The first cell of an indented line that is not empty starts with its first word. -/
theorem exists_splitCells_eq {line : String} {c : Char} {word tail : List Char}
    (hword : ∀ d ∈ c :: word, isBlank d = false)
    (hline : line.toList = separator.toList ++ (c :: word) ++ tail) :
    ∃ first others,
      splitCells line = "" :: String.ofList ((c :: word) ++ first) :: others := by
  obtain ⟨rest, hrest⟩ :=
    Chars.cutsBlanks_trimEnd.exists_append (List.cons_ne_nil c word) hword separator.toList tail
  obtain ⟨last, hpieces⟩ := exists_piecesFrom_eq hword none rest
  obtain ⟨first, others, hsplit⟩ :=
    exists_splitPieces_eq (c :: word) (piecesFrom cellSeparator 0 last rest)
  have hcells : splitAtOccurrences cellSeparator (separator.toList ++ (c :: word) ++ rest) =
      [] :: ((c :: word) ++ first) :: others := by
    rw [← hsplit, ← hpieces, splitAtOccurrences, Text.pieces, List.append_assoc,
      List.cons_append, piecesFrom_indented (hword c List.mem_cons_self)]
    rfl
  refine ⟨first, others.map String.ofList, ?_⟩
  rw [splitCells, hline, hrest, if_neg (by simp), hcells]
  rfl

/-! ### Cells of a row -/

theorem splitPieces_word (word text : List Char) (pieces : List Piece) :
    splitPieces (word.map .plain ++ .found text :: pieces) = word :: splitPieces pieces := by
  induction word with
  | nil => rfl
  | cons c more ih => rw [List.map_cons, List.cons_append, splitPieces, ih]

theorem splitPieces_plain (cs : List Char) : splitPieces (cs.map .plain) = [cs] := by
  induction cs with
  | nil => rfl
  | cons c rest ih => rw [List.map_cons, splitPieces, ih]

/-- A row of a word and a text has the word and the cells of the text. -/
theorem splitCells_row {start text : String} {c : Char}
    (hstart : ∀ d ∈ start.toList, isBlank d = false) (htext : text.toList.head? = some c)
    (hc : isBlank c = false) : splitCells (row [start, text]) = start :: splitCells text := by
  obtain ⟨tail, htail⟩ := List.head?_eq_some_iff.mp htext
  have hkept : Chars.trimEnd text.toList = c :: Chars.trimEnd tail := by
    rw [htail]
    exact Chars.trimEnd_append_cons hc [] tail
  have hline : Chars.trimEnd (row [start, text]).toList =
      start.toList ++ (separator.toList ++ c :: Chars.trimEnd tail) := by
    rw [toList_row, htail, Chars.trimEnd_append_cons hc, List.append_assoc]
  generalize Chars.trimEnd tail = rest at hkept hline
  obtain ⟨last, hlast⟩ := exists_piecesFrom_eq hstart none (separator.toList ++ c :: rest)
  rw [splitCells, splitCells, hline, hkept, if_neg (by simp), if_neg (by simp),
    splitAtOccurrences, pieces, hlast, piecesFrom_indented hc, splitPieces_word, List.map_cons,
    String.ofList_toList]
  rfl

/-! ### Bars in a cell -/

/-- A bar between two spaces. -/
def barredSpace : List Char :=
  [' ', '|', ' ']

theorem cellSeparator_barredSpace (before : Option Char) (rest : List Char) :
    cellSeparator before (barredSpace ++ rest) ≠ none := by
  have hafter : 0 < ((' ' :: rest).takeWhile isBlank).length := by simp [isBlank_space]
  have hseparator : cellSeparator before (barredSpace ++ rest) =
      if 0 < 1 && 0 < ((' ' :: rest).takeWhile isBlank).length then
        some (1 + 1 + ((' ' :: rest).takeWhile isBlank).length) else none := rfl
  rw [hseparator, decide_eq_true hafter]
  exact nofun

/-- The first part of a text is what the text starts with. -/
theorem exists_splitPieces_piecesFrom (recognise : Recogniser) (before : Option Char)
    (cs : List Char) : ∃ first others,
      splitPieces (piecesFrom recognise 0 before cs) = first :: others ∧ first <+: cs := by
  induction cs generalizing before with
  | nil => exact ⟨[], [], rfl, List.nil_prefix⟩
  | cons c rest ih =>
    rw [piecesFrom]
    split
    · exact ⟨[], _, rfl, List.nil_prefix⟩
    · obtain ⟨first, others, hsplit, hprefix⟩ := ih (some c)
      refine ⟨c :: first, others, ?_, (List.prefix_cons_inj c).mpr hprefix⟩
      rw [splitPieces, hsplit]

/-- No part goes on over a bar between two spaces. -/
theorem not_infix_of_mem_splitPieces {skip : Nat} {before : Option Char} {cs part : List Char}
    (h : part ∈ splitPieces (piecesFrom cellSeparator skip before cs)) :
    ¬ barredSpace <:+: part := by
  fun_induction piecesFrom cellSeparator skip before cs generalizing part with
  | case1 =>
    rw [List.mem_singleton.mp h]
    decide
  | case2 _ _ _ _ ih => exact ih h
  | case3 _ _ _ _ _ ih =>
    obtain rfl | h := List.mem_cons.mp h
    · decide
    · exact ih h
  | case4 before c rest hnone ih =>
    obtain ⟨first, others, hsplit, hprefix⟩ :=
      exists_splitPieces_piecesFrom cellSeparator (some c) rest
    rw [splitPieces, hsplit] at h
    rw [hsplit] at ih
    obtain rfl | h := List.mem_cons.mp h
    · intro hbar
      obtain hbar | hbar := List.infix_cons_iff.mp hbar
      · obtain ⟨tail, htail⟩ := hbar.trans ((List.prefix_cons_inj c).mpr hprefix)
        rw [← htail] at hnone
        exact cellSeparator_barredSpace before tail hnone
      · exact ih List.mem_cons_self hbar
    · exact ih (List.mem_cons_of_mem _ h)

theorem not_infix_of_mem_splitCells {line cell : String} (h : cell ∈ splitCells line) :
    ¬ barredSpace <:+: cell.toList := by
  unfold splitCells at h
  dsimp only at h
  split at h
  · cases h
  · obtain ⟨part, hpart, rfl⟩ := List.mem_map.mp h
    rw [String.toList_ofList]
    exact not_infix_of_mem_splitPieces hpart

/-- A single space ends no cell, unless a bar and white space come behind it. -/
theorem cellSeparator_space {d : Char} {rest : List Char} (hd : isBlank d = false)
    (hbar : d = '|' → rest.takeWhile isBlank = []) (before : Option Char) :
    cellSeparator before (' ' :: d :: rest) = none := by
  have hspace : (d == ' ') = false := by
    refine beq_eq_false_iff_ne.mpr ?_
    rintro rfl
    cases hd
  have hspaces : (' ' :: d :: rest).takeWhile (· == ' ') = [' '] := by simp [hspace]
  have hblanks : (' ' :: d :: rest).takeWhile isBlank = [' '] := by simp [isBlank_space, hd]
  have htabs : (' ' :: d :: rest).takeWhile (· == '\t') = [] := rfl
  unfold cellSeparator
  rw [htabs, hspaces, hblanks]
  dsimp only [List.length_nil, List.length_singleton, List.drop_succ_cons, List.drop_zero]
  rw [if_neg (Nat.lt_irrefl 0), if_neg (by decide)]
  split
  next heq =>
    obtain ⟨rfl, rfl⟩ := List.cons.inj heq
    rw [hbar rfl]
    rfl
  next => rfl

theorem takeWhile_isBlank_of_not_barred {rest : List Char} (hspaced : Chars.SingleSpaced rest)
    (hbar : ¬ barredSpace <+: ' ' :: '|' :: rest) : rest.takeWhile isBlank = [] := by
  cases rest with
  | nil => rfl
  | cons e more =>
    refine List.takeWhile_cons_of_neg fun hblank ↦ hbar ?_
    cases hspaced with
    | cons hsingle _ =>
      rw [(hsingle hblank).1]
      exact List.prefix_append barredSpace more

theorem piecesFrom_of_singleSpaced {cs : List Char} (h : Chars.SingleSpaced cs)
    (hbar : ¬ barredSpace <:+: cs) (before : Option Char) :
    piecesFrom cellSeparator 0 before cs = cs.map .plain := by
  induction h generalizing before with
  | nil => rfl
  | @cons c rest hsingle hrest ih =>
    have hnone : cellSeparator before (c :: rest) = none := by
      cases hc : isBlank c with
      | false => exact cellSeparator_eq_none hc before rest
      | true =>
        obtain ⟨rfl, d, hd, hvisible⟩ := hsingle hc
        obtain ⟨more, rfl⟩ := List.head?_eq_some_iff.mp hd
        cases hrest with
        | cons _ hmore =>
          refine cellSeparator_space hvisible (fun heq ↦ ?_) before
          subst heq
          exact takeWhile_isBlank_of_not_barred hmore fun hprefix ↦ hbar hprefix.isInfix
    rw [piecesFrom, hnone]
    exact congrArg _ (ih (fun hinfix ↦ hbar (List.infix_cons hinfix)) (some c))

/-- A text with single spaces is one cell, unless a bar stands alone in it. -/
theorem splitCells_eq_singleton {text : String} (hne : text ≠ "")
    (h : Chars.SingleSpaced text.toList) (hbar : ¬ barredSpace <:+: text.toList) :
    splitCells text = [text] := by
  have hend : Chars.trimEnd text.toList = text.toList := by
    obtain ⟨front, d, heq⟩ := (List.eq_nil_or_concat' text.toList).resolve_left (by simpa using hne)
    have hd : isBlank d = false := h.isBlank_getLast d (by rw [heq, List.getLast?_concat]; rfl)
    rw [heq]
    exact Chars.trimEnd_append_cons hd front []
  rw [splitCells, hend, if_neg (by simpa using hne), splitAtOccurrences, pieces,
    piecesFrom_of_singleSpaced h hbar, splitPieces_plain, List.map_singleton, String.ofList_toList]

end SuiteMigration.Robot
