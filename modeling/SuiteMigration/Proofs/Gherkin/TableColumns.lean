import Mathlib.Data.List.DropRight
import SuiteMigration.Gherkin.Suite
import SuiteMigration.Proofs.Gherkin.StepsKept
import SuiteMigration.Proofs.Path.Segments

/-!
Rows of tables as they are read back. With a space on either side of each cell a row gives its cells
back, so in a table of examples every value stands below the parameter it was written for. Without
the spaces, a bar at the end of a row and the bars of empty cells next to it are taken for one: the
empty cells at both ends of a row are lost, and what stands behind those at its start moves to
other parameters.
-/

set_option autoImplicit false
set_option relaxedAutoImplicit false

namespace SuiteMigration.Chars

/-- Separators at the start of joined parts are those of the empty parts there. -/
theorem dropWhile_join {c : Char} {parts : List (List Char)} (h : ∀ part ∈ parts, c ∉ part) :
    (join [c] parts).dropWhile (· == c) = join [c] (parts.dropWhile List.isEmpty) := by
  induction parts with
  | nil => rfl
  | cons part rest ih =>
    obtain ⟨hpart, hrest⟩ := List.forall_mem_cons.mp h
    cases part with
    | nil =>
      rw [List.dropWhile_cons_of_pos rfl, ← ih hrest]
      cases rest with
      | nil => rfl
      | cons next others =>
        rw [join_cons_cons]
        exact List.dropWhile_cons_of_pos (beq_self_eq_true c)
    | cons d more =>
      have hd : ¬ (d == c) = true := fun heq ↦ hpart (eq_of_beq heq ▸ List.mem_cons_self)
      rw [List.dropWhile_cons_of_neg (p := List.isEmpty) (by simp)]
      cases rest with
      | nil => exact List.dropWhile_cons_of_neg hd
      | cons next others =>
        rw [join_cons_cons]
        exact List.dropWhile_cons_of_neg hd

/-- Separators at the end of joined parts are those of the empty parts there. -/
theorem dropEndWhile_join {c : Char} {parts : List (List Char)} (h : ∀ part ∈ parts, c ∉ part) :
    dropEndWhile (· == c) (join [c] parts) = join [c] (parts.rdropWhile List.isEmpty) := by
  induction parts using List.reverseRecOn with
  | nil => rfl
  | append_singleton front part ih =>
    rw [List.forall_mem_append, List.forall_mem_singleton] at h
    obtain ⟨hfront, hpart⟩ := h
    obtain rfl | ⟨init, last, rfl⟩ := List.eq_nil_or_concat' part
    · rw [List.rdropWhile_concat_pos _ _ _ rfl, ← ih hfront]
      by_cases hne : front = []
      · rw [hne]
        rfl
      · rw [join_append hne (List.cons_ne_nil _ _), join_singleton, List.append_nil]
        exact List.rdropWhile_concat_pos _ _ _ (beq_self_eq_true c)
    · have hlast : ¬ (last == c) = true := fun heq ↦ hpart (by simp [eq_of_beq heq])
      rw [List.rdropWhile_concat_neg _ _ _ (by simp)]
      by_cases hne : front = []
      · rw [hne, List.nil_append, join_singleton]
        exact List.rdropWhile_concat_neg (· == c) init last hlast
      · rw [join_append hne (List.cons_ne_nil _ _), join_singleton, ← List.append_assoc]
        exact List.rdropWhile_concat_neg _ _ _ hlast

end SuiteMigration.Chars

namespace SuiteMigration.Gherkin

open SuiteMigration.Text

/-! ### Rows as they are written -/

/-- A row of a table: at least one cell, each without white space around it and without bars. -/
structure Row where
  cells : List String
  nonempty : cells ≠ []
  trimmed : ∀ cell ∈ cells, trim cell = cell
  barless : ∀ cell ∈ cells, '|' ∉ cell.toList

/-- Parts of a row with bars between and around them. -/
def barred (parts : List String) : String :=
  "|" ++ String.intercalate "|" parts ++ "|"

/-- The row with bars right beside its cells. -/
def Row.tight (r : Row) : String :=
  barred r.cells

/-- The row with a space on either side of each cell. -/
def Row.spaced (r : Row) : String :=
  barred (r.cells.map fun cell ↦ " " ++ cell ++ " ")

/-- Parts without the empty ones at both ends, or one empty part if there are no others. -/
def withoutEmptyEnds (parts : List String) : List String :=
  match (parts.dropWhile (· == "")).rdropWhile (· == "") with
  | [] => [""]
  | kept => kept

/-- Whether no cell at an end of the row is empty, or the row is a single empty cell. -/
def Row.EndsKept (r : Row) : Prop :=
  r.cells = [""] ∨ r.cells.head? ≠ some "" ∧ r.cells.getLast? ≠ some ""

/-! ### Rows as they are read -/

theorem toList_barred {parts : List String} (hne : parts ≠ []) :
    (barred parts).toList = Chars.join ['|'] (("" :: (parts ++ [""])).map String.toList) := by
  have hbar : ("|").toList = ['|'] := rfl
  have hparts : parts.map String.toList ≠ [] := by simpa using hne
  rw [barred, String.toList_append, String.toList_append, String.toList_intercalate, hbar,
    List.map_cons, List.map_append, ← List.singleton_append (l := _ ++ _),
    Chars.join_append (by simp) (by simp), Chars.join_append hparts (by simp)]
  simp [Chars.join]

theorem trim_barred (parts : List String) :
    Chars.trim (barred parts).toList = (barred parts).toList := by
  have hlast : (barred parts).toList.getLast? = some '|' := by
    rw [barred, String.toList_append]
    exact List.getLast?_concat
  refine Chars.trim_eq_self ?_ ?_
  · rw [barred, String.toList_append, String.toList_append]
    rintro c ⟨⟩
    decide
  · rw [hlast]
    rintro c ⟨⟩
    decide

theorem map_toList_dropWhile (parts : List String) :
    (parts.map String.toList).dropWhile List.isEmpty =
      (parts.dropWhile (· == "")).map String.toList := by
  have hempty : List.isEmpty ∘ String.toList = fun part : String ↦ part == "" :=
    funext fun part ↦ Bool.eq_iff_iff.mpr (by simp)
  rw [List.dropWhile_map, hempty]

theorem map_toList_rdropWhile (parts : List String) :
    (parts.map String.toList).rdropWhile List.isEmpty =
      (parts.rdropWhile (· == "")).map String.toList := by
  rw [List.rdropWhile, ← List.map_reverse, map_toList_dropWhile, ← List.map_reverse,
    List.rdropWhile]

/-- The empty parts in front of the first bar and behind the last one are dropped with those next to
them. -/
theorem dropEmpty_around (parts : List String) :
    (("" :: (parts ++ [""])).dropWhile (· == "")).rdropWhile (· == "") =
      (parts.dropWhile (· == "")).rdropWhile (· == "") := by
  rw [List.dropWhile_cons_of_pos (by decide), List.dropWhile_append]
  split
  next hempty => rw [List.isEmpty_iff.mp hempty]; rfl
  next => exact List.rdropWhile_concat_pos _ _ _ (by decide)

/-- What is read of parts between bars: all but the empty ones at the ends, without the white space
around them. -/
theorem tableRow_barred {parts : List String} (hne : parts ≠ [])
    (h : ∀ part ∈ parts, '|' ∉ part.toList) :
    tableRow (barred parts) = (withoutEmptyEnds parts).map trim := by
  have hbars : ∀ part ∈ "" :: (parts ++ [""]), '|' ∉ part.toList := by
    simp only [List.forall_mem_cons, List.forall_mem_append]
    exact ⟨by decide, h, by decide, List.forall_mem_nil _⟩
  have hkept : ∀ part ∈ ("" :: (parts ++ [""])).dropWhile (· == ""), '|' ∉ part.toList :=
    fun part hpart ↦ hbars part ((List.dropWhile_sublist _).mem hpart)
  have hinner : ∀ part ∈ (parts.dropWhile (· == "")).rdropWhile (· == ""), '|' ∉ part.toList := by
    rw [← dropEmpty_around]
    exact fun part hpart ↦ hkept part ((List.rdropWhile_prefix _ _).mem hpart)
  unfold tableRow
  dsimp only
  rw [trim_barred, toList_barred hne, Chars.dropWhile_join (List.forall_mem_map.mpr hbars),
    map_toList_dropWhile, Chars.dropEndWhile_join (List.forall_mem_map.mpr hkept),
    map_toList_rdropWhile, dropEmpty_around, withoutEmptyEnds, Chars.splitOn]
  split
  next hnil => rw [hnil]; rfl
  next hne =>
    rw [Chars.splitBy_join (c := '|') rfl (by simpa using hne), List.map_map]
    · rfl
    · exact List.forall_mem_map.mpr fun part hpart d hd ↦
        beq_eq_false_iff_ne.mpr fun heq ↦ hinner part hpart (heq ▸ hd)

/-- Nothing is dropped at the ends exactly if no part there is empty. -/
theorem dropEmpty_eq_self_iff (parts : List String) :
    (parts.dropWhile (· == "")).rdropWhile (· == "") = parts ↔
      parts.head? ≠ some "" ∧ parts.getLast? ≠ some "" := by
  have hstart : parts.dropWhile (· == "") = parts ↔ parts.head? ≠ some "" := by
    cases parts with
    | nil => simp
    | cons first rest => simp [List.dropWhile_eq_self_iff]
  have hend : parts.rdropWhile (· == "") = parts ↔ parts.getLast? ≠ some "" := by
    cases parts using List.reverseRecOn with
    | nil => simp
    | append_singleton front last => simp [List.rdropWhile_eq_self_iff]
  rw [← hstart, ← hend]
  constructor
  · intro h
    have hprefix := List.rdropWhile_prefix (· == "") (parts.dropWhile (· == ""))
    rw [h] at hprefix
    have hsame := (List.dropWhile_sublist (· == "")).antisymm hprefix.sublist
    rw [hsame] at h
    exact ⟨hsame, h⟩
  · rintro ⟨hstart, hend⟩
    rw [hstart, hend]

theorem withoutEmptyEnds_eq_self_iff {parts : List String} (hne : parts ≠ []) :
    withoutEmptyEnds parts = parts ↔
      parts = [""] ∨ parts.head? ≠ some "" ∧ parts.getLast? ≠ some "" := by
  rw [← dropEmpty_eq_self_iff, withoutEmptyEnds]
  split
  next hnil =>
    rw [hnil, eq_comm]
    exact (or_iff_left hne.symm).symm
  next hkept =>
    refine (or_iff_right ?_).symm
    rintro rfl
    exact hkept rfl

theorem Row.tableRow_spaced (r : Row) : tableRow r.spaced = r.cells := by
  have hpadded : ∀ part ∈ r.cells.map fun cell ↦ " " ++ cell ++ " ", '|' ∉ part.toList := by
    refine List.forall_mem_map.mpr fun cell hcell ↦ ?_
    simpa using r.barless cell hcell
  have hkept : withoutEmptyEnds (r.cells.map fun cell ↦ " " ++ cell ++ " ") =
      r.cells.map fun cell ↦ " " ++ cell ++ " " := by
    refine (withoutEmptyEnds_eq_self_iff (by simpa using r.nonempty)).mpr
      (Or.inr ⟨fun h ↦ ?_, fun h ↦ ?_⟩)
    · obtain ⟨cell, -, hcell⟩ := List.mem_map.mp (List.mem_of_head? h)
      simpa using congrArg String.toList hcell
    · obtain ⟨cell, -, hcell⟩ := List.mem_map.mp (List.mem_of_getLast? h)
      simpa using congrArg String.toList hcell
  rw [spaced, tableRow_barred (by simpa using r.nonempty) hpadded, hkept, List.map_map]
  refine (List.map_congr_left fun cell hcell ↦ ?_).trans r.cells.map_id
  have htrimmed : Chars.trim (" " ++ cell ++ " ").toList = Chars.trim cell.toList := by
    rw [String.toList_append, String.toList_append, List.append_assoc,
      Chars.trim_append_of_blank (List.all_eq_true.mp (by decide))]
    exact Chars.trim_concat_of_blank isBlank_space _
  rw [Function.comp_apply, trim, htrimmed, ← trim, r.trimmed cell hcell, id]

theorem Row.tableRow_tight (r : Row) : tableRow r.tight = withoutEmptyEnds r.cells := by
  have htrimmed : ∀ cell ∈ withoutEmptyEnds r.cells, trim cell = cell := by
    unfold withoutEmptyEnds
    split
    next => decide
    next =>
      exact fun cell hcell ↦ r.trimmed cell
        ((List.dropWhile_sublist _).mem ((List.rdropWhile_prefix _ _).mem hcell))
  rw [tight, tableRow_barred r.nonempty r.barless]
  exact (List.map_congr_left htrimmed).trans (List.map_id _)

theorem Row.endsKept_iff (r : Row) : tableRow r.tight = r.cells ↔ r.EndsKept := by
  rw [tableRow_tight, withoutEmptyEnds_eq_self_iff r.nonempty, EndsKept]

/-! ### Tables of examples -/

theorem modifyLast_modifyLast {α : Type} (first second : α → α) (l : List α) :
    modifyLast second (modifyLast first l) = modifyLast (fun a ↦ second (first a)) l := by
  cases l using List.reverseRecOn with
  | nil => rfl
  | append_singleton front last =>
    rw [modifyLast_concat, modifyLast_concat, modifyLast_concat]

/-- The feature with one more table in its last scenario. -/
def Feature.withExamples (f : Feature) (e : Examples) : Feature :=
  f.modifyLastScenario fun s ↦ { s with examples := s.examples ++ [e] }

theorem addTableRow_withExamples (f : Feature) (e : Examples) (row : List String) :
    (f.withExamples e).addTableRow .examples row = f.withExamples (e.addRow row) := by
  have hlast (s : Scenario) : modifyLast (Examples.addRow row) (s.examples ++ [e]) =
      s.examples ++ [e.addRow row] := modifyLast_concat _ _ _
  unfold Feature.withExamples Feature.addTableRow Feature.modifyLastScenario
  simp only [beq_self_eq_true, if_true, modifyLast_modifyLast, hlast]

/-- The first row of a new table is its header. -/
theorem foldl_addRow (tags : List String) {header : List String} (h : header ≠ [])
    (rows : List (List String)) :
    (header :: rows).foldl (fun (e : Examples) row ↦ e.addRow row) { tags } =
      ⟨tags, header, rows⟩ := by
  have hheader : header.isEmpty = false := by simpa using h
  have hrows (above : List (List String)) :
      rows.foldl (fun (e : Examples) row ↦ e.addRow row) ⟨tags, header, above⟩ =
        ⟨tags, header, above ++ rows⟩ := by
    induction rows generalizing above with
    | nil => rw [List.foldl_nil, List.append_nil]
    | cons row rest ih =>
      rw [List.foldl_cons, Examples.addRow, hheader, if_neg Bool.false_ne_true, ih,
        List.append_assoc, List.singleton_append]
  exact hrows []

theorem trim_eq_self_barred (parts : List String) : trim (barred parts) = barred parts := by
  rw [trim, trim_barred, String.ofList_toList]

/-- A row of a table below examples is added to them. -/
theorem readLine_barred {s : ParserState} {f : Feature} {e : Examples}
    (hdocument : s.document = none) (hpart : s.part = .examples)
    (hfeature : s.feature = some (f.withExamples e)) (number : Nat) (parts : List String) :
    s.readLine number (barred parts) = .ok
      { s with feature := some (f.withExamples (e.addRow (tableRow (barred parts)))) } := by
  have hmark : startsWith (barred parts) "|" = true := by
    rw [startsWith_iff, barred, String.toList_append, String.toList_append, List.append_assoc]
    exact List.prefix_append _ _
  have hempty : (barred parts).isEmpty = false := by
    rw [← Bool.not_eq_true, String.isEmpty_iff]
    intro heq
    rw [heq] at hmark
    revert hmark
    decide
  have hapart : ∀ other ∈ ["#", "@", "Feature:"], Apart "|" other := by decide
  have hother : ∀ other ∈ ["#", "@", "Feature:"], startsWith (barred parts) other = false :=
    fun other hother ↦ Bool.eq_false_iff.mpr fun hline ↦
      not_exists_startsWith hmark hapart ⟨other, hother, hline⟩
  have hnone : afterStart? "Feature:" (barred parts) = none := by
    rw [← Option.not_isSome_iff_eq_none, isSome_afterStart?, hother _ (by decide)]
    exact Bool.false_ne_true
  obtain ⟨hopened, -, hdelimiter⟩ := unread_of_mark (by decide : "|" ∈ markStarts) hmark
  obtain ⟨hbackground, hrule, hheading, hexamples⟩ := not_heading_of_openedPart?_eq_none hopened
  have hread : s.readLine number (barred parts) = s.readPlainLine number (barred parts) := by
    rw [ParserState.readLine, hdocument, trim_eq_self_barred]
  rw [hread]
  simp only [ParserState.readPlainLine, ParserState.readFeatureLine, hempty, hother "#" (by decide),
    hdelimiter, hother "@" (by decide), hnone, hfeature, hbackground, hrule, hheading, hexamples,
    hmark, hpart, addTableRow_withExamples, Bool.or_self, Bool.false_eq_true, if_false, if_true]

theorem readLines_barred {s : ParserState} {f : Feature} {e : Examples}
    (hdocument : s.document = none) (hpart : s.part = .examples)
    (hfeature : s.feature = some (f.withExamples e)) (number : Nat) (rows : List (List String)) :
    readLines number s (rows.map barred) = .ok { s with
      feature := some (f.withExamples
        ((rows.map fun parts ↦ tableRow (barred parts)).foldl (fun e row ↦ e.addRow row) e)) } := by
  obtain ⟨feature, part, tags, document⟩ := s
  obtain rfl : document = none := hdocument
  obtain rfl : part = .examples := hpart
  obtain rfl : feature = some (f.withExamples e) := hfeature
  induction rows generalizing number e with
  | nil => rfl
  | cons parts rest ih =>
    rw [List.map_cons, List.map_cons, List.foldl_cons, readLines, readLine_barred rfl rfl rfl]
    exact ih _

/-- The heading of examples starts a table for the last scenario. -/
theorem readLine_examples {s : ParserState} {f : Feature} (hdocument : s.document = none)
    (hfeature : s.feature = some f) (hscenarios : f.scenarios ≠ []) (number : Nat) :
    s.readLine number "Examples:" = .ok { s with
      feature := some (f.withExamples { tags := s.tags }), part := .examples, tags := [] } := by
  have hempty : f.scenarios.isEmpty = false := by simpa using hscenarios
  have hline : trim "Examples:" = "Examples:" := by decide
  have hdelimiter : documentDelimiter? "Examples:" = none := by decide
  have hnone : afterStart? "Feature:" "Examples:" = none := by decide
  have hheading : heading? "Examples:" = none := by decide
  have hexamples : (startsWith "Examples:" "Examples:" || startsWith "Examples:" "Scenarios:") =
      true := by decide
  have hread : s.readLine number "Examples:" = s.readPlainLine number "Examples:" := by
    rw [ParserState.readLine, hdocument, hline]
  rw [hread, ParserState.readPlainLine, if_neg (by decide), hdelimiter]
  dsimp only
  rw [if_neg (by decide), hnone, hfeature]
  dsimp only
  rw [ParserState.readFeatureLine, if_neg (by decide), if_neg (by decide), hheading]
  dsimp only
  rw [if_pos hexamples, hempty, if_neg Bool.false_ne_true]
  rfl

/-- The state behind a table of examples for the last scenario. -/
def ParserState.withTable (s : ParserState) (f : Feature) (header : List String)
    (rows : List (List String)) : ParserState :=
  { s with feature := some (f.withExamples ⟨s.tags, header, rows⟩), part := .examples, tags := [] }

theorem readLines_table {s : ParserState} {f : Feature} (hdocument : s.document = none)
    (hfeature : s.feature = some f) (hscenarios : f.scenarios ≠ []) (number : Nat)
    {header : List String} (hheader : tableRow (barred header) ≠ []) (rows : List (List String)) :
    readLines number s ("Examples:" :: (header :: rows).map barred) =
      .ok (s.withTable f (tableRow (barred header))
        (rows.map fun parts ↦ tableRow (barred parts))) := by
  rw [readLines, readLine_examples hdocument hfeature hscenarios]
  have hrows := readLines_barred (s := { s with
    feature := some (f.withExamples { tags := s.tags }), part := .examples, tags := [] })
    hdocument rfl rfl (number + 1) (header :: rows)
  rwa [List.map_cons, List.map_cons, foldl_addRow s.tags hheader] at hrows

theorem withoutEmptyEnds_ne_nil (parts : List String) : withoutEmptyEnds parts ≠ [] := by
  unfold withoutEmptyEnds
  split
  next => exact List.cons_ne_nil _ _
  next hne => exact hne

theorem modifyLast_injective {α : Type} {l : List α} (hne : l ≠ []) {first second : α → α}
    (h : modifyLast first l = modifyLast second l) : ∃ a, first a = second a := by
  obtain ⟨front, last, rfl⟩ := List.eq_nil_or_concat' l |>.resolve_left hne
  rw [modifyLast_concat, modifyLast_concat] at h
  exact ⟨last, by simpa using h⟩

/-- Tables that are read alike have the same header and the same rows. -/
theorem withTable_inj {s : ParserState} {f : Feature} (hscenarios : f.scenarios ≠ [])
    {header header' : List String} {rows rows' : List (List String)} :
    s.withTable f header rows = s.withTable f header' rows' ↔ header = header' ∧ rows = rows' := by
  constructor
  · intro h
    have hfeature := congrArg ParserState.feature h
    have hscenario := congrArg Feature.scenarios (Option.some.inj hfeature)
    obtain ⟨last, hlast⟩ := modifyLast_injective hscenarios hscenario
    simpa using hlast
  · rintro ⟨rfl, rfl⟩
    rfl

/-- A row with spaces around its cells gives them back, and so does one without if no cell at its
ends is empty, or if its only cell is; otherwise the empty cells at its ends are lost. So a table of
examples whose cells stand between spaces keeps every value in the column of its parameter, and a
table without the spaces is read right exactly if all its rows are. -/
theorem table_columns_kept_iff (header : Row) (rows : List Row) :
    (∀ r ∈ header :: rows, tableRow r.spaced = r.cells ∧
      tableRow r.tight = withoutEmptyEnds r.cells ∧ (tableRow r.tight = r.cells ↔ r.EndsKept)) ∧
    ∀ (s : ParserState) (f : Feature), s.document = none → s.feature = some f → f.scenarios ≠ [] →
      ∀ number : Nat,
        readLines number s ("Examples:" :: (header :: rows).map Row.spaced) =
            .ok (s.withTable f header.cells (rows.map Row.cells)) ∧
          (readLines number s ("Examples:" :: (header :: rows).map Row.tight) =
              .ok (s.withTable f header.cells (rows.map Row.cells)) ↔
            ∀ r ∈ header :: rows, r.EndsKept) := by
  refine ⟨fun r _ ↦ ⟨r.tableRow_spaced, r.tableRow_tight, r.endsKept_iff⟩, ?_⟩
  intro s f hdocument hfeature hscenarios number
  have hspaced : readLines number s ("Examples:" :: (header :: rows).map Row.spaced) =
      .ok (s.withTable f (tableRow header.spaced) (rows.map fun r ↦ tableRow r.spaced)) := by
    have hlines : (header :: rows).map Row.spaced =
        ((header :: rows).map fun r ↦ r.cells.map fun cell ↦ " " ++ cell ++ " ").map barred :=
      List.map_map.symm
    rw [hlines, List.map_cons, readLines_table hdocument hfeature hscenarios number
      (header.tableRow_spaced.trans_ne header.nonempty), List.map_map, Function.comp_def]
    rfl
  have htight : readLines number s ("Examples:" :: (header :: rows).map Row.tight) =
      .ok (s.withTable f (tableRow header.tight) (rows.map fun r ↦ tableRow r.tight)) := by
    have hlines : (header :: rows).map Row.tight = ((header :: rows).map Row.cells).map barred :=
      List.map_map.symm
    rw [hlines, List.map_cons, readLines_table hdocument hfeature hscenarios number
      (header.tableRow_tight.trans_ne (withoutEmptyEnds_ne_nil _)), List.map_map, Function.comp_def]
    rfl
  constructor
  · rw [hspaced, header.tableRow_spaced, List.map_congr_left fun r _ ↦ r.tableRow_spaced]
  · rw [htight, Except.ok.injEq, withTable_inj hscenarios, header.endsKept_iff, List.map_inj_left,
      List.forall_mem_cons, forall₂_congr fun r _ ↦ r.endsKept_iff]

/-- An empty first value between spaces, and an empty value in the middle. -/
theorem table_columns_kept_iff_spaced :
    let header : Row := ⟨["a", "b", "c"], by decide, by decide, by decide⟩
    let first : Row := ⟨["", "2", "3"], by decide, by decide, by decide⟩
    let second : Row := ⟨["1", "", "3"], by decide, by decide, by decide⟩
    let f : Feature := { name := "F", scenarios := [{ name := "S", isOutline := true }] }
    let s : ParserState := { feature := some f, part := .scenario }
    first.spaced = "|  | 2 | 3 |" ∧ tableRow first.spaced = ["", "2", "3"] ∧
      second.tight = "|1||3|" ∧ tableRow second.tight = ["1", "", "3"] ∧
      readLines 3 s ("Examples:" :: [header, first, second].map Row.spaced) =
        .ok (s.withTable f ["a", "b", "c"] [["", "2", "3"], ["1", "", "3"]]) ∧
      readLines 3 s ("Examples:" :: [header, second].map Row.tight) =
        .ok (s.withTable f ["a", "b", "c"] [["1", "", "3"]]) := by
  intro header first second f s
  have hends : header.EndsKept ∧ second.EndsKept := by
    constructor <;> exact Or.inr (by decide)
  obtain ⟨hrow, hspaced⟩ := table_columns_kept_iff header [first, second]
  obtain ⟨-, htight⟩ := table_columns_kept_iff header [second]
  have hf : f.scenarios ≠ [] := List.cons_ne_nil _ _
  refine ⟨by decide +kernel, (hrow first (by simp)).1, by decide +kernel,
    (hrow second (by simp)).2.2.mpr hends.2, (hspaced s f rfl rfl hf 3).1,
    (htight s f rfl rfl hf 3).2.mpr ?_⟩
  simpa using hends

/-- An empty first value is lost, and the second one takes its place. -/
theorem tight_row_loses_empty_cell :
    let r : Row := ⟨["", "2"], by decide, by decide, by decide⟩
    let text := "Feature: F\nScenario Outline: S <a> <b>\nExamples:\n|a|b|\n" ++ r.tight ++ "\n"
    tableRow r.tight = ["2"] ∧ tableRow r.tight ≠ r.cells ∧
      parse text = .ok { name := "F", scenarios := [
        { name := "S <a> <b>", isOutline := true, examples := [⟨[], ["a", "b"], [["2"]]⟩] }] } ∧
      substitute "S <a> <b>" ["a", "b"] r.cells = "S  2" ∧
      substitute "S <a> <b>" ["a", "b"] ["2"] = "S 2 <b>" := by
  decide +kernel

end SuiteMigration.Gherkin
