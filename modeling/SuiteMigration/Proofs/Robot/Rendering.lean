import SuiteMigration.Proofs.Robot.Unbroken
import SuiteMigration.Proofs.Text.Lines
import SuiteMigration.Robot.File
import SuiteMigration.Robot.Line

/-!
Reading a rendered file back. The lines of the text are those of the lines that were written, one
after the other, and a line that was written without a line feed is read back whole. Below the
header of the keywords only the names stand at the margin, so a reader that skips indented and blank
lines and comments finds the names: all but those that themselves start with white space or a
comment sign.
-/

set_option autoImplicit false
set_option relaxedAutoImplicit false

namespace SuiteMigration.Chars

/-- What a line feed ends is read on its own, also if it has several lines. -/
theorem lines_append_newline_append (front rest : List Char) :
    lines (front ++ '\n' :: rest) = lines (front ++ ['\n']) ++ lines rest := by
  by_cases hfeed : '\n' ∈ front
  · obtain ⟨before, after, rfl, hbefore⟩ := List.eq_append_cons_of_mem hfeed
    rw [List.append_assoc, List.cons_append, lines_append_newline_of_not_mem hbefore,
      lines_append_newline_append after rest, List.append_assoc, List.cons_append,
      lines_append_newline_of_not_mem hbefore, List.cons_append]
  · rw [lines_append_newline_of_not_mem hfeed, lines_append_newline_of_not_mem hfeed]
    rfl
termination_by front.length
decreasing_by
  subst_vars
  rw [List.length_append, List.length_cons]
  omega

end SuiteMigration.Chars

namespace SuiteMigration.Robot

open SuiteMigration.Text SuiteMigration.Chars

/-! ### Lines of a rendered file -/

theorem lines_append_newline_append (front rest : String) :
    Text.lines (front ++ "\n" ++ rest) = Text.lines (front ++ "\n") ++ Text.lines rest := by
  have htoList : (front ++ "\n" ++ rest).toList = front.toList ++ '\n' :: rest.toList := by simp
  have hfront : (front ++ "\n").toList = front.toList ++ ['\n'] := by simp
  rw [Text.lines, htoList, Chars.lines_append_newline_append, List.map_append, ← hfront]
  rfl

/-- The lines of a rendered file are those of the lines it is made of. -/
theorem File.lines_render (f : File) :
    Text.lines f.render = f.lines.flatMap fun line ↦ Text.lines (line ++ "\n") := by
  rw [File.render]
  induction f.lines with
  | nil => rfl
  | cons line rest ih =>
    rw [List.map_cons, String.join_cons, lines_append_newline_append, ih, List.flatMap_cons]

theorem lines_of_unbroken {line : String} (h : Unbroken line.toList) :
    Text.lines (line ++ "\n") = [readBack line] := by
  have htoList : (line ++ "\n").toList = line.toList ++ ['\n'] := by simp
  rw [Text.lines, htoList, lines_append_newline_of_not_mem h]
  rfl

theorem flatMap_lines_of_unbroken {content : List String}
    (h : ∀ line ∈ content, Unbroken line.toList) :
    content.flatMap (fun line ↦ Text.lines (line ++ "\n")) = content.map readBack := by
  induction content with
  | nil => rfl
  | cons line rest ih =>
    obtain ⟨hline, hrest⟩ := List.forall_mem_cons.mp h
    rw [List.flatMap_cons, lines_of_unbroken hline, ih hrest, List.map_cons, List.singleton_append]

theorem File.mem_lines_render {f : File} {line : String} (h : line ∈ f.lines)
    (hline : Unbroken line.toList) : readBack line ∈ Text.lines f.render := by
  rw [f.lines_render]
  refine List.mem_flatMap_of_mem h ?_
  rw [lines_of_unbroken hline]
  exact List.mem_cons_self

/-! ### Lines at the margin -/

def keywordsHeader : String :=
  "*** Keywords ***"

/-- The lines below the header of the keywords. The header counts that comes last: what stands
above it are settings and variables. -/
def keywordLines (content : String) : List String :=
  ((Text.lines content).reverse.takeWhile (· != keywordsHeader)).reverse

/-- Whether a reader takes a line for the name of a keyword: it is neither indented nor blank nor a
comment. -/
def isNameLine (line : String) : Bool :=
  !line.toList.head?.any isBlank && !isBlankText line && !isComment line

/-- The names that a reader finds below the header of the keywords. -/
def nameLines (content : String) : List String :=
  (keywordLines content).filter isNameLine

/-- Whether a name starts with a character that is neither white space nor the sign of a comment. -/
def isReadable (name : String) : Bool :=
  name.toList.head?.any fun c ↦ !isBlank c && c != '#'

theorem isNameLine_eq_isReadable (line : String) : isNameLine line = isReadable line := by
  unfold isNameLine isReadable isBlankText isComment
  cases line.toList with
  | nil => rfl
  | cons c rest =>
    cases hblank : isBlank c with
    | true => simp [hblank]
    | false =>
      rw [Chars.trimStart, List.dropWhile_cons_of_neg (Bool.eq_false_iff.mp hblank)]
      simp [hblank, bne]

/-! ### Rows -/

theorem head?_readBack_indented (row : String) :
    (readBack (separator ++ row)).toList.head? = some ' ' := by
  rw [readBack, String.toList_ofList, String.toList_append, withoutReturn]
  split <;> rfl

theorem isReadable_readBack_indented (row : String) :
    isReadable (readBack (separator ++ row)) = false := by
  rw [isReadable, head?_readBack_indented]
  rfl

theorem readBack_indented_ne_header (row : String) :
    readBack (separator ++ row) ≠ keywordsHeader := by
  intro heq
  have hhead := head?_readBack_indented row
  rw [heq] at hhead
  cases hhead

/-- A block whose name is one line and no header, and whose rows stay on one line. -/
structure Block.Tidy (b : Block) : Prop where
  name : OneLine b.name.toList
  star : '*' ∉ b.name.toList
  rows : ∀ line ∈ b.lines.tail, Unbroken line.toList

theorem Block.exists_of_mem_tail {b : Block} {line : String} (h : line ∈ b.lines.tail) :
    ∃ row, line = separator ++ row := by
  obtain ⟨row, _, rfl⟩ := List.mem_map.mp h
  exact ⟨row, rfl⟩

/-- A row of the body that is not blank is written below the name. -/
theorem Block.mem_tail_of_mem_body {b : Block} {row : String} (h : row ∈ b.body)
    (hrow : isBlankText row = false) : separator ++ row ∈ b.lines.tail := by
  have hkept : row ∈ b.body.filter fun line ↦ !isBlankText line :=
    List.mem_filter.mpr ⟨h, by rw [hrow]; rfl⟩
  have hrows : row ∈ b.bodyRows := by
    unfold Block.bodyRows
    dsimp only
    split
    next hempty =>
      rw [List.isEmpty_iff.mp hempty] at hkept
      cases hkept
    next => exact hkept
  exact List.mem_map_of_mem (List.mem_append_right _ hrows)

/-- The rows of a block are unbroken if what they are made of is. -/
theorem Block.unbroken_tail {b : Block} (hargs : ∀ arg ∈ b.args, Unbroken arg.toList)
    (hdocumentation : ∀ text ∈ b.documentation, Unbroken text.toList)
    (htags : ∀ tag ∈ b.tags, Unbroken tag.toList) (hbody : ∀ row ∈ b.body, Unbroken row.toList) :
    ∀ line ∈ b.lines.tail, Unbroken line.toList := by
  have hseparator : Unbroken separator.toList := by decide
  have hsetting {name : String} (hname : Unbroken name.toList) {cells : List String}
      (hcells : ∀ cell ∈ cells, Unbroken cell.toList) :
      ∀ line ∈ if cells.isEmpty then [] else [row (name :: cells)], Unbroken line.toList := by
    split
    · exact List.forall_mem_nil _
    · exact List.forall_mem_singleton.mpr
        (unbroken_row (List.forall_mem_cons.mpr ⟨hname, hcells⟩))
  have hrows : ∀ line ∈ b.bodyRows, Unbroken line.toList := by
    unfold Block.bodyRows
    dsimp only
    split
    · decide
    · exact fun line hline ↦ hbody line (List.mem_of_mem_filter hline)
  refine List.forall_mem_map.mpr fun line hline ↦ hseparator.append ?_
  revert line
  simp only [List.forall_mem_append]
  refine ⟨⟨⟨hsetting (by decide) hargs, ?_⟩, hsetting (by decide) htags⟩, hrows⟩
  cases htext : b.documentation with
  | none => exact List.forall_mem_nil _
  | some text =>
    refine List.forall_mem_singleton.mpr (unbroken_row ?_)
    simp only [List.forall_mem_cons]
    exact ⟨by decide, hdocumentation text htext, List.forall_mem_nil _⟩

theorem Block.lines_eq (b : Block) : b.lines = b.name :: b.lines.tail := rfl

theorem Block.Tidy.unbroken {b : Block} (h : b.Tidy) : ∀ line ∈ b.lines, Unbroken line.toList := by
  rw [b.lines_eq]
  exact List.forall_mem_cons.mpr ⟨h.name.unbroken, h.rows⟩

theorem Block.Tidy.ne_header {b : Block} (h : b.Tidy) :
    ∀ line ∈ b.lines, readBack line ≠ keywordsHeader := by
  rw [b.lines_eq]
  refine List.forall_mem_cons.mpr ⟨fun heq ↦ h.star ?_, fun line hline ↦ ?_⟩
  · rw [← readBack_eq_self h.name.isLine, heq]
    decide
  · obtain ⟨row, rfl⟩ := b.exists_of_mem_tail hline
    exact readBack_indented_ne_header row

/-- Of the lines of a block only the name can stand at the margin. -/
theorem Block.Tidy.filter_lines {b : Block} (h : b.Tidy) :
    (b.lines.map readBack).filter isReadable = [b.name].filter isReadable := by
  have hrows : (b.lines.tail.map readBack).filter isReadable = [] := by
    rw [List.filter_eq_nil_iff]
    intro line hline
    obtain ⟨written, hwritten, rfl⟩ := List.mem_map.mp hline
    obtain ⟨row, rfl⟩ := b.exists_of_mem_tail hwritten
    rw [isReadable_readBack_indented]
    exact Bool.false_ne_true
  rw [b.lines_eq, List.map_cons, readBack_eq_self h.name.isLine, ← List.singleton_append,
    List.filter_append, hrows, List.append_nil]

theorem readBack_empty : readBack "" = "" :=
  readBack_eq_self (by decide)

/-! ### Blocks -/

/-- What holds of the lines of each block and of the empty line holds of the lines of blocks. -/
theorem forall_mem_blockLines {p : String → Prop} (hempty : p "") {blocks : List Block}
    (h : ∀ b ∈ blocks, ∀ line ∈ b.lines, p line) : ∀ line ∈ blockLines blocks, p line := by
  fun_induction blockLines blocks with
  | case1 => exact List.forall_mem_nil _
  | case2 b => exact h b List.mem_cons_self
  | case3 b rest _ ih =>
    obtain ⟨hb, hrest⟩ := List.forall_mem_cons.mp h
    exact List.forall_mem_append.mpr ⟨hb, List.forall_mem_cons.mpr ⟨hempty, ih hrest⟩⟩

theorem mem_blockLines {blocks : List Block} {b : Block} (hb : b ∈ blocks) {line : String}
    (h : line ∈ b.lines) : line ∈ blockLines blocks := by
  fun_induction blockLines blocks with
  | case1 => cases hb
  | case2 other => exact List.mem_singleton.mp hb ▸ h
  | case3 other rest _ ih =>
    obtain rfl | hb := List.mem_cons.mp hb
    · exact List.mem_append_left _ h
    · exact List.mem_append_right _ (List.mem_cons_of_mem _ (ih hb))

theorem filter_blockLines {blocks : List Block} (h : ∀ b ∈ blocks, b.Tidy) :
    ((blockLines blocks).map readBack).filter isReadable =
      (blocks.map Block.name).filter isReadable := by
  fun_induction blockLines blocks with
  | case1 => rfl
  | case2 b => exact (h b List.mem_cons_self).filter_lines
  | case3 b rest _ ih =>
    obtain ⟨hb, hrest⟩ := List.forall_mem_cons.mp h
    have hempty : isReadable "" = false := rfl
    rw [List.map_append, List.filter_append, hb.filter_lines, List.map_cons, readBack_empty,
      List.filter_cons_of_neg (Bool.eq_false_iff.mp hempty), ih hrest, List.map_cons,
      ← List.filter_append, List.singleton_append]

theorem blockLines_ne_nil {blocks : List Block} (h : blocks ≠ []) : blockLines blocks ≠ [] := by
  fun_cases blockLines blocks with
  | case1 => exact absurd rfl h
  | case2 b => exact List.cons_ne_nil _ _
  | case3 b rest _ => exact List.append_ne_nil_of_right_ne_nil _ (List.cons_ne_nil _ _)

theorem mem_optionalSection {name line : String} {content : List String} (h : line ∈ content) :
    line ∈ optionalSection name content := by
  unfold optionalSection
  split
  next hempty =>
    rw [List.isEmpty_iff.mp hempty] at h
    cases h
  next => exact List.mem_cons_of_mem _ (List.mem_cons_of_mem _ h)

/-- The lines of the test cases and keywords of a file are lines of the file. -/
theorem File.mem_lines_of_mem_block {f : File} {b : Block} (hb : b ∈ f.testCases ++ f.keywords)
    {line : String} (h : line ∈ b.lines) : line ∈ f.lines := by
  rw [File.lines]
  obtain hb | hb := List.mem_append.mp hb
  · have htests : line ∈ optionalSection "Test Cases" (blockLines f.testCases) :=
      mem_optionalSection (mem_blockLines hb h)
    exact List.mem_append_left _ (List.mem_append_right _ htests)
  · exact List.mem_append_right _ (mem_optionalSection (mem_blockLines hb h))

theorem keywordLines_of_append {content : String} {before after : List String}
    (h : Text.lines content = before ++ keywordsHeader :: after)
    (hafter : ∀ line ∈ after, line ≠ keywordsHeader) : keywordLines content = after := by
  have hkept : ∀ line ∈ after.reverse, (line != keywordsHeader) = true := fun line hline ↦
    bne_iff_ne.mpr (hafter line (List.mem_reverse.mp hline))
  rw [keywordLines, h, List.reverse_append, List.reverse_cons, List.append_assoc,
    List.singleton_append, List.takeWhile_append_of_pos hkept, List.takeWhile_cons_of_neg (by simp),
    List.append_nil, List.reverse_reverse]

/-- A file with keywords ends with their section. -/
theorem File.exists_lines_eq {f : File} (hne : f.keywords ≠ []) :
    ∃ before, f.lines = before ++ keywordsHeader :: blockLines f.keywords := by
  have hsection : optionalSection "Keywords" (blockLines f.keywords) =
      [""] ++ keywordsHeader :: blockLines f.keywords := by
    have hcontent : (blockLines f.keywords).isEmpty = false := by
      simpa using blockLines_ne_nil hne
    rw [optionalSection, hcontent]
    rfl
  rw [File.lines, hsection, ← List.append_assoc]
  exact ⟨_, rfl⟩

/-- A reader finds the names of the keywords of a file in order, but for those that start with white
space or with the sign of a comment. -/
theorem File.nameLines_render {f : File} (h : ∀ b ∈ f.keywords, b.Tidy) (hne : f.keywords ≠ []) :
    nameLines f.render = (f.keywords.map Block.name).filter isReadable := by
  have hunbroken : ∀ line ∈ keywordsHeader :: blockLines f.keywords, Unbroken line.toList :=
    List.forall_mem_cons.mpr
      ⟨by decide, forall_mem_blockLines (by decide) fun b hb ↦ (h b hb).unbroken⟩
  have hheader : ∀ line ∈ (blockLines f.keywords).map readBack, line ≠ keywordsHeader := by
    refine List.forall_mem_map.mpr (forall_mem_blockLines ?_ fun b hb ↦ (h b hb).ne_header)
    rw [readBack_empty]
    decide
  obtain ⟨before, hlines⟩ := f.exists_lines_eq hne
  have hrender : Text.lines f.render = before.flatMap (fun line ↦ Text.lines (line ++ "\n")) ++
      keywordsHeader :: (blockLines f.keywords).map readBack := by
    rw [f.lines_render, hlines, List.flatMap_append, flatMap_lines_of_unbroken hunbroken,
      List.map_cons, readBack_eq_self (by decide)]
  rw [nameLines, keywordLines_of_append hrender hheader, ← filter_blockLines h]
  exact List.filter_congr fun line _ ↦ isNameLine_eq_isReadable line

end SuiteMigration.Robot
