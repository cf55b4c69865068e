import SuiteMigration.Gherkin.Suite
import SuiteMigration.Proofs.Keyword.StepNames
import SuiteMigration.Proofs.Robot.RowCells

/-!
The calls in a rendered suite. Every step of a feature that is called by a test case or by the
background has a line of its own, and a reader that splits the line into cells finds the call in the
first cell that is not empty: the first word of the name has no white space, so no cell ends inside
it. Only where the name is empty or starts with the sign of a comment there is no call to find.

Generated names are read back so too. Below the header of its keywords a step resource has the names
of its keywords at the margin and nothing else that a reader takes for a name, and in a suite every
step has a line that calls its keyword. Both hold for a name that starts with a character that is
neither white space nor the sign of a comment: a name is written as it is, without the escapes of a
cell, so a name without such a start is lost.
-/

set_option autoImplicit false
set_option relaxedAutoImplicit false

namespace SuiteMigration.Gherkin

open SuiteMigration.Text SuiteMigration.Chars SuiteMigration.Robot SuiteMigration.Keyword

/-! ### Lines of calls -/

/-- The line of a call as it is read back from a suite. -/
def callLine (s : Step) : String :=
  readBack (separator ++ callRow s)

/-- A reader finds a call of the name on a line: it is no comment, and its first cell that is not
empty starts with the first word of the name. -/
def ReadsCall (line name : String) : Prop :=
  isComment line = false ∧ ∃ cell word,
    (splitCells line).find? (fun cell ↦ !cell.isEmpty) = some cell ∧
      (words name).head? = some word ∧ startsWith cell word = true

theorem unbroken_callRow (s : Step) : Unbroken (callRow s).toList := by
  refine unbroken_row (List.forall_mem_cons.mpr ⟨?_, ?_⟩)
  · rw [stepCall, String.toList_ofList]
    exact (oneLine_titleChars _).unbroken
  · exact List.forall_mem_map.mpr fun arg _ ↦ unbroken_escapeCell arg

/-- A row starts with its first cell. -/
theorem exists_row_eq (cell : String) (cells : List String) :
    ∃ rest, (row (cell :: cells)).toList = cell.toList ++ rest := by
  rw [row, String.toList_intercalate, List.map_cons]
  cases cells with
  | nil => exact ⟨[], by simp⟩
  | cons next others =>
    rw [List.map_cons, ← Chars.join, join_cons_cons, List.append_assoc]
    exact ⟨_, rfl⟩

/-- The line of a call whose name is not empty: indentation, the first word and what follows it. -/
theorem exists_callLine_eq {s : Step} {c : Char} {cs : List Char}
    (hname : (stepCall s.text).name.toList = c :: cs) (hc : isBlank c = false) :
    ∃ word tail, (words (stepCall s.text).name).head? = some (String.ofList (c :: word)) ∧
      (∀ d ∈ c :: word, isBlank d = false) ∧
      (callLine s).toList = separator.toList ++ (c :: word) ++ tail := by
  obtain ⟨word, more, hhead, rfl, hword⟩ := head?_words_cons hc cs
  obtain ⟨rest, hrow⟩ := exists_row_eq (stepCall s.text).name
    ((stepCall s.text).args.map escapeCell)
  obtain ⟨tail, htail⟩ := cutsBlanks_withoutReturn.exists_append (List.cons_ne_nil c word)
    (List.forall_mem_cons.mpr ⟨hc, hword⟩) separator.toList (more ++ rest)
  refine ⟨word, tail, ?_, List.forall_mem_cons.mpr ⟨hc, hword⟩, ?_⟩
  · rw [Text.words, hname, List.head?_map, hhead]
    rfl
  · rw [callLine, readBack, String.toList_ofList, String.toList_append, callRow, hrow, hname,
      ← htail]
    simp

theorem isComment_of_indented {line : String} {c : Char} {tail : List Char}
    (hc : isBlank c = false) (hline : line.toList = separator.toList ++ c :: tail) :
    isComment line = (c == '#') := by
  have hblank : ∀ d ∈ separator.toList, isBlank d = true := List.all_eq_true.mp (by decide)
  rw [isComment, Chars.trimStart, hline, (span_append hblank hc tail).2]
  rfl

theorem readsCall_callLine_iff (s : Step) :
    ReadsCall (callLine s) (stepCall s.text).name ↔ isReadable (stepCall s.text).name = true := by
  have hhead : ∀ c ∈ (stepCall s.text).name.toList.head?, isBlank c = false := by
    rw [stepCall, String.toList_ofList]
    exact isBlank_of_head?_titleChars
  cases hname : (stepCall s.text).name.toList with
  | nil =>
    have hwords : words (stepCall s.text).name = [] := by
      rw [Text.words, hname]
      rfl
    have hread : isReadable (stepCall s.text).name = false := by
      rw [isReadable, hname]
      rfl
    rw [ReadsCall, hwords, hread]
    simp
  | cons c cs =>
    rw [hname] at hhead
    have hc := hhead c rfl
    have hread : isReadable (stepCall s.text).name = (c != '#') := by
      simp [isReadable, hname, hc]
    obtain ⟨word, tail, hfirst, hword, hline⟩ := exists_callLine_eq hname hc
    have hindented : (callLine s).toList = separator.toList ++ c :: (word ++ tail) := by
      rw [hline, List.append_assoc, List.cons_append]
    have hcomment := isComment_of_indented hc hindented
    obtain ⟨first, others, hcells⟩ := exists_splitCells_eq hword hline
    rw [ReadsCall, hread, hcomment, hfirst, hcells]
    constructor
    · rintro ⟨hhash, _⟩
      rw [bne, hhash]
      rfl
    · intro hhash
      refine ⟨by simpa using hhash, String.ofList ((c :: word) ++ first), _, ?_, rfl, ?_⟩
      · rw [List.find?_cons_of_neg (by decide), List.find?_cons_of_pos (by simp)]
      · rw [Text.startsWith, String.toList_ofList, String.toList_ofList, Chars.startsWith,
          afterStart?_append]
        rfl

/-! ### Calls in a suite -/

/-- The steps that the test cases of a scenario call: of an outline with examples, the steps with
the values of every row. -/
def Scenario.calledSteps (s : Scenario) : List Step :=
  if s.isOutline && !s.exampleRows.isEmpty then
    s.exampleRows.flatMap fun (e, values) ↦
      s.steps.map fun step ↦ { step with text := substitute step.text e.header values }
  else s.steps

/-- The steps that a suite calls, in the background and in the test cases. -/
def Feature.calledSteps (f : Feature) : List Step :=
  f.background.getD [] ++ f.scenarios.flatMap Scenario.calledSteps

theorem callRow_mem_bodyRows {steps : List Step} {step : Step} (h : step ∈ steps) (ctx : Context)
    (name : String) : callRow step ∈ bodyRows steps ctx name :=
  List.mem_append_right _ (List.mem_flatMap.mpr ⟨step, h, List.mem_cons_self⟩)

theorem exists_test_of_mem_calledSteps {s : Scenario} {step : Step} (h : step ∈ s.calledSteps)
    (ctx : Context) : ∃ b ∈ testsOfScenario ctx s, callRow step ∈ b.body := by
  unfold Scenario.calledSteps at h
  unfold testsOfScenario
  split
  next hexamples =>
    rw [if_pos hexamples] at h
    obtain ⟨⟨e, values⟩, hrow, hstep⟩ := List.mem_flatMap.mp h
    obtain ⟨i, hi, hget⟩ := List.mem_iff_getElem.mp hrow
    refine ⟨exampleTest s ctx (i + 1) e values, ?_, callRow_mem_bodyRows hstep ctx s.name⟩
    refine List.mem_mapIdx.mpr ⟨i, hi, ?_⟩
    rw [hget]
  next hexamples =>
    rw [if_neg hexamples] at h
    exact ⟨_, List.mem_singleton_self _,
      List.mem_append_right _ (callRow_mem_bodyRows h ctx s.name)⟩

/-- The row of a call with a readable name is not blank. -/
theorem isBlankText_callRow {step : Step} (h : isReadable (stepCall step.text).name = true) :
    isBlankText (callRow step) = false := by
  obtain ⟨c, hc, hvisible⟩ := (Option.any_eq_true _ _).mp h
  obtain ⟨cs, hname⟩ := List.head?_eq_some_iff.mp hc
  obtain ⟨rest, hrow⟩ := exists_row_eq (stepCall step.text).name
    ((stepCall step.text).args.map escapeCell)
  have hblank : isBlank c = false := by simpa using (Bool.and_eq_true_iff.mp hvisible).1
  rw [isBlankText, callRow, hrow, hname]
  simp [hblank]

/-- The line of a call that a block holds is in the rendered file. -/
theorem callLine_mem_lines {f : File} {b : Block} (hb : b ∈ f.testCases ++ f.keywords)
    {step : Step} (hrow : separator ++ callRow step ∈ b.lines.tail) :
    callLine step ∈ lines f.render := by
  have hseparator : Unbroken separator.toList := by decide
  exact f.mem_lines_render (f.mem_lines_of_mem_block hb (List.mem_of_mem_tail hrow))
    (hseparator.append (unbroken_callRow step))

/-- Every step that a suite calls has its line there, unless its row is blank. -/
theorem callLine_mem_suite {f : Feature} {ctx : Context} (hmode : ctx.mode ≠ .manual)
    (rootPath : String) {step : Step} (hstep : step ∈ f.calledSteps)
    (hblank : isBlankText (callRow step) = false) :
    callLine step ∈ lines (suite f ctx rootPath).render := by
  have hmanual : (ctx.mode == .manual) = false := beq_eq_false_iff_ne.mpr hmode
  obtain hstep | hstep := List.mem_append.mp hstep
  · cases hbackground : f.background with
    | none =>
      rw [hbackground] at hstep
      cases hstep
    | some steps =>
      rw [hbackground] at hstep
      refine callLine_mem_lines (b := backgroundKeyword ctx steps) (List.mem_append_right _ ?_)
        (Block.mem_tail_of_mem_body ?_ hblank)
      · rw [suite, hbackground]
        exact List.mem_cons_self
      · rw [backgroundKeyword, hmanual]
        exact callRow_mem_bodyRows hstep ctx "Background"
  · obtain ⟨s, hs, hstep⟩ := List.mem_flatMap.mp hstep
    obtain ⟨b, hb, hbody⟩ := exists_test_of_mem_calledSteps hstep ctx
    have hrow := Block.mem_tail_of_mem_body hbody hblank
    have htests : b.lines.tail ∈ (f.scenarios.flatMap (testsOfScenario ctx)).map
        fun b ↦ b.lines.tail :=
      List.mem_map_of_mem (List.mem_flatMap_of_mem hs hb)
    rw [← map_tail_withUniqueNames] at htests
    obtain ⟨other, hother, htail⟩ := List.mem_map.mp htests
    refine callLine_mem_lines (List.mem_append_left _ ?_) (htail ▸ hrow)
    rw [suite, hmanual]
    exact hother

end SuiteMigration.Gherkin

/-! ### Names that are read back -/

namespace SuiteMigration

open SuiteMigration.Text SuiteMigration.Robot SuiteMigration.Keyword SuiteMigration.Gherkin

/-- The names that a reader finds in a step resource are those of its keywords, in order, but for
the names that are not readable. In a suite that is not left to be written by hand, the line of a
step is there and calls the keyword of the step if and only if the name of the call is readable. -/
theorem names_read_back (ctx : Context) :
    (∀ (source : String) (g : Generated), stepResource source ctx = .ok (some g) →
      nameLines g.file.render = (g.file.keywords.map Block.name).filter isReadable) ∧
    ∀ (f : Feature) (rootPath : String), ctx.mode ≠ .manual →
      ∀ step ∈ f.calledSteps,
        (callLine step ∈ lines (suite f ctx rootPath).render ∧
            ReadsCall (callLine step) (stepCall step.text).name) ↔
          isReadable (stepCall step.text).name = true := by
  refine ⟨fun source g hg ↦ ?_, fun f rootPath hmode step hstep ↦ ?_⟩
  · obtain ⟨htidy, hne⟩ := tidy_stepResource hg
    exact File.nameLines_render htidy hne
  · constructor
    · rintro ⟨_, hreads⟩
      exact (readsCall_callLine_iff step).mp hreads
    · intro hname
      exact ⟨callLine_mem_suite hmode rootPath hstep (isBlankText_callRow hname),
        (readsCall_callLine_iff step).mpr hname⟩

/-- One keyword of the resource and one call of the suite start like a comment; the others are read
back. -/
theorem names_read_back_beside_hash :
    let ctx : Context := ⟨.enhanced, "SeleniumLibrary", "A.java"⟩
    let source := "class A \x7b @Given(\"#1 item\") public void a() \x7b \x7d " ++
      "@When(\"I see \x7bint\x7d items\") public void b(int n) \x7b page.open(n); \x7d \x7d"
    let hash : Step := { keyword := "Given", text := "#1 item" }
    let seen : Step := { keyword := "When", text := "I see \"x\"" }
    let f : Feature := { name := "F", scenarios := [{ name := "S", steps := [hash, seen] }] }
    (∃ g, stepResource source ctx = .ok (some g) ∧
      g.file.keywords.map Block.name = ["#1 Item", "I See Number Items"] ∧
      nameLines g.file.render = ["I See Number Items"]) ∧
    callLine seen ∈ lines (suite f ctx "").render ∧
      ReadsCall (callLine seen) (stepCall seen.text).name ∧
      ¬ (callLine hash ∈ lines (suite f ctx "").render ∧
        ReadsCall (callLine hash) (stepCall hash.text).name) := by
  intro ctx source hash seen f
  obtain ⟨hresource, hsuite⟩ := names_read_back ctx
  obtain ⟨g, hg, hkeywords⟩ : ∃ g, stepResource source ctx = .ok (some g) ∧
      g.file.keywords.map Block.name = ["#1 Item", "I See Number Items"] :=
    exists_generated (by decide +kernel)
  have hseen := (hsuite f "" (by decide) seen (by decide)).mpr (by decide +kernel)
  have hhash := mt (hsuite f "" (by decide) hash (by decide)).mp (by decide +kernel)
  refine ⟨⟨g, hg, hkeywords, ?_⟩, hseen.1, hseen.2, hhash⟩
  rw [hresource source g hg, hkeywords]
  decide

/-- A pattern that starts with the sign of a comment gives a keyword that no reader finds, and a
step that starts with it gives a comment where the call should be. -/
theorem hash_names_lost :
    let ctx : Context := ⟨.enhanced, "SeleniumLibrary", "A.java"⟩
    let source := "class A \x7b @Given(\"#1 item\") public void m() \x7b \x7d \x7d"
    let step : Step := { keyword := "Given", text := "#1 item" }
    let f : Feature := { name := "F", scenarios := [{ name := "S", steps := [step] }] }
    (∃ g, stepResource source ctx = .ok (some g) ∧
      g.file.keywords.map Block.name = ["#1 Item"] ∧ nameLines g.file.render = []) ∧
    step ∈ f.calledSteps ∧ callLine step ∈ lines (suite f ctx "").render ∧
      isComment (callLine step) = true := by
  intro ctx source step f
  have hstep : step ∈ f.calledSteps := by decide
  have hline : callLine step ∈ lines (suite f ctx "").render :=
    callLine_mem_suite (by decide) "" hstep (by decide +kernel)
  refine ⟨?_, hstep, hline, by decide +kernel⟩
  obtain ⟨g, hg, hkeywords⟩ : ∃ g, stepResource source ctx = .ok (some g) ∧
      g.file.keywords.map Block.name = ["#1 Item"] :=
    exists_generated (by decide +kernel)
  obtain ⟨htidy, hne⟩ := tidy_stepResource hg
  refine ⟨g, hg, hkeywords, ?_⟩
  rw [File.nameLines_render htidy hne, hkeywords]
  decide

end SuiteMigration
