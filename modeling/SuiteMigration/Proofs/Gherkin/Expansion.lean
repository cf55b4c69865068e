import Mathlib.Algebra.GroupWithZero.Nat
import Mathlib.Data.List.Forall2
import SuiteMigration.Gherkin.Suite
import SuiteMigration.Proofs.Keyword.UniqueNames
import SuiteMigration.Proofs.Text.Lines

/-!
The test cases of a suite. Scenario by scenario, an outline has one test case for each row of its
examples, table after table, and every other scenario has one. A test case calls the steps of its
scenario in order, and behind the call of a step that has a table or a text attached stands a remark
that it was not migrated. Numbers keep the names of the test cases apart.
-/

set_option autoImplicit false
set_option relaxedAutoImplicit false

namespace SuiteMigration.Gherkin

open SuiteMigration.Text SuiteMigration.Robot

/-! ### Bodies of test cases -/

/-- A remark on what is left to do. -/
def IsTodo (row : String) : Prop :=
  startsWith row "# TODO: " = true

theorem isTodo_append (text : String) : IsTodo ("# TODO: " ++ text) :=
  startsWith_iff.mpr ⟨text.toList, by simp⟩

theorem isTodo_attachmentRemark (a : Attachment) : IsTodo (attachmentRemark a) := by
  cases a with
  | table rows =>
    have hstart : "# TODO: data table with ".toList =
        "# TODO: ".toList ++ "data table with ".toList := rfl
    change startsWith ("# TODO: data table with " ++ toString rows.length ++
      " row(s) was not migrated") "# TODO: " = true
    rw [startsWith_iff, String.toList_append, String.toList_append, hstart, List.append_assoc,
      List.append_assoc]
    exact ⟨_, rfl⟩
  | document text => exact isTodo_append "doc string argument was not migrated"

/-- The rows that call steps, in the order of the steps: one call for each step, and a remark behind
the call of a step with an attachment. -/
inductive Calls : List Step → List String → Prop
  | nil : Calls [] []
  | plain {step : Step} {steps : List Step} {rows : List String} (h : step.attachment = none)
      (hrest : Calls steps rows) : Calls (step :: steps) (callRow step :: rows)
  | attached {step : Step} {steps : List Step} {rows : List String} {a : Attachment} {todo : String}
      (h : step.attachment = some a) (htodo : IsTodo todo) (hrest : Calls steps rows) :
      Calls (step :: steps) (callRow step :: todo :: rows)

theorem calls_flatMap_stepRows (steps : List Step) : Calls steps (steps.flatMap stepRows) := by
  induction steps with
  | nil => exact .nil
  | cons step rest ih =>
    rw [List.flatMap_cons, stepRows]
    cases h : step.attachment with
    | none => exact .plain h ih
    | some a => exact .attached h (isTodo_attachmentRemark a) ih

/-- The body of a test case: what is left to do, the remark for review if both kinds of steps are
wanted, and the calls of the steps. -/
def IsBody (ctx : Context) (s : Scenario) (todos : List String) (steps : List Step)
    (body : List String) : Prop :=
  ∃ reviews calls, body = todos ++ reviews ++ calls ∧ Calls steps calls ∧
    reviews = if ctx.mode = .hybrid then [reviewRemark s.name] else []

theorem isBody_bodyRows (ctx : Context) (s : Scenario) (todos : List String) (steps : List Step) :
    IsBody ctx s todos steps (todos ++ bodyRows steps ctx s.name) := by
  refine ⟨if ctx.mode = .hybrid then [reviewRemark s.name] else [], steps.flatMap stepRows, ?_,
    calls_flatMap_stepRows steps, rfl⟩
  rw [bodyRows, ← List.append_assoc]
  simp only [beq_iff_eq]

/-! ### Expansion of scenarios -/

/-- The steps of an outline with the values of a row of examples. -/
def Scenario.stepsWith (s : Scenario) (row : Examples × List String) : List Step :=
  s.steps.map fun step ↦ { step with text := substitute step.text row.1.header row.2 }

/-- The bodies of the test cases of a scenario. -/
inductive Expands (ctx : Context) (s : Scenario) : List (List String) → Prop
  /-- An outline has a test case for each row of examples. -/
  | rows {bodies : List (List String)} (houtline : s.isOutline = true) (hrows : s.exampleRows ≠ [])
      (hbodies : List.Forall₂ (fun row body ↦ IsBody ctx s [] (s.stepsWith row) body) s.exampleRows
        bodies) : Expands ctx s bodies
  /-- An outline without rows is left to do. -/
  | noRows {body : List String} {todo : String} (houtline : s.isOutline = true)
      (hrows : s.exampleRows = []) (htodo : IsTodo todo)
      (hbody : IsBody ctx s [todo] s.steps body) : Expands ctx s [body]
  | plain {body : List String} (houtline : s.isOutline = false)
      (hbody : IsBody ctx s [] s.steps body) : Expands ctx s [body]

/-- The number of a test case counts for its name only. -/
theorem map_body_exampleTests (ctx : Context) (s : Scenario) :
    (s.exampleRows.mapIdx fun i (e, values) ↦ exampleTest s ctx (i + 1) e values).map Block.body =
      s.exampleRows.map fun row ↦ bodyRows (s.stepsWith row) ctx s.name := by
  refine List.ext_getElem (by simp) fun i hi _ ↦ ?_
  rw [List.getElem_map, List.getElem_mapIdx, List.getElem_map]
  rfl

theorem expands_plainTest {ctx : Context} {s : Scenario}
    (h : s.isOutline = true → s.exampleRows = []) : Expands ctx s [(plainTest s ctx).body] := by
  rw [plainTest]
  dsimp only
  cases houtline : s.isOutline with
  | false => exact .plain houtline (isBody_bodyRows ctx s [] s.steps)
  | true =>
    exact .noRows houtline (h houtline) (isTodo_append "scenario outline has no examples")
      (isBody_bodyRows ctx s [_] s.steps)

theorem expands_testsOfScenario (ctx : Context) (s : Scenario) :
    Expands ctx s ((testsOfScenario ctx s).map Block.body) := by
  unfold testsOfScenario
  split
  next hexpanded =>
    obtain ⟨houtline, hrows⟩ : s.isOutline = true ∧ s.exampleRows ≠ [] := by
      simpa using hexpanded
    refine .rows houtline hrows ?_
    rw [map_body_exampleTests, List.forall₂_map_right_iff]
    exact List.forall₂_same.mpr fun row _ ↦ isBody_bodyRows ctx s [] (s.stepsWith row)
  next hsingle =>
    rw [List.map_singleton]
    exact expands_plainTest (by simpa using hsingle)

/-- The number of test cases that a scenario has. -/
def Scenario.testCount (s : Scenario) : Nat :=
  if s.isOutline then max 1 s.exampleRows.length else 1

theorem Expands.length_eq {ctx : Context} {s : Scenario} {bodies : List (List String)}
    (h : Expands ctx s bodies) : bodies.length = s.testCount := by
  unfold Scenario.testCount
  cases h with
  | rows houtline hrows hbodies =>
    have hpos := List.length_pos_iff.mpr hrows
    rw [if_pos houtline, ← hbodies.length_eq]
    omega
  | noRows houtline hrows => rw [if_pos houtline, hrows]; rfl
  | plain houtline => rw [houtline]; rfl

/-- The test cases of a suite that is not left to be written by hand are those of its scenarios, in
order, each with the calls of its steps; and their names differ up to case. -/
theorem suite_expands_outlines (f : Feature) (ctx : Context) (rootPath : String)
    (hmode : ctx.mode ≠ .manual) :
    (∃ groups, (suite f ctx rootPath).testCases.map Block.body = groups.flatten ∧
      List.Forall₂ (Expands ctx) f.scenarios groups) ∧
    (suite f ctx rootPath).testCases.length = (f.scenarios.map Scenario.testCount).sum ∧
    NamesDiffer (suite f ctx rootPath).testCases := by
  have hmanual : (ctx.mode == .manual) = false := beq_eq_false_iff_ne.mpr hmode
  have htests : (suite f ctx rootPath).testCases =
      withUniqueNames (f.scenarios.flatMap (testsOfScenario ctx)) := by
    rw [suite, hmanual]
    rfl
  have hbodies : (suite f ctx rootPath).testCases.map Block.body =
      (f.scenarios.map fun s ↦ (testsOfScenario ctx s).map Block.body).flatten := by
    rw [htests, map_withUniqueNames fun _ _ ↦ rfl, List.map_flatMap, List.flatMap_def]
  refine ⟨⟨_, hbodies, ?_⟩, ?_, htests ▸ namesDiffer_withUniqueNames _⟩
  · rw [List.forall₂_map_right_iff]
    exact List.forall₂_same.mpr fun s _ ↦ expands_testsOfScenario ctx s
  · rw [← List.length_map Block.body, hbodies, List.length_flatten, List.map_map]
    refine congrArg List.sum (List.map_congr_left fun s _ ↦ ?_)
    exact (expands_testsOfScenario ctx s).length_eq

/-- An outline with an empty table between two others, beside a scenario with the name that its
second test case has. -/
theorem suite_expands_outlines_three_tables :
    let ctx : Context := ⟨.hybrid, "SeleniumLibrary", "a.feature"⟩
    let step : Step := { keyword := "Given", text := "pay <n>", attachment := some (.document "x") }
    let tables : List Examples :=
      [{ header := ["n"], rows := [["1"]] }, { header := ["n"] },
       { header := ["n"], rows := [["2"]] }]
    let f : Feature :=
      { name := "F"
        scenarios :=
          [{ name := "Pay - Example 2" },
           { name := "Pay", isOutline := true, steps := [step], examples := tables }] }
    ctx.mode ≠ .manual ∧ (suite f ctx "").testCases.length = 3 ∧
      NamesDiffer (suite f ctx "").testCases ∧
      (suite f ctx "").testCases.map Block.name =
        ["Pay - Example 2", "Pay - Example 1", "Pay - Example 2 2"] := by
  intro ctx step tables f
  have hmode : ctx.mode ≠ .manual := by decide
  obtain ⟨_, hlength, hdiffer⟩ := suite_expands_outlines f ctx "" hmode
  exact ⟨hmode, hlength, hdiffer, by decide +kernel⟩

end SuiteMigration.Gherkin
