import SuiteMigration.Gherkin.Suite
import SuiteMigration.Proofs.Robot.TitleRow

/-!
The title of a suite over a refresh of its header. A suite is given the name of its feature on one
line. A refresh reads the title back and writes it again, so the line stays as it is exactly if the
name can be read: a bar between two words cuts the title there, and a name that starts like the note
of a generated file, once its white space is collapsed, is taken for that note.
-/

set_option autoImplicit false
set_option relaxedAutoImplicit false

namespace SuiteMigration.Gherkin

open SuiteMigration.Text SuiteMigration.Robot

theorem tiered_marker (ctx : Context) : ctx.marker.Tiered :=
  ⟨Nat.le_refl 1, Nat.le_add_left 1 2⟩

/-- A suite starts with the marker and the settings, and these with the name of the feature. -/
theorem exists_lines_suite {f : Feature} (hname : isBlankText f.name = false) (ctx : Context)
    (rootPath : String) : ∃ more, lines (suite f ctx rootPath).render =
      titledLines ctx.marker (documentationCell f.name) more := by
  have hne : f.name.isEmpty = false := by
    rw [← Bool.not_eq_true, String.isEmpty_iff]
    intro hempty
    rw [hempty] at hname
    cases hname
  have hdocumentation : (suite f ctx rootPath).documentation =
      f.name :: (f.description ++ [generatedNote ctx.mode 1]) := by
    rw [suite, hne]
    rfl
  exact File.exists_lines_eq_titledLines rfl (tiered_marker ctx) rfl hdocumentation hname

section Title

variable {f : Feature} (hname : isBlankText f.name = false) (ctx : Context) (rootPath : String)

include hname

theorem documentationLine?_suite : documentationLine? (suite f ctx rootPath).render =
    some (row ["Documentation", documentationCell f.name]) := by
  obtain ⟨more, hlines⟩ := exists_lines_suite hname ctx rootPath
  obtain ⟨c, hhead, hc⟩ := exists_head?_documentationCell hname
  exact documentationLine?_of_titledLines hlines hhead hc

theorem existingTitle?_suite_iff :
    existingTitle? (suite f ctx rootPath).render = some (documentationCell f.name) ↔
      IsReadableTitle (collapse f.name) := by
  obtain ⟨more, hlines⟩ := exists_lines_suite hname ctx rootPath
  obtain ⟨c, hhead, hc⟩ := exists_head?_documentationCell hname
  rw [← isReadableTitle_documentationCell_iff hname]
  exact existingTitle?_eq_some_iff hlines hhead hc (singleSpaced_documentationCell hname)

theorem documentationLine?_refreshed_suite_iff {request : TierRequest}
    (htier : request.tier = .quickRefresh) (hforce : request.force = true)
    (fresh : Option String) :
    documentationLine? (applyTier (suite f ctx rootPath).render request fresh).content =
        documentationLine? (suite f ctx rootPath).render ↔
      IsReadableTitle (collapse f.name) := by
  obtain ⟨more, hlines⟩ := exists_lines_suite hname ctx rootPath
  obtain ⟨c, hhead, hc⟩ := exists_head?_documentationCell hname
  rw [← isReadableTitle_documentationCell_iff hname, documentationLine?_suite hname,
    documentationLine?_applyTier hlines hhead hc (tiered_marker ctx) htier hforce,
    ← titleOf_eq_iff hlines hhead hc (singleSpaced_documentationCell hname) request.path]
  exact ⟨fun heq ↦ row_inj (Option.some.inj heq), fun heq ↦ by rw [heq]⟩

end Title

/-- The documentation of a suite starts with the name of the feature, with its white space collapsed
and written as a cell. It is read back as the title, and a forced refresh of the header leaves its
line as it is, exactly if no bar stands alone between two words of the name and the name does not
start like the note of a generated file. -/
theorem suite_title_kept_iff (f : Feature) (ctx : Context) (rootPath : String)
    (hname : isBlankText f.name = false) :
    documentationLine? (suite f ctx rootPath).render =
        some (row ["Documentation", documentationCell f.name]) ∧
      (existingTitle? (suite f ctx rootPath).render = some (documentationCell f.name) ↔
        IsReadableTitle (collapse f.name)) ∧
      ∀ (request : TierRequest) (fresh : Option String),
        request.tier = .quickRefresh → request.force = true →
          (documentationLine? (applyTier (suite f ctx rootPath).render request fresh).content =
              documentationLine? (suite f ctx rootPath).render ↔
            IsReadableTitle (collapse f.name)) := by
  refine ⟨documentationLine?_suite hname ctx rootPath,
    existingTitle?_suite_iff hname ctx rootPath, ?_⟩
  intro request fresh htier hforce
  exact documentationLine?_refreshed_suite_iff hname ctx rootPath htier hforce fresh

/-- Bars at the ends of a name and inside words, and characters with escapes. -/
theorem suite_title_kept_iff_barred :
    let f : Feature := { name := "|  #Log|in: $\x7buser\x7d \\ |", description := ["As a user"] }
    let ctx : Context := ⟨.enhanced, "SeleniumLibrary", "features/login.feature"⟩
    let request : TierRequest := ⟨.hybrid, .quickRefresh, true, "robot/login.robot"⟩
    let text := (suite f ctx "../").render
    isBlankText f.name = false ∧
      existingTitle? text = some "| #Log|in: \\$\x7buser\x7d \\\\ |" ∧
      request.tier = .quickRefresh ∧ request.force = true ∧
      documentationLine? (applyTier text request none).content =
        some (row ["Documentation", "| #Log|in: \\$\x7buser\x7d \\\\ |"]) := by
  intro f ctx request text
  have hname : isBlankText f.name = false := by decide
  have hcell : documentationCell f.name = "| #Log|in: \\$\x7buser\x7d \\\\ |" := by
    decide +kernel
  have htitle : IsReadableTitle (collapse f.name) := ⟨by decide +kernel, by decide +kernel⟩
  have htier : request.tier = .quickRefresh := rfl
  obtain ⟨hline, hread, hrefreshed⟩ := suite_title_kept_iff f ctx "../" hname
  rw [hcell] at hline hread
  exact ⟨hname, hread.mpr htitle, htier, rfl,
    ((hrefreshed request none htier rfl).mpr htitle).trans hline⟩

/-- A bar between two words cuts the title, and a name with two spaces in the start of the note is
taken for the note. -/
theorem barred_title_cut_short :
    let ctx : Context := ⟨.enhanced, "SeleniumLibrary", "features/login.feature"⟩
    let request : TierRequest := ⟨.enhanced, .quickRefresh, true, "robot/login.robot"⟩
    ∀ name ∈ ["A | B", "Generated  by robomigrate"],
      let text := (suite { name := name } ctx "").render
      isBlankText name = false ∧ startsWith name noteStart = false ∧
        existingTitle? text ≠ some (documentationCell name) ∧
        documentationLine? (applyTier text request none).content ≠ documentationLine? text := by
  intro ctx request name hname text
  have hplain : isBlankText name = false ∧ startsWith name noteStart = false ∧
      ¬ IsReadableTitle (collapse name) := by
    obtain rfl | rfl : name = "A | B" ∨ name = "Generated  by robomigrate" := by simpa using hname
    · exact ⟨by decide, by decide, fun h ↦ absurd h.cell (by decide +kernel)⟩
    · exact ⟨by decide, by decide, fun h ↦ absurd h.note (by decide +kernel)⟩
  obtain ⟨hvisible, hnote, htitle⟩ := hplain
  have htier : request.tier = .quickRefresh := rfl
  have hread := existingTitle?_suite_iff (f := { name := name }) hvisible ctx ""
  have hline := documentationLine?_refreshed_suite_iff (f := { name := name }) hvisible ctx ""
    htier rfl none
  exact ⟨hvisible, hnote, mt hread.mp htitle, mt hline.mp htitle⟩

end SuiteMigration.Gherkin
