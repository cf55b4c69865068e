import SuiteMigration.Proofs.Engine
import SuiteMigration.Proofs.Java.TypeSearch
import SuiteMigration.Proofs.Robot.TierHistory

/-!
Regeneration of migrated files. The deepest tier runs the generators on the source again, and a
fresh migration runs the same ones, so both give the same file or none. They differ on a blank
source: a migration fails before the generators see it, while these make a file out of nothing
unless the source is a feature.
-/

set_option autoImplicit false
set_option relaxedAutoImplicit false

namespace SuiteMigration.Java

open SuiteMigration.Text

/-! ### Blank sources -/

theorem breakCode?_eq_none {p : Char → Bool} {cs : List Char} (h : ∀ c ∈ cs, p c = false) :
    breakCode? p cs = none := by
  have hmarks (ms : List Mark) (hms : ∀ c ∈ textOf ms, p c = false) : breakMarks? p ms = none := by
    induction ms with
    | nil => rfl
    | cons mark rest ih =>
      rw [textOf_cons, List.forall_mem_cons] at hms
      rw [breakMarks?, hms.1, Bool.and_false, if_neg Bool.false_ne_true, ih hms.2]
      rfl
  exact hmarks (marks cs) (by rwa [textOf_marks])

theorem findType?_of_blank {cs : List Char} (h : ∀ c ∈ cs, isBlank c = true)
    (before : Option Char) : findType? before cs = none := by
  induction cs generalizing before with
  | nil => rfl
  | cons c rest ih =>
    obtain ⟨hc, hrest⟩ := List.forall_mem_cons.mp h
    have hletter : c ∉ ['c', 'e', 'i', 'r'] := by
      have hvisible : ['c', 'e', 'i', 'r'].any isBlank = false := by decide
      intro hmem
      rw [Chars.isBlank_of_any hvisible c hmem] at hc
      cases hc
    rw [findType?, typeDeclaration?_cons hletter, ite_self]
    exact ih hrest (some c)

/-- A blank source is a class without name and members. -/
theorem outline_of_blank {source : String} (h : isBlankText source = true) :
    outline source = .ok ⟨none, []⟩ := by
  have hblank : ∀ c ∈ source.toList, isBlank c = true := List.all_eq_true.mp h
  have hmembers : members none source.toList = .ok [] := by
    have hnone : breakCode? (fun c ↦ c == ';' || c == '\x7b') source.toList = none := by
      refine breakCode?_eq_none fun c hc ↦ Bool.eq_false_iff.mpr fun hmark ↦ ?_
      have hc := hblank c hc
      obtain hmark | hmark := Bool.or_eq_true_iff.mp hmark
      · rw [eq_of_beq hmark] at hc
        exact absurd hc (by decide)
      · rw [eq_of_beq hmark] at hc
        exact absurd hc (by decide)
    rw [members, membersFrom, hnone]
  unfold outline outlineChars
  rw [findType?_of_blank hblank]
  dsimp only [Option.bind_eq_bind, Option.bind_none]
  rw [hmembers]
  rfl

end SuiteMigration.Java

namespace SuiteMigration.Gherkin

open SuiteMigration.Text

theorem parse_of_blank {content : String} (h : isBlankText content = true) :
    parse content = .error .missingFeature := by
  have hlines : ∀ line ∈ lines content, trim line = "" := by
    intro line hline
    have hblank : ∀ c ∈ line.toList, isBlank c = true := fun c hc ↦
      List.all_eq_true.mp h c (Chars.mem_of_mem_lines (mem_lines_iff.mp hline) hc).1
    have htrim := Chars.trim_append_of_blank hblank []
    rw [List.append_nil] at htrim
    rw [trim, htrim]
    rfl
  have hread (number : Nat) (content : List String) (hcontent : ∀ line ∈ content, trim line = "") :
      readLines number {} content = .ok {} := by
    induction content generalizing number with
    | nil => rfl
    | cons line rest ih =>
      obtain ⟨hline, hrest⟩ := List.forall_mem_cons.mp hcontent
      have hsame : ParserState.readLine {} number line = .ok {} := by
        rw [ParserState.readLine, hline]
        rfl
      rw [readLines, hsame]
      exact ih (number + 1) hrest
  rw [parse, hread 1 _ hlines]
  rfl

end SuiteMigration.Gherkin

namespace SuiteMigration

open SuiteMigration.Text SuiteMigration.Java SuiteMigration.Robot

theorem firstGenerated_eq_none {content : String} {ctx : Context} {generators : List Generator}
    (h : ∀ generator ∈ generators, generator content ctx = .ok none) :
    firstGenerated content ctx generators = .ok none := by
  induction generators with
  | nil => rfl
  | cons generator rest ih =>
    obtain ⟨hfirst, hrest⟩ := List.forall_mem_cons.mp h
    rw [firstGenerated, hfirst]
    exact ih hrest

section Blank

variable {content : String} (h : isBlankText content = true) (ctx : Context)

include h

/-- No generator finds anything in a blank source. -/
theorem generatorsFor_of_blank (role : Role) :
    ∀ generator ∈ generatorsFor role content, generator content ctx = .ok none := by
  have houtline := outline_of_blank h
  have hsteps : stepResource content ctx = .ok none := by
    rw [stepResource, houtline]
    rfl
  have hpage : pageObjectResource content ctx = .ok none := by
    rw [pageObjectResource, houtline]
    rfl
  have hlocators : locatorResource content ctx = .ok none := by
    rw [locatorResource, houtline]
    rfl
  unfold generatorsFor
  split
  · split
    · simp [hsteps, hpage]
    · simp [hpage]
  · simp [hlocators, hpage]
  · simp [hsteps, hpage]

theorem generateCode_of_blank (role : Role) :
    ∃ output, generateCode ctx role content = .ok output := by
  rw [generateCode, firstGenerated_eq_none (generatorsFor_of_blank h ctx role)]
  exact ⟨_, rfl⟩

/-- The generators make a file of a blank source unless it is a feature. -/
theorem Engine.isOk_generate_of_blank (e : Engine) (path : String) (role : Role) :
    (∃ output, e.generate path role content = .ok output) ↔
      endsWith (toLower path) ".feature" = false := by
  unfold Engine.generate
  dsimp only
  cases hfeature : endsWith (toLower path) ".feature" with
  | true =>
    rw [if_pos rfl, generateSuite, Gherkin.parse_of_blank h]
    exact iff_of_false (fun ⟨_, hok⟩ ↦ nomatch hok) nofun
  | false =>
    refine iff_of_true ?_ rfl
    rw [if_neg Bool.false_ne_true]
    split
    · exact ⟨_, rfl⟩
    · split
      · exact ⟨_, rfl⟩
      · split <;> exact ⟨_, rfl⟩
      · exact generateCode_of_blank h _ _

end Blank

/-! ### Fresh migration and regeneration -/

/-- A fresh migration of a source that is not blank gives what the generators give, and it has an
error exactly if they give nothing. -/
theorem Engine.migrateAlone_of_not_blank {content : String} (h : isBlankText content = false)
    (e : Engine) (file : DiscoveredFile) :
    (∃ output, e.generate file.path file.role content = .ok output ∧
        (e.migrateAlone file content).content = output.content ∧
        (e.migrateAlone file content).strategy = output.strategy ∧
        (e.migrateAlone file content).error = none) ∨
      ∃ err, e.generate file.path file.role content = .error err ∧
        (e.migrateAlone file content).error = some err.reason := by
  unfold Engine.migrateAlone Engine.generateOrPlaceholder
  rw [if_neg (Bool.eq_false_iff.mp h)]
  cases hgenerated : e.generate file.path file.role content with
  | ok output => exact Or.inl ⟨output, rfl, rfl, rfl, rfl⟩
  | error err => exact Or.inr ⟨err, rfl, rfl⟩

/-- Without fresh content no file is regenerated. -/
theorem Robot.applied_ne_deepRegeneration (existing : String) (request : TierRequest) :
    (applyTier existing request none).applied ≠ some .deepRegeneration := by
  obtain ⟨_, heq⟩ | ⟨_, heq⟩ := applyTier_cases existing request none
  · rw [heq]
    exact nofun
  · rw [heq, runTier]
    cases htier : request.tier <;> exact nofun

/-- What a fresh migration gives without an error is what the generators give for a regeneration. If
it fails or has an error, the generators give nothing, so that no file is regenerated, except on a
blank source that is no feature. -/
theorem Engine.regeneration_agrees_iff (e : Engine) (file : DiscoveredFile) (content : String) :
    let out := (e.migrate none file content).1
    let generated := e.generate file.path file.role content
    (out.isSuccess = true ∧ out.error = none →
        generated = .ok { content := out.content, strategy := out.strategy }) ∧
      ((out.isSuccess = false ∨ out.error.isSome = true →
          (∀ output, generated ≠ .ok output) ∧
            ∀ existing request,
              (applyTier existing request (generated.toOption.map Output.content)).applied ≠
                some .deepRegeneration) ↔
        ¬ (isBlankText content = true ∧ endsWith (toLower file.path) ".feature" = false)) := by
  intro out generated
  have hout : out = e.migrateAlone file content := rfl
  have hdegraded {err : GenerationError} (h : generated = .error err) :
      (∀ output, generated ≠ .ok output) ∧ ∀ existing request,
        (applyTier existing request (generated.toOption.map Output.content)).applied ≠
          some .deepRegeneration := by
    rw [h]
    exact ⟨nofun, applied_ne_deepRegeneration⟩
  cases hblank : isBlankText content with
  | true =>
    have hfailed : out.isSuccess = false := by
      rw [hout, Engine.migrateAlone, if_pos hblank]
    have hok := Engine.isOk_generate_of_blank hblank e file.path file.role
    refine ⟨fun h ↦ absurd (hfailed.symm.trans h.1) Bool.false_ne_true, fun h hpath ↦ ?_,
      fun h _ ↦ ?_⟩
    · obtain ⟨output, houtput⟩ := hok.mpr hpath.2
      exact (h (Or.inl hfailed)).1 output houtput
    · obtain ⟨output, hgenerated⟩ | ⟨err, hgenerated⟩ :
          (∃ output, generated = .ok output) ∨ ∃ err, generated = .error err := by
        cases generated <;> simp
      · exact absurd ⟨rfl, hok.mp ⟨output, hgenerated⟩⟩ h
      · exact hdegraded hgenerated
  | false =>
    have hsuccess : out.isSuccess = true := (e.migrateAlone_fresh hblank file).isSuccess
    obtain ⟨output, hok, hcontent, hstrategy, hnone⟩ | ⟨err, herror, hsome⟩ :=
      Engine.migrateAlone_of_not_blank hblank e file
    · rw [← hout] at hcontent hstrategy hnone
      refine ⟨fun _ ↦ ?_, iff_of_true (fun h ↦ ?_) fun h ↦ Bool.false_ne_true h.1⟩
      · rw [hcontent, hstrategy]
        exact hok
      · rw [hsuccess, hnone] at h
        obtain h | h := h <;> cases h
    · rw [← hout] at hsome
      refine ⟨fun h ↦ ?_, iff_of_true (fun _ ↦ hdegraded herror) fun h ↦ Bool.false_ne_true h.1⟩
      rw [hsome] at h
      cases h.2

/-- A helper class that has become empty: it cannot be migrated, but the file that was made of it is
regenerated from it. -/
theorem emptied_helper_class_regenerated :
    let e := Engine.new .enhanced "" (.ofTargetRoot "robot")
    let file : DiscoveredFile := ⟨"src/test/java/utils/DateUtils.java", .utility, "main"⟩
    let existing := "*** Keywords ***\nToday\n    No Operation\n"
    let request : TierRequest :=
      ⟨.enhanced, .deepRegeneration, true, "robot/utils/DateUtils.resource"⟩
    (e.migrate none file "").1.isSuccess = false ∧
      ∃ output, e.generate file.path file.role "" = .ok output ∧
        (applyTier existing request (some output.content)).applied = some .deepRegeneration := by
  intro e file existing request
  obtain ⟨output, houtput⟩ : ∃ output, e.generate file.path file.role "" = .ok output :=
    (Engine.isOk_generate_of_blank rfl e file.path file.role).mpr (by decide +kernel)
  refine ⟨rfl, output, houtput, ?_⟩
  rw [applyTier_of_force existing rfl]
  rfl

end SuiteMigration
