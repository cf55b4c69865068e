import SuiteMigration.Engine
import SuiteMigration.Proofs.Robot.Marker

/-!
What a fresh migration says of itself: it names the file that it was made of, and it is never
reported as unchanged, whichever generator or assistant gave the content. It fails only on a blank
source; every other file starts with the marker of a first tier, so that it can be processed again.
-/

set_option autoImplicit false
set_option relaxedAutoImplicit false

namespace SuiteMigration

open SuiteMigration.Text SuiteMigration.Java SuiteMigration.Robot

/-! ### Generators -/

/-- Content that the generators made, as opposed to an assistant or a tier. -/
def Strategy.isGenerated : Strategy → Bool
  | .ai | .tier | .unchanged => false
  | _ => true

theorem Strategy.ne_unchanged_of_isGenerated {s : Strategy} (h : s.isGenerated = true) :
    s ≠ .unchanged := by
  rintro rfl
  cases h

/-- A generated file carries the marker of a first tier. -/
structure Generated.Fresh (ctx : Context) (g : Generated) : Prop where
  marker : g.file.marker = some ctx.marker
  isGenerated : g.strategy.isGenerated = true

/-- A generated text starts with the marker of a first tier. -/
structure Output.Fresh (ctx : Context) (o : Output) : Prop where
  marker : ∃ rest, o.content = ctx.marker.render ++ "\n" ++ rest
  isGenerated : o.strategy.isGenerated = true

theorem Robot.File.render_of_marker {f : File} {m : Marker} (h : f.marker = some m) :
    ∃ rest, f.render = m.render ++ "\n" ++ rest := by
  obtain ⟨others, hlines⟩ : ∃ others, f.lines = m.render :: others := by
    rw [File.lines, h]
    exact ⟨_, rfl⟩
  rw [File.render, hlines, List.map_cons, String.join_cons]
  exact ⟨_, rfl⟩

theorem Output.Fresh.of_file {ctx : Context} {f : File} {s : Strategy}
    (hmarker : f.marker = some ctx.marker) (hs : s.isGenerated = true) :
    Output.Fresh ctx ⟨f.render, s⟩ :=
  ⟨File.render_of_marker hmarker, hs⟩

/-- What a generator gives is fresh. -/
def Generator.Fresh (generator : Generator) : Prop :=
  ∀ content ctx g, generator content ctx = .ok (some g) → g.Fresh ctx

/-- Generators outline the source and give a file unless something is missing there. -/
theorem fresh_of_outline {content : String} {ctx : Context} {missing : Outline → Bool}
    {make : Outline → Generated} (hmake : ∀ o, (make o).Fresh ctx) {g : Generated}
    (h : (outline content >>= fun o ↦ if missing o then pure none else pure (some (make o))) =
      .ok (some g)) : g.Fresh ctx := by
  cases ho : outline content with
  | error e =>
    rw [ho] at h
    cases h
  | ok o =>
    rw [ho] at h
    change (if missing o then Except.ok none else Except.ok (some (make o))) = _ at h
    split at h
    · cases h
    · cases h
      exact hmake o

theorem isGenerated_contentStrategy (semantic : Bool) :
    (contentStrategy semantic).isGenerated = true := by
  cases semantic <;> decide

theorem stepResource_fresh : Generator.Fresh stepResource :=
  fun _ _ _ h ↦ fresh_of_outline (fun _ ↦ ⟨rfl, isGenerated_contentStrategy _⟩) h

theorem pageObjectResource_fresh : Generator.Fresh pageObjectResource :=
  fun _ _ _ h ↦ fresh_of_outline (fun _ ↦ ⟨rfl, isGenerated_contentStrategy _⟩) h

theorem locatorResource_fresh : Generator.Fresh locatorResource := by
  intro content ctx g h
  refine fresh_of_outline ?_ h
  exact fun _ ↦ ⟨rfl, rfl⟩

theorem firstGenerated_fresh {generators : List Generator}
    (hfresh : ∀ generator ∈ generators, generator.Fresh) {content : String} {ctx : Context}
    {g : Generated} (h : firstGenerated content ctx generators = .ok (some g)) : g.Fresh ctx := by
  induction generators with
  | nil => cases h
  | cons generator rest ih =>
    unfold firstGenerated at h
    cases hfirst : generator content ctx with
    | error e =>
      rw [hfirst] at h
      cases h
    | ok found =>
      rw [hfirst] at h
      cases found with
      | none => exact ih (fun other hother ↦ hfresh other (List.mem_cons_of_mem _ hother)) h
      | some generated =>
        cases h
        exact hfresh generator List.mem_cons_self content ctx _ hfirst

theorem generatorsFor_fresh (role : Role) (content : String) :
    ∀ generator ∈ generatorsFor role content, generator.Fresh := by
  have hsteps : ∀ generator ∈ [stepResource, pageObjectResource], Generator.Fresh generator := by
    simp [stepResource_fresh, pageObjectResource_fresh]
  unfold generatorsFor
  split
  · split
    · exact hsteps
    · simp [pageObjectResource_fresh]
  · simp [locatorResource_fresh, pageObjectResource_fresh]
  · exact hsteps

theorem generateCode_fresh {ctx : Context} {role : Role} {content : String} {output : Output}
    (h : generateCode ctx role content = .ok output) : output.Fresh ctx := by
  unfold generateCode at h
  cases hfirst : firstGenerated content ctx (generatorsFor role content) with
  | error e =>
    rw [hfirst] at h
    cases h
  | ok found =>
    rw [hfirst] at h
    cases found with
    | none =>
      rw [← Except.ok.inj h]
      exact Output.Fresh.of_file rfl rfl
    | some generated =>
      have hfresh := firstGenerated_fresh (generatorsFor_fresh role content) hfirst
      rw [← Except.ok.inj h]
      exact Output.Fresh.of_file hfresh.marker hfresh.isGenerated

theorem generateSuite_fresh {e : Engine} {ctx : Context} {content target : String}
    {output : Output} (h : generateSuite e ctx content target = .ok output) :
    output.Fresh ctx := by
  unfold generateSuite at h
  cases hfeature : Gherkin.parse content with
  | error err =>
    rw [hfeature] at h
    cases h
  | ok feature =>
    rw [hfeature] at h
    rw [← Except.ok.inj h]
    refine Output.Fresh.of_file rfl ?_
    split <;> rfl

theorem Engine.generate_fresh {e : Engine} {path : String} {role : Role} {content : String}
    {output : Output} (h : e.generate path role content = .ok output) :
    output.Fresh (e.context path) := by
  unfold Engine.generate at h
  dsimp only at h
  split at h
  · exact generateSuite_fresh h
  · split at h
    · rw [← Except.ok.inj h]
      exact Output.Fresh.of_file rfl rfl
    · split at h
      · rw [← Except.ok.inj h]
        exact Output.Fresh.of_file rfl rfl
      · split at h
        · rw [← Except.ok.inj h]
          exact Output.Fresh.of_file rfl rfl
        · rw [← Except.ok.inj h]
          exact Output.Fresh.of_file rfl rfl
      · exact generateCode_fresh h

/-- Errors and crashes of the generators give a placeholder, which is fresh as well. -/
theorem Engine.generateOrPlaceholder_fresh (e : Engine) (path : String) (role : Role)
    (content : String) :
    (e.generateOrPlaceholder path role content).1.Fresh (e.context path) := by
  unfold Engine.generateOrPlaceholder
  split
  next output h => exact Engine.generate_fresh h
  next => exact Output.Fresh.of_file rfl rfl

/-! ### Fresh migrations -/

theorem Engine.migrateAlone_isGenerated (e : Engine) (file : DiscoveredFile) (content : String) :
    (e.migrateAlone file content).strategy.isGenerated = true := by
  unfold Engine.migrateAlone
  dsimp only
  split
  · rfl
  · dsimp only
    exact (e.generateOrPlaceholder_fresh file.path file.role content).isGenerated

/-- Without an assistant a migration names its file, and is reported as new. -/
theorem Engine.migrateAlone_about (e : Engine) (file : DiscoveredFile) (content : String) :
    (e.migrateAlone file content).sourcePath = file.path ∧
      (e.migrateAlone file content).strategy ≠ .unchanged := by
  refine ⟨?_, Strategy.ne_unchanged_of_isGenerated (e.migrateAlone_isGenerated file content)⟩
  unfold Engine.migrateAlone
  dsimp only
  split <;> rfl

/-- A blank source is not offered to the assistant. -/
theorem Engine.migrate_of_blank {content : String} (h : isBlankText content = true) (e : Engine)
    (assistant : Option Completion.Assistant) (file : DiscoveredFile) :
    e.migrate assistant file content = (e.migrateAlone file content, assistant, 0) := by
  cases assistant with
  | none => rfl
  | some a =>
    unfold Engine.migrate
    dsimp only
    rw [h, Bool.true_or, if_pos rfl]

/-- A migration gives what the generators give, or takes over a text of the assistant. -/
theorem Engine.migrate_cases (e : Engine) (assistant : Option Completion.Assistant)
    (file : DiscoveredFile) (content : String) :
    (e.migrate assistant file content).1 = e.migrateAlone file content ∨
      isBlankText content = false ∧
        ∃ text, (e.migrate assistant file content).1 = e.adopt file text := by
  by_cases hblank : isBlankText content = true
  · exact Or.inl (congrArg Prod.fst (e.migrate_of_blank hblank assistant file))
  · unfold Engine.migrate
    split
    · exact Or.inl rfl
    · dsimp only
      split
      · exact Or.inl rfl
      · split
        next text _ => exact Or.inr ⟨Bool.eq_false_iff.mpr hblank, text, rfl⟩
        next => exact Or.inl rfl

/-- A migration names its file, and is reported as new. -/
theorem Engine.migrate_about (e : Engine) (assistant : Option Completion.Assistant)
    (file : DiscoveredFile) (content : String) :
    (e.migrate assistant file content).1.sourcePath = file.path ∧
      (e.migrate assistant file content).1.strategy ≠ .unchanged := by
  rcases e.migrate_cases assistant file content with halone | ⟨_, text, hadopted⟩
  · rw [halone]
    exact e.migrateAlone_about file content
  · rw [hadopted]
    exact ⟨rfl, nofun⟩

/-- A migration fails only on a blank source. -/
theorem Engine.migrate_failed {e : Engine} {assistant : Option Completion.Assistant}
    {file : DiscoveredFile} {content : String}
    (h : (e.migrate assistant file content).1.isSuccess = false) :
    (e.migrate assistant file content).1.error = some "source file is empty" := by
  rcases e.migrate_cases assistant file content with halone | ⟨_, text, hadopted⟩
  · rw [halone] at h ⊢
    unfold Engine.migrateAlone at h ⊢
    dsimp only at h ⊢
    split at h
    next hblank => rw [if_pos hblank]
    next => cases h
  · rw [hadopted] at h
    cases h

/-! ### Processing of what has been migrated -/

/-- A migrated file with its report, whose content starts with the marker of a first tier. -/
structure TransformedFile.Fresh (mode : Mode) (t : TransformedFile) : Prop where
  isSuccess : t.isSuccess = true
  marker : Marker.parse? t.content = some { mode, tier := 1 }
  validation : t.validation = some (validate t.content)

theorem tiered_first (mode : Mode) : Marker.Tiered { mode, tier := 1 } :=
  Tier.number_bounds .quickRefresh

theorem Engine.migrateAlone_fresh {content : String} (h : isBlankText content = false)
    (e : Engine) (file : DiscoveredFile) : (e.migrateAlone file content).Fresh e.mode := by
  obtain ⟨rest, hrest⟩ := (e.generateOrPlaceholder_fresh file.path file.role content).marker
  unfold Engine.migrateAlone
  dsimp only
  rw [if_neg (Bool.eq_false_iff.mp h)]
  constructor <;> dsimp only
  case marker =>
    rw [hrest]
    exact (tiered_first e.mode).parse?_append rest

theorem Engine.adopt_fresh (e : Engine) (file : DiscoveredFile) (text : String) :
    (e.adopt file text).Fresh e.mode := by
  have hmarker := (tiered_first e.mode).parse?_ensureMarker text
  unfold Engine.adopt
  constructor <;> dsimp only
  case marker => exact hmarker

theorem Engine.migrate_fresh {content : String} (h : isBlankText content = false) (e : Engine)
    (assistant : Option Completion.Assistant) (file : DiscoveredFile) :
    (e.migrate assistant file content).1.Fresh e.mode := by
  rcases e.migrate_cases assistant file content with halone | ⟨_, text, hadopted⟩
  · rw [halone]
    exact e.migrateAlone_fresh h file
  · rw [hadopted]
    exact e.adopt_fresh file text

/-- A tier that is recorded already leaves the file alone unless it is forced. -/
theorem TransformedFile.Fresh.applyTier_quickRefresh {mode : Mode} {t : TransformedFile}
    (h : t.Fresh mode) {request : TierRequest} (htier : request.tier = .quickRefresh)
    (hforce : request.force = false) (fresh : Option String) :
    applyTier t.content request fresh = ⟨t.content, false, none, none⟩ := by
  unfold applyTier
  rw [h.marker, htier, hforce]
  rfl

/-- A fresh migration fails exactly on a blank source, which has no content and is not offered to
the assistant. Every other file is migrated whatever the generators or the assistant make of it: its
content carries the marker of a first tier and the report is about it, so that a quick refresh that
is not forced returns it as it is. -/
theorem Engine.migrate_total (e : Engine) (assistant : Option Completion.Assistant)
    (file : DiscoveredFile) (content : String) :
    let out := (e.migrate assistant file content).1
    (out.isSuccess = false ↔ isBlankText content = true) ∧
      if isBlankText content then
        e.migrate assistant file content = ((e.migrate none file content).1, assistant, 0) ∧
          out.content = ""
      else
        out.isSuccess = true ∧
          Marker.parse? out.content = some { mode := e.mode, tier := 1, validated := false } ∧
          out.validation = some (validate out.content) ∧
          ∀ mode path fresh,
            applyTier out.content { mode, tier := .quickRefresh, force := false, path } fresh =
              { content := out.content, changed := false, applied := none
                validation := none } := by
  intro out
  by_cases hblank : isBlankText content = true
  · have hout : out = e.migrateAlone file content :=
      congrArg Prod.fst (e.migrate_of_blank hblank assistant file)
    rw [if_pos hblank, hout, e.migrate_of_blank hblank assistant file, Engine.migrate,
      Engine.migrateAlone, if_pos hblank]
    exact ⟨⟨fun _ ↦ hblank, fun _ ↦ rfl⟩, rfl, rfl⟩
  · have hfresh : out.Fresh e.mode :=
      e.migrate_fresh (Bool.eq_false_iff.mpr hblank) assistant file
    rw [if_neg hblank]
    refine ⟨⟨fun hfailed ↦ ?_, fun h ↦ absurd h hblank⟩, hfresh.isSuccess, hfresh.marker,
      hfresh.validation, fun mode path fresh ↦ hfresh.applyTier_quickRefresh rfl rfl fresh⟩
    rw [hfresh.isSuccess] at hfailed
    cases hfailed

end SuiteMigration
