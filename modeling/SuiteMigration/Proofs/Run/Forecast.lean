import SuiteMigration.Proofs.Run.Step
import SuiteMigration.Proofs.Run.DryRun
import SuiteMigration.Proofs.Skeleton

/-!
What a dry run foretells. A run and its dry counterpart are alike up to the writing of files, but
for one thing: a run creates the branch for its output as a copy of the branch of the sources, and a
dry run does not. Targets that the sources bring along are merged in the one and overlooked by the
other, which takes them for new. The counts of the two runs differ by what these targets add, and by
nothing else.
-/

set_option autoImplicit false
set_option relaxedAutoImplicit false

namespace SuiteMigration.Run

open SuiteMigration.Repository SuiteMigration.Text

/-! ### Overlooked targets -/

/-- The text of a file that carries a marker. -/
def markedFile? (store : Store) (branch path : String) : Option String :=
  (store.file? branch path).filter fun text ↦ (Robot.Marker.parse? text).isSome

/-- What a fresh migration becomes when it meets a marked text at its target. -/
def mergedFile (engine : Engine) (request : Request) (branch : String) (fresh : TransformedFile)
    (existing : String) : TransformedFile :=
  let target : DiscoveredFile := ⟨fresh.targetPath, fresh.role, branch⟩
  { engine.retransform target existing request.tier request.force (some fresh.content) with
    sourcePath := fresh.sourcePath }

/-- A file of two runs: the one takes its target for new, the other merges it. -/
structure Overlooked where
  fresh : TransformedFile
  merged : TransformedFile
  fresh_success : fresh.isSuccess = true
  fresh_new : fresh.strategy ≠ .unchanged
  merged_success : merged.isSuccess = true
  merged_error : merged.error = none

/-- A file is overlooked if the branch of the sources has a marked text at its target. -/
def overlookedFile? (engine : Engine) (request : Request) (store : Store) (branch : String) :
    DiscoveredFile × String → Option Overlooked
  | (file, text) =>
      let fresh := engine.migrateAlone file text
      if h : request.operation = .migrationAndTransformation ∧ fresh.isSuccess = true then
        (markedFile? store request.sourceBranch fresh.targetPath).map fun existing ↦
          { fresh, merged := mergedFile engine request branch fresh existing
            fresh_success := h.2
            fresh_new := (engine.migrateAlone_about file text).2
            merged_success := rfl
            merged_error := rfl }
      else none

/-- The files that a dry run overlooks. There are none if the branch for the output is there. -/
def overlooked (settings : Settings) (request : Request) (store : Store)
    (files : List DiscoveredFile) : List Overlooked :=
  let branch := request.targetBranch.getD settings.newBranch
  if (store.branches.lookup branch).isSome then []
  else
    (sourceTexts store files).filterMap
      (overlookedFile? (settings.engine request) request store branch)

theorem overlooked_eq_nil {settings : Settings} {request : Request} {store : Store}
    (h : request.operation ≠ .migrationAndTransformation ∨
      (store.branches.lookup (request.targetBranch.getD settings.newBranch)).isSome = true)
    (files : List DiscoveredFile) : overlooked settings request store files = [] := by
  unfold overlooked
  dsimp only
  split
  next => rfl
  next hmissing =>
    have hoperation := h.resolve_right hmissing
    refine List.filterMap_eq_nil_iff.mpr fun pair _ ↦ ?_
    simp [overlookedFile?, hoperation]

/-! ### Counts -/

/-- The counts of two runs differ by what some files add that the first run overlooks. -/
structure Differ (missed : List Overlooked) (s t : Summary) : Prop where
  discovered : s.discovered = t.discovered
  readFailures : s.readFailures = t.readFailures
  transformed : s.transformed = t.transformed
  transformFailures : s.transformFailures = t.transformFailures
  skeletonFiles : s.skeletonFiles = t.skeletonFiles
  unchanged : s.unchanged + missed.countP (·.merged.strategy == .unchanged) = t.unchanged
  degraded : s.degraded = t.degraded + missed.countP (·.fresh.error.isSome)
  validationFailures : s.validationFailures + missed.countP (!·.merged.isValid) =
    t.validationFailures + missed.countP (!·.fresh.isValid)

variable {missed : List Overlooked} {s t : Summary}

theorem Summary.forecast_eq_iff : s.forecast = t.forecast ↔
    (s.discovered = t.discovered ∧ s.readFailures = t.readFailures ∧
      s.transformed = t.transformed ∧ s.transformFailures = t.transformFailures ∧
      s.skeletonFiles = t.skeletonFiles) ∧
    s.degraded = t.degraded ∧ s.validationFailures = t.validationFailures ∧
      s.unchanged = t.unchanged := by
  simp only [Summary.forecast, Summary.mk.injEq]
  tauto

theorem differ_nil_iff : Differ [] s t ↔ s.forecast = t.forecast := by
  rw [Summary.forecast_eq_iff]
  constructor
  · rintro ⟨hdiscovered, hread, htransformed, hfailures, hskeleton, hunchanged, hdegraded, hvalid⟩
    exact ⟨⟨hdiscovered, hread, htransformed, hfailures, hskeleton⟩, hdegraded, hvalid, hunchanged⟩
  · rintro ⟨⟨hdiscovered, hread, htransformed, hfailures, hskeleton⟩, hdegraded, hvalid, hunchanged⟩
    exact ⟨hdiscovered, hread, htransformed, hfailures, hskeleton, hunchanged, hdegraded, hvalid⟩

/-- The counts agree if the overlooked files add equally much. -/
theorem Differ.forecast_eq_iff (h : Differ missed s t) : s.forecast = t.forecast ↔
    (∀ o ∈ missed, o.merged.strategy ≠ .unchanged) ∧ (∀ o ∈ missed, o.fresh.error = none) ∧
      missed.countP (!·.fresh.isValid) = missed.countP (!·.merged.isValid) := by
  have hunchanged : s.unchanged = t.unchanged ↔
      ∀ o ∈ missed, o.merged.strategy ≠ .unchanged := by
    rw [← h.unchanged, left_eq_add, List.countP_eq_zero]
    simp
  have hdegraded : s.degraded = t.degraded ↔ ∀ o ∈ missed, o.fresh.error = none := by
    rw [h.degraded, add_eq_left, List.countP_eq_zero]
    simp
  have hvalid : s.validationFailures = t.validationFailures ↔
      missed.countP (!·.fresh.isValid) = missed.countP (!·.merged.isValid) := by
    have hcounts := h.validationFailures
    omega
  rw [Summary.forecast_eq_iff, hunchanged, hdegraded, hvalid]
  constructor
  · rintro ⟨_, herrors, hcounts, hstrategies⟩
    exact ⟨hstrategies, herrors, hcounts⟩
  · rintro ⟨hstrategies, herrors, hcounts⟩
    exact ⟨⟨h.discovered, h.readFailures, h.transformed, h.transformFailures, h.skeletonFiles⟩,
      herrors, hcounts, hstrategies⟩

/-- Only the forecasts of the two runs count. -/
theorem Differ.congr {s' t' : Summary} (h : Differ missed s t) (hs : s'.forecast = s.forecast)
    (ht : t'.forecast = t.forecast) : Differ missed s' t' := by
  obtain ⟨⟨h₁, h₂, h₃, h₄, h₅⟩, h₆, h₇, h₈⟩ := Summary.forecast_eq_iff.mp hs
  obtain ⟨⟨k₁, k₂, k₃, k₄, k₅⟩, k₆, k₇, k₈⟩ := Summary.forecast_eq_iff.mp ht
  obtain ⟨d₁, d₂, d₃, d₄, d₅, d₆, d₇, d₈⟩ := h
  constructor <;> omega

/-- What a file that could be transformed adds, in numbers. -/
theorem Summary.addTransformed_of_success (s : Summary) {u : TransformedFile}
    (h : u.isSuccess = true) : s.addTransformed u =
      { s with
        transformed := s.transformed + 1
        degraded := s.degraded + u.error.isSome.toNat
        validationFailures := s.validationFailures + (!u.isValid).toNat
        unchanged := s.unchanged + (u.strategy == .unchanged).toNat } := by
  rw [Summary.addTransformed, if_pos h]
  cases u.error.isSome <;> cases u.isValid <;> cases u.strategy == .unchanged <;> rfl

/-- A file that both runs make the same of adds the same to both. -/
theorem Differ.add (h : Differ missed s t) (u : TransformedFile) :
    Differ missed (s.addTransformed u) (t.addTransformed u) := by
  obtain ⟨d₁, d₂, d₃, d₄, d₅, d₆, d₇, d₈⟩ := h
  cases hsuccess : u.isSuccess with
  | true =>
    rw [s.addTransformed_of_success hsuccess, t.addTransformed_of_success hsuccess]
    constructor <;> dsimp only <;> omega
  | false =>
    have hfailed : ¬ u.isSuccess = true := Bool.eq_false_iff.mp hsuccess
    rw [Summary.addTransformed, Summary.addTransformed, if_neg hfailed, if_neg hfailed]
    constructor <;> dsimp only <;> omega

theorem Differ.overlook (h : Differ missed s t) (o : Overlooked) :
    Differ (missed ++ [o]) (s.addTransformed o.fresh) (t.addTransformed o.merged) := by
  have hcount (p : Overlooked → Bool) : (missed ++ [o]).countP p =
      missed.countP p + (p o).toNat := by
    rw [List.countP_append, List.countP_singleton]
    cases p o <;> rfl
  have hnew : (o.fresh.strategy == .unchanged) = false := beq_eq_false_iff_ne.mpr o.fresh_new
  have herror : o.merged.error.isSome = false := by rw [o.merged_error]; rfl
  obtain ⟨d₁, d₂, d₃, d₄, d₅, d₆, d₇, d₈⟩ := h
  rw [s.addTransformed_of_success o.fresh_success, t.addTransformed_of_success o.merged_success,
    hnew, herror]
  constructor <;> simp only [hcount, Bool.toNat_false] <;> omega

/-! ### Generating -/

section Generating

variable {engine : Engine} {request : Request} {branch : String} {file : DiscoveredFile}
  {text : String} {s : Session Store}

/-- What a migration makes of a file without an assistant. -/
def migratedFile (engine : Engine) (request : Request) (store : Store) (branch : String)
    (file : DiscoveredFile) (text : String) : TransformedFile :=
  let fresh := engine.migrateAlone file text
  if request.operation = .migrationAndTransformation ∧ fresh.isSuccess = true then
    ((markedFile? store branch fresh.targetPath).map
      (mergedFile engine request branch fresh)).getD fresh
  else fresh

theorem mergeExisting_yields (engine : Engine) (request : Request) (branch : String)
    (fresh : TransformedFile) (s : Session Store) :
    Yields (mergeExisting engine request branch fresh) s
      (((markedFile? s.repo branch fresh.targetPath).map
        (mergedFile engine request branch fresh)).getD fresh)
      { s with calls := s.calls ++ [⟨s.now, fresh.targetPath, branch⟩] } := by
  refine yields_bind.mpr ⟨_, _, yields_readBack.mpr ⟨rfl, rfl⟩, ?_⟩
  have hname : s.repo.branchName (some branch) = .ok branch := rfl
  rw [Store.readFile, hname, markedFile?]
  dsimp only [bind, Except.bind]
  cases s.repo.file? branch fresh.targetPath with
  | none => exact yields_pure.mpr ⟨rfl, rfl⟩
  | some existing =>
    dsimp only [pure, Except.pure]
    rw [Option.filter_some]
    cases Robot.Marker.parse? existing with
    | none => exact yields_pure.mpr ⟨rfl, rfl⟩
    | some marker => exact yields_pure.mpr ⟨rfl, rfl⟩

/-- A migration generates every file, and only the calls to the repository are noted. -/
theorem transformFile_yields (sources : SourceIndex) (file : DiscoveredFile) (text : String)
    (hmigration : request.operation.isTransformationOnly = false)
    (hassistant : s.assistant = none) :
    ∃ calls, Yields (transformFile engine request branch sources file text) s
      (migratedFile engine request s.repo branch file text) { s with calls } := by
  have hmigrate : Yields (migrateFile engine file text) s (engine.migrateAlone file text) s := by
    have hsame : { s with assistant := none } = s := by rw [← hassistant]
    rw [yields_migrateFile, hassistant]
    exact ⟨rfl, hsame⟩
  unfold transformFile migratedFile
  cases hoperation : request.operation with
  | transformation =>
    rw [hoperation] at hmigration
    cases hmigration
  | migration =>
    simp only [reduceCtorEq, false_and, if_false]
    exact ⟨s.calls, hmigrate⟩
  | migrationAndTransformation =>
    simp only [true_and, yields_bind]
    cases hsuccess : (engine.migrateAlone file text).isSuccess with
    | false => exact ⟨s.calls, _, _, hmigrate, by simp [hsuccess]⟩
    | true =>
      refine ⟨s.calls ++ [⟨s.now, (engine.migrateAlone file text).targetPath, branch⟩], _, s,
        hmigrate, ?_⟩
      rw [if_pos hsuccess, if_pos rfl]
      exact mergeExisting_yields engine request branch _ s

theorem record_counts (u : TransformedFile) (s : Session Store) :
    ∃ item entries, Yields (record u) s item
      { s with entries, summary := s.summary.addTransformed u } := by
  simp only [record, yields_bind, yields_count]
  cases hresult : TransformedFile.result? u with
  | none => exact ⟨_, s.entries, (), _, rfl, yields_pure.mpr ⟨rfl, rfl⟩⟩
  | some result =>
    exact ⟨none, _, (), _, rfl, yields_bind.mpr ⟨(), _, yields_resolve.mpr rfl,
      yields_pure.mpr ⟨rfl, rfl⟩⟩⟩

end Generating

/-! ### Two runs side by side -/

/-- The counts of two runs differ by some of the missed files, and by all of them if the observer
lets all reports pass. -/
def Foretold (observer : Observer) (missed : List Overlooked) (s t : Session Store) : Prop :=
  ∃ part, part <+: missed ∧ (observer.Quiet → part = missed) ∧ Differ part s.summary t.summary

/-- A dry run and one that created the branch for its output, when they have come to the same
point. -/
structure Twin (store : Store) (request : Request) (branch : String) (part : List Overlooked)
    (s t : Session Store) : Prop where
  dry : s.repo.branches = store.branches
  source : t.repo.branches.lookup request.sourceBranch =
    store.branches.lookup request.sourceBranch
  copy : t.repo.branches.lookup branch = store.branches.lookup request.sourceBranch
  events : s.events.length = t.events.length
  unassisted : s.assistant = none ∧ t.assistant = none
  differ : Differ part s.summary t.summary

section Twin

variable {observer : Observer} {engine : Engine} {request : Request} {store : Store}
  {branch : String} {part missed : List Overlooked} {s t : Session Store}

theorem Foretold.refl (observer : Observer) (s : Session Store) : Foretold observer [] s s :=
  ⟨[], List.prefix_rfl, fun _ ↦ rfl, differ_nil_iff.mpr rfl⟩

theorem Foretold.along {s' t' : Session Store} (h : Foretold observer missed s t)
    (hs : SameForecast s s') (ht : SameForecast t t') : Foretold observer missed s' t' := by
  obtain ⟨part, hpart, hquiet, hdiffer⟩ := h
  exact ⟨part, hpart, hquiet, hdiffer.congr hs ht⟩

theorem Twin.foretold (h : Twin store request branch missed s t) : Foretold observer missed s t :=
  ⟨missed, List.prefix_rfl, fun _ ↦ rfl, h.differ⟩

theorem notify_twin (h : Twin store request branch part s t) (hpart : part <+: missed)
    (event : Event) :
    Beside (Foretold observer missed) (fun _ _ ↦ Twin store request branch part)
      (notify observer event) (notify observer event) s t := by
  refine notify_beside h.events ?_ fun hcrash ↦ ?_
  · exact ⟨h.dry, h.source, h.copy, by simp only [List.length_append, h.events], h.unassisted,
      h.differ⟩
  · exact ⟨part, hpart, fun hquiet ↦ absurd (hquiet _ _) hcrash, h.differ⟩

theorem announce_twin (h : Twin store request branch part s t) (hpart : part <+: missed)
    (message : String) (phase : Phase) (percent : Nat) :
    Beside (Foretold observer missed) (fun _ _ ↦ Twin store request branch part)
      (announce observer message phase percent) (announce observer message phase percent) s t := by
  have hentered : Twin store request branch part
      { s with status := s.status.enter phase percent }
      { t with status := t.status.enter phase percent } :=
    ⟨h.dry, h.source, h.copy, h.events, h.unassisted, h.differ⟩
  rw [Beside, exec_announce, exec_announce]
  exact notify_twin hentered hpart _

/-- Both runs read the same texts, since reading does not go to the branch for the output. -/
theorem readFiles_twin (h : Twin store request branch part s t) (hpart : part <+: missed)
    (policy : Reading.Policy) {files : List DiscoveredFile}
    (hfiles : ∀ file ∈ files, file.branch = request.sourceBranch) :
    Beside (Foretold observer missed)
      (fun loaded other left right ↦ (loaded = sourceTexts store files ∧ other = loaded) ∧
        Twin store request branch part left right)
      (readFiles observer policy files) (readFiles observer policy files) s t := by
  have hcompletes : Completes (readFiles observer policy files) s ↔
      Completes (readFiles observer policy files) t := by
    rw [completes_readFiles_iff, completes_readFiles_iff, h.events]
  by_cases hs : Completes (readFiles observer policy files) s
  · obtain ⟨loaded, left, hleft⟩ := hs
    obtain ⟨other, right, hright⟩ := hcompletes.mp ⟨loaded, left, hleft⟩
    obtain ⟨hloaded, hleftBranches, hleftAssistant⟩ := readFiles_store hleft
    obtain ⟨hother, hrightBranches, hrightAssistant⟩ := readFiles_store hright
    have hsource : s.repo.branches.lookup request.sourceBranch =
        store.branches.lookup request.sourceBranch := by rw [h.dry]
    rw [sourceTexts_congr hsource hfiles] at hloaded
    rw [sourceTexts_congr h.source hfiles, ← hloaded] at hother
    obtain ⟨hleftEvents, failures, hfailures, hleftSummary⟩ := readFiles_counts hleft
    obtain ⟨hrightEvents, others, hothers, hrightSummary⟩ := readFiles_counts hright
    obtain rfl : failures = others := by rw [hother] at hothers; omega
    refine .of_yields hleft hright ⟨⟨hloaded, hother⟩, ?_, ?_, ?_, ?_, ?_, ?_⟩
    · rw [hleftBranches.1, h.dry]
    · rw [hrightBranches.1, h.source]
    · rw [hrightBranches.1, h.copy]
    · rw [hleftEvents, hrightEvents, h.events]
    · exact ⟨hleftAssistant.trans h.unassisted.1, hrightAssistant.trans h.unassisted.2⟩
    · obtain ⟨d₁, d₂, d₃, d₄, d₅, d₆, d₇, d₈⟩ := h.differ
      rw [hleftSummary, hrightSummary]
      exact ⟨d₁, congrArg (· + failures) d₂, d₃, d₄, d₅, d₆, d₇, d₈⟩
  · have ht := mt hcompletes.mpr hs
    refine .of_stopped (fun a next hyields ↦ hs ⟨a, next, hyields⟩)
      (fun a next hyields ↦ ht ⟨a, next, hyields⟩) ⟨part, hpart, fun hquiet ↦ ?_, ?_⟩
    · exact absurd (readFiles_unfailing hquiet policy files s) hs
    · rw [readFiles_stopped hs, readFiles_stopped ht]
      exact h.differ

/-- What two runs make of a file that the first of them may overlook. -/
def Matched (found : Option Overlooked) (a b : TransformedFile) : Prop :=
  match found with
  | none => a = b
  | some o => a = o.fresh ∧ b = o.merged

theorem Differ.matched {s t : Summary} {found : Option Overlooked} {a b : TransformedFile}
    (h : Differ part s t) (hmatched : Matched found a b) :
    Differ (part ++ found.toList) (s.addTransformed a) (t.addTransformed b) := by
  cases found with
  | none =>
    obtain rfl : a = b := hmatched
    rw [Option.toList_none, List.append_nil]
    exact h.add a
  | some o =>
    obtain ⟨rfl, rfl⟩ := hmatched
    exact h.overlook o

/-- The dry run does not find the target of a file, and the other one finds what the branch of the
sources has there. -/
theorem migratedFile_matched (h : Twin store request branch part s t)
    (hmissing : store.branches.lookup branch = none) (file : DiscoveredFile) (text : String) :
    Matched (overlookedFile? engine request store branch (file, text))
      (migratedFile engine request s.repo branch file text)
      (migratedFile engine request t.repo branch file text) := by
  have hdry (path : String) : markedFile? s.repo branch path = none := by
    rw [markedFile?, Store.file?, h.dry, hmissing]
    rfl
  have hcopy (path : String) : markedFile? t.repo branch path =
      markedFile? store request.sourceBranch path := by
    rw [markedFile?, markedFile?, Store.file?, Store.file?, h.copy]
  unfold overlookedFile? migratedFile
  simp only [hdry, hcopy]
  split
  next hasked =>
    cases markedFile? store request.sourceBranch (engine.migrateAlone file text).targetPath with
    | none => rfl
    | some existing => exact ⟨rfl, rfl⟩
  next => rfl

theorem transformFile_twin (h : Twin store request branch part s t)
    (hmissing : store.branches.lookup branch = none)
    (hmigration : request.operation.isTransformationOnly = false) (sources : SourceIndex)
    (file : DiscoveredFile) (text : String) {stopped : Session Store → Session Store → Prop} :
    Beside stopped
      (fun a b left right ↦ Matched (overlookedFile? engine request store branch (file, text)) a b ∧
        Twin store request branch part left right)
      (transformFile engine request branch sources file text)
      (transformFile engine request branch sources file text) s t := by
  obtain ⟨calls, hleft⟩ := transformFile_yields sources file text hmigration h.unassisted.1
  obtain ⟨others, hright⟩ := transformFile_yields sources file text hmigration h.unassisted.2
  exact .of_yields hleft hright ⟨migratedFile_matched h hmissing file text, h.dry, h.source, h.copy,
    h.events, h.unassisted, h.differ⟩

theorem record_twin (h : Twin store request branch part s t) {found : Option Overlooked}
    {a b : TransformedFile} (hmatched : Matched found a b)
    {stopped : Session Store → Session Store → Prop} :
    Beside stopped (fun _ _ ↦ Twin store request branch (part ++ found.toList))
      (record a) (record b) s t := by
  obtain ⟨_, _, hleft⟩ := record_counts a s
  obtain ⟨_, _, hright⟩ := record_counts b t
  exact .of_yields hleft hright ⟨h.dry, h.source, h.copy, h.events, h.unassisted,
    h.differ.matched hmatched⟩

/-- The files are transformed in step, and each overlooked one is added to the difference. -/
theorem transformFrom_twin (hmissing : store.branches.lookup branch = none)
    (hmigration : request.operation.isTransformationOnly = false) (sources : SourceIndex)
    (total done : Nat) {loaded : List (DiscoveredFile × String)}
    (h : Twin store request branch part s t)
    (hmissed : part ++ loaded.filterMap (overlookedFile? engine request store branch) = missed) :
    Beside (Foretold observer missed) (fun _ _ ↦ Twin store request branch missed)
      (transformFrom observer engine request branch sources total done loaded)
      (transformFrom observer engine request branch sources total done loaded) s t := by
  induction loaded generalizing part done s t with
  | nil =>
    rw [List.filterMap_nil, List.append_nil] at hmissed
    subst hmissed
    exact .of_yields (yields_pure.mpr ⟨rfl, rfl⟩) (yields_pure.mpr ⟨rfl, rfl⟩) h
  | cons pair rest ih =>
    obtain ⟨file, text⟩ := pair
    -- a crash at the report of the first file leaves the difference that this file has made
    have hsplit : (part ++ (overlookedFile? engine request store branch (file, text)).toList) ++
        rest.filterMap (overlookedFile? engine request store branch) = missed := by
      rw [← hmissed, List.filterMap_cons, List.append_assoc]
      cases overlookedFile? engine request store branch (file, text) <;> rfl
    refine (transformFile_twin h hmissing hmigration sources file text).bind
      fun a b left right ⟨hmatched, htransformed⟩ ↦ ?_
    refine (record_twin htransformed hmatched).bind fun _ _ left right hrecorded ↦ ?_
    refine (notify_twin hrecorded ⟨_, hsplit⟩ _).bind fun _ _ left right hnotified ↦ ?_
    refine (ih (done + 1) hnotified hsplit).bind fun _ _ left right hrest ↦ ?_
    exact .of_yields (yields_pure.mpr ⟨rfl, rfl⟩) (yields_pure.mpr ⟨rfl, rfl⟩) hrest

theorem transformAll_twin (h : Twin store request branch [] s t)
    (hmissing : store.branches.lookup branch = none)
    (hmigration : request.operation.isTransformationOnly = false)
    (loaded : List (DiscoveredFile × String))
    (hmissed : loaded.filterMap (overlookedFile? engine request store branch) = missed) :
    Beside (Foretold observer missed) (fun _ _ ↦ Twin store request branch missed)
      (transformAll observer engine request branch loaded)
      (transformAll observer engine request branch loaded) s t := by
  unfold transformAll
  simp only [hmigration, Bool.false_and, Bool.false_eq_true, if_false, pure_bind]
  refine (announce_twin h List.nil_prefix _ _ _).bind fun _ _ left right hannounced ↦ ?_
  refine (transformFrom_twin hmissing hmigration [] loaded.length 0 hannounced hmissed).bind
    fun _ _ left right htransformed ↦ ?_
  refine .of_yields (yields_bind.mpr ⟨(), _, yields_enter.mpr rfl, yields_pure.mpr ⟨rfl, rfl⟩⟩)
    (yields_bind.mpr ⟨(), _, yields_enter.mpr rfl, yields_pure.mpr ⟨rfl, rfl⟩⟩) ?_
  exact ⟨htransformed.dry, htransformed.source, htransformed.copy, htransformed.events,
    htransformed.unassisted, htransformed.differ⟩

/-- The shared files are equally many, whatever they import. -/
theorem skeletonItems_twin (h : Twin store request branch missed s t)
    (hlibrary : isBlankText engine.library = false) (items others : List Commit.Item) :
    Beside (Foretold observer missed) (fun _ _ ↦ Foretold observer missed)
      (skeletonItems observer engine request items)
      (skeletonItems observer engine request others) s t := by
  obtain ⟨shared, hshared⟩ := skeleton_files_ok hlibrary request.mode (items.map Commit.Item.path)
  obtain ⟨same, hsame⟩ := skeleton_files_ok hlibrary request.mode (others.map Commit.Item.path)
  unfold skeletonItems
  split
  · exact .of_yields (yields_pure.mpr ⟨rfl, rfl⟩) (yields_pure.mpr ⟨rfl, rfl⟩) h.foretold
  · refine (announce_twin h List.prefix_rfl _ _ _).bind fun _ _ left right hannounced ↦ ?_
    rw [hshared, hsame]
    refine .of_yields (yields_bind.mpr ⟨(), _, yields_count.mpr rfl, yields_pure.mpr ⟨rfl, rfl⟩⟩)
      (yields_bind.mpr ⟨(), _, yields_count.mpr rfl, yields_pure.mpr ⟨rfl, rfl⟩⟩) ?_
    refine ⟨missed, List.prefix_rfl, fun _ ↦ rfl, ?_⟩
    obtain ⟨d₁, d₂, d₃, d₄, _, d₆, d₇, d₈⟩ := hannounced.differ
    have hlength : shared.length = same.length :=
      (Skeleton.length_files hshared).trans (Skeleton.length_files hsame).symm
    exact ⟨d₁, d₂, d₃, d₄, hlength, d₆, d₇, d₈⟩

/-- The phases that generate files go in step as a whole. -/
theorem generateFiles_twin {settings : Settings} (h : Twin store request branch [] s t)
    (hmissing : store.branches.lookup branch = none)
    (hmigration : request.operation.isTransformationOnly = false)
    (hlibrary : isBlankText engine.library = false) {files : List DiscoveredFile}
    (hfiles : ∀ file ∈ files, file.branch = request.sourceBranch)
    (hmissed : (sourceTexts store files).filterMap
      (overlookedFile? engine request store branch) = missed) :
    Beside (Foretold observer missed) (fun _ _ ↦ Foretold observer missed)
      (generateFiles observer settings engine request branch files)
      (generateFiles observer settings engine request branch files) s t := by
  refine (readFiles_twin h List.nil_prefix settings.reading hfiles).bind ?_
  rintro loaded _ left right ⟨⟨rfl, rfl⟩, hread⟩
  refine (transformAll_twin hread hmissing hmigration _ hmissed).bind
    fun items others left right htransformed ↦ ?_
  refine (skeletonItems_twin htransformed hlibrary items others).bind
    fun _ _ left right hgenerated ↦ ?_
  exact .of_yields (yields_pure.mpr ⟨rfl, rfl⟩) (yields_pure.mpr ⟨rfl, rfl⟩) hgenerated

end Twin

/-! ### Whole runs -/

section Whole

variable {request : Request} {s : Session Store}

/-- Unless a run creates the branch for its output, its dry counterpart prepares the same. -/
theorem prepareBranch_twin (settings : Settings) (hassistant : s.assistant = none)
    (hread : (Assoc.keys s.repo.branches).contains request.readBranch = true) :
    ∃ branch left right,
      Yields (prepareBranch settings { request with dryRun := true } (Assoc.keys s.repo.branches))
        s branch left ∧
      Yields (prepareBranch settings { request with dryRun := false } (Assoc.keys s.repo.branches))
        s branch right ∧
      (left = right ∧ (∀ files, overlooked settings request s.repo files = []) ∨
        branch = request.targetBranch.getD settings.newBranch ∧
          request.operation.isTransformationOnly = false ∧
          s.repo.branches.lookup branch = none ∧ Twin s.repo request branch [] left right) := by
  have hdry : createsBranch settings { request with dryRun := true }
      (Assoc.keys s.repo.branches) = false := by simp [createsBranch]
  have hleft := prepareBranch_kept (s := s) hdry
  cases hcreates : createsBranch settings { request with dryRun := false }
    (Assoc.keys s.repo.branches) with
  | false =>
    refine ⟨_, _, _, hleft, prepareBranch_kept hcreates, Or.inl ⟨rfl, overlooked_eq_nil ?_⟩⟩
    by_contra hother
    rw [not_or, not_ne_iff, Option.not_isSome_iff_eq_none] at hother
    obtain ⟨hoperation, hmissing⟩ := hother
    rw [createsBranch_iff.mpr ⟨by rw [hoperation]; rfl, hmissing⟩] at hcreates
    cases hcreates
  | true =>
    obtain ⟨hmigration, hmissing⟩ := createsBranch_iff.mp hcreates
    obtain ⟨branch, right, hright, _⟩ : ∃ branch next, Yields (prepareBranch settings
        { request with dryRun := false } (Assoc.keys s.repo.branches)) s branch next ∧ _ :=
      prepareBranch_completes settings rfl hread
    obtain ⟨rfl, tree, htree, rfl⟩ := prepareBranch_created hcreates hright
    have hbranch : outputBranch settings { request with dryRun := false } =
        request.targetBranch.getD settings.newBranch := by
      unfold outputBranch
      rw [hmigration, if_neg Bool.false_ne_true]
    have hother :
        request.sourceBranch ≠ outputBranch settings { request with dryRun := false } := by
      rintro heq
      rw [← hbranch, ← heq, htree] at hmissing
      cases hmissing
    refine ⟨_, _, _, hleft, hright, Or.inr ⟨hbranch, hmigration, hbranch ▸ hmissing, rfl, ?_, ?_,
      rfl, ⟨hassistant, hassistant⟩, differ_nil_iff.mpr rfl⟩⟩
    · exact Assoc.lookup_insert_of_ne hother _ _
    · exact (Assoc.lookup_insert_self _ _ _).trans htree.symm

theorem process_foretold (observer : Observer) (settings : Settings)
    (hassistant : s.assistant = none)
    (hread : (Assoc.keys s.repo.branches).contains request.readBranch = true)
    {files : List DiscoveredFile} (hfiles : ∀ file ∈ files, file.branch = request.readBranch) :
    let engine := settings.engine request
    let branches := Assoc.keys s.repo.branches
    Foretold observer (overlooked settings request s.repo files)
      (final (process observer settings engine { request with dryRun := true } branches files) s)
      (final (process observer settings engine { request with dryRun := false } branches files)
        s) := by
  intro engine branches
  obtain ⟨branch, left, right, hleft, hright, hcases⟩ :=
    prepareBranch_twin settings hassistant hread
  have hgenerate : Beside (Foretold observer (overlooked settings request s.repo files))
      (fun _ _ ↦ Foretold observer (overlooked settings request s.repo files))
      (generateFiles observer settings engine request branch files)
      (generateFiles observer settings engine request branch files) left right := by
    obtain ⟨rfl, hnone⟩ | ⟨rfl, hmigration, hmissing, htwin⟩ := hcases
    · rw [hnone files]
      exact .refl (fun _ next _ ↦ .refl observer next) fun _ ↦ .refl observer _
    · rw [request.readBranch_of_migration hmigration] at hfiles
      refine generateFiles_twin htwin hmissing hmigration (engine_library settings request)
        hfiles ?_
      unfold overlooked
      dsimp only
      rw [hmissing]
      rfl
  rw [process_eq, process_eq, hleft.final_bind, hright.final_bind]
  refine hgenerate.finals_bind fun generated others shared otherShared hforetold ↦ ?_
  exact hforetold.along (deliver_sameForecast _ _ _ _ _ _ shared)
    (deliver_sameForecast _ _ _ _ _ _ otherShared)

/-- From its start to its end, in whatever way that comes, a run counts what its dry counterpart
does, but for the files that are overlooked. -/
theorem execute_foretold (observer : Observer) (settings : Settings)
    (hassistant : s.assistant = none) (hevents : s.events = []) :
    let engine := settings.engine request
    Foretold observer
      (overlooked settings request s.repo (discoveredFiles observer request s.repo))
      (final (execute observer settings engine { request with dryRun := true }) s)
      (final (execute observer settings engine { request with dryRun := false }) s) := by
  intro engine
  have hempty : overlooked settings request s.repo [] = [] := by
    unfold overlooked
    dsimp only
    split <;> rfl
  have hnothing (hnone : ∀ found, discovery? observer request s.repo ≠ some (.ok found))
      (last : Session Store) : Foretold observer
        (overlooked settings request s.repo (discoveredFiles observer request s.repo)) last
        last := by
    rw [discoveredFiles_eq_nil hnone, hempty]
    exact .refl observer last
  have haccess (dryRun : Bool) : (validateAccess observer { request with dryRun } : Step Store _) =
      validateAccess observer request := rfl
  unfold execute
  rw [haccess true, haccess false, discoverFiles_dryRun observer request true,
    discoverFiles_dryRun observer request false]
  refine finals_bind_cases (fun hstop ↦ hnothing ?_ _) fun branches accessed haccessed ↦ ?_
  · intro found hfound
    obtain ⟨hobserver, _, branches, hbranches, hcontains, _⟩ := discovery?_eq_ok_iff.mp hfound
    exact hstop _ _ ((validateAccess_yields observer request hevents).mpr
      ⟨hobserver, hbranches, hcontains, rfl⟩)
  obtain ⟨hobserver, hbranches, hcontains, rfl⟩ :=
    (validateAccess_yields observer request hevents).mp haccessed
  refine finals_bind_cases (fun hstop ↦ hnothing ?_ _) fun found next hnext ↦ ?_
  · intro found hfound
    obtain ⟨_, hcall, _, _, _, hdiscover⟩ := discovery?_eq_ok_iff.mp hfound
    exact hstop _ _ ((discoverFiles_yields observer request).mpr ⟨hcall, hdiscover, rfl⟩)
  obtain ⟨hcall, hdiscover, hfound⟩ := (discoverFiles_yields observer request).mp hnext
  rw [discoveredFiles_eq (discovery?_eq_ok_iff.mpr
    ⟨hobserver, hcall, branches, hbranches, hcontains, hdiscover⟩)]
  split
  next hnone =>
    rw [List.isEmpty_iff.mp hnone, hempty]
    exact .refl observer _
  next =>
    have hrepo : next.repo = s.repo := by
      rw [← hfound]
      exact discover_store request s.repo
    have hassisted : next.assistant = none := by
      rw [← hfound]
      exact hassistant
    obtain rfl : Assoc.keys s.repo.branches = branches := Except.ok.inj hbranches
    rw [← hrepo] at hcontains ⊢
    exact process_foretold observer settings hassisted hcontains (discover_branch hdiscover)

/-- Without an assistant, a dry run and the run that it stands for agree on the files that were
discovered, could not be read, were transformed or could not be transformed, and on the shared
files. They agree on the other counts too if no file is overlooked, as when the branch for the
output is there or nothing is to be merged; and, with an observer that never crashes, exactly if
none of the overlooked files would be left unchanged, none becomes a placeholder because of an
error, and equally many of them are invalid as new files and as merged ones. -/
theorem dry_run_forecast (observer : Observer) (settings : Settings) (request : Request)
    (store : Store) (hassistant : settings.assistantFor request = none) :
    let missed := overlooked settings request store (discoveredFiles observer request store)
    let dry := (run observer settings { request with dryRun := true } store).1.summary
    let real := (run observer settings { request with dryRun := false } store).1.summary
    (dry.discovered = real.discovered ∧ dry.readFailures = real.readFailures ∧
        dry.transformed = real.transformed ∧ dry.transformFailures = real.transformFailures ∧
        dry.skeletonFiles = real.skeletonFiles) ∧
      (missed = [] → dry.forecast = real.forecast) ∧
      (request.operation ≠ .migrationAndTransformation ∨
          (store.branches.lookup (request.targetBranch.getD settings.newBranch)).isSome = true →
        dry.forecast = real.forecast) ∧
      (observer.Quiet → (dry.forecast = real.forecast ↔
        (∀ o ∈ missed, o.merged.strategy ≠ .unchanged) ∧ (∀ o ∈ missed, o.fresh.error = none) ∧
          missed.countP (!·.fresh.isValid) = missed.countP (!·.merged.isValid))) := by
  intro missed dry real
  have hforetold : Foretold observer missed
      (endSession observer settings { request with dryRun := true } store)
      (endSession observer settings { request with dryRun := false } store) :=
    execute_foretold (s := startSession settings request store) observer settings hassistant rfl
  obtain ⟨part, hpart, hquiet, hdiffer⟩ := hforetold
  have hdiffer : Differ part dry real := hdiffer
  have hnone (hmissed : missed = []) : dry.forecast = real.forecast := by
    rw [hmissed, List.prefix_nil] at hpart
    rw [hpart] at hdiffer
    exact differ_nil_iff.mp hdiffer
  refine ⟨?_, hnone, fun h ↦ hnone (overlooked_eq_nil h _), fun h ↦ ?_⟩
  · exact ⟨hdiffer.discovered, hdiffer.readFailures, hdiffer.transformed,
      hdiffer.transformFailures, hdiffer.skeletonFiles⟩
  · rw [hdiffer.forecast_eq_iff, hquiet h]

/-- The branch for the output is there, and both runs merge the target that they find on it. -/
theorem dry_run_forecast_present_branch :
    let store : Store := .ofBranch "main"
      [("A.java", "class A"), ("robot/A.resource", "# robomigrate: mode=enhanced tier=3\n")] true
    let settings : Settings := { newBranch := "migrated", sourceRoots := ["src"] }
    let request : Request :=
      { operation := .migrationAndTransformation, mode := .manual, targetBranch := some "main" }
    settings.assistantFor request = none ∧
      (run .quiet settings { request with dryRun := true } store).1.summary.forecast =
        (run .quiet settings { request with dryRun := false } store).1.summary.forecast := by
  intro store settings request
  have hforecast := (dry_run_forecast .quiet settings request store rfl).2.2.1
  exact ⟨rfl, hforecast (Or.inr (by decide))⟩

/-- A target that is already at the requested tier is left unchanged by the run, and the dry run
takes it for new. -/
theorem unchanged_target_overlooked :
    let store : Store := .ofBranch "main"
      [("A.java", "class A"), ("robot/A.resource", "# robomigrate: mode=enhanced tier=3\n")] true
    let settings : Settings := { newBranch := "migrated", sourceRoots := ["src"] }
    let request : Request :=
      { operation := .migrationAndTransformation, mode := .manual
        targetBranch := some "migrated" }
    settings.assistantFor request = none ∧
      (run .quiet settings { request with dryRun := true } store).1.summary.unchanged = 0 ∧
      (run .quiet settings { request with dryRun := false } store).1.summary.unchanged = 1 := by
  intro store settings request
  refine ⟨rfl, ?_⟩
  decide +kernel

end Whole

end SuiteMigration.Run
