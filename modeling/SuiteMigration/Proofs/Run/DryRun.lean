import SuiteMigration.Proofs.Run.Completion

/-!
What a dry run shares with the run that it stands for. Whether a run is dry is asked in two places:
where the branch for the output is prepared, and where the generated files are delivered. The phases
between them do not ask, and what they count stands to the end of the run.
-/

set_option autoImplicit false
set_option relaxedAutoImplicit false

namespace SuiteMigration.Run

open SuiteMigration.Repository

/-! ### Counts that stand -/

/-- The counts of what happens before anything is written. -/
def Summary.forecast (s : Summary) : Summary :=
  { s with committed := 0, commitFailures := 0, batches := 0 }

section Forecast

variable {R α : Type}

/-- The forecasts are the same. -/
def SameForecast (s t : Session R) : Prop :=
  t.summary.forecast = s.summary.forecast

instance : IsPreorder (Session R) SameForecast where
  refl _ := rfl
  trans _ _ _ hfirst hsecond := hsecond.trans hfirst

theorem Along.sameForecast {m : Step R α} (h : Along SameTable m) : Along SameForecast m :=
  h.mono fun _ _ hsame ↦ congrArg Summary.forecast hsame.2

theorem resolve_sameForecast (path : String) (result : FileResult) :
    Along SameForecast (resolve path result : Step R Unit) :=
  Along.modify fun _ ↦ rfl

variable [Repository R]

/-- What a run does with the files that it has generated. -/
def deliver (observer : Observer) (policy : Commit.Policy) (request : Request) (branch : String)
    (items skeleton : List Commit.Item) : Step R Unit := do
  commitFiles observer policy request branch items skeleton
  requestPull observer request branch
  announce observer "Migration complete" .completed 100

/-- Once the files are generated, the forecast stands. -/
theorem deliver_sameForecast (observer : Observer) (policy : Commit.Policy) (request : Request)
    (branch : String) (items skeleton : List Commit.Item) :
    Along SameForecast (deliver observer policy request branch items skeleton : Step R Unit) := by
  have hannounce (message : String) (phase : Phase) (percent : Nat) :
      Along SameForecast (announce observer message phase percent : Step R Unit) :=
    (announce_sameTable _ _ _ _).sameForecast
  have henter : Along SameForecast (enter .committing 95 : Step R Unit) :=
    (enter_sameTable _ _).sameForecast
  have hbatches (n : Nat) :
      Along SameForecast (count fun s ↦ { s with batches := n } : Step R Unit) :=
    Along.modify fun _ ↦ rfl
  have hsettle (outcomes : List Commit.Outcome) :
      Along SameForecast (settleOutcomes outcomes : Step R Unit) :=
    settleOutcomes_along resolve_sameForecast (Along.modify fun _ ↦ rfl)
      (Along.modify fun _ ↦ rfl) outcomes
  have hcommit : Along SameForecast
      (commitFiles observer policy request branch items skeleton : Step R Unit) := by
    refine (hannounce _ _ _).bind fun _ ↦ ?_
    dsimp only
    split
    · exact (settleDry_along resolve_sameForecast items).bind fun _ ↦ henter
    · split
      · exact (hbatches _).bind fun _ ↦
          (writeBatches_sameTable _ _ _ _).sameForecast.bind fun outcomes ↦
            (hsettle outcomes).bind fun _ ↦ henter
      · exact henter
  exact hcommit.bind fun _ ↦ (requestPull_sameTable _ _ _).sameForecast.bind fun _ ↦
    hannounce _ _ _

/-! ### Phases that do not ask whether the run is dry -/

theorem discover_dryRun (request : Request) (dryRun : Bool) (repo : R) :
    discover { request with dryRun } repo = discover request repo := by
  have hsearch (found : Assoc Role) (searches : List Search) (repo : R) :
      searchAll { request with dryRun } found searches repo =
        searchAll request found searches repo := by
    induction searches generalizing found repo with
    | nil => rfl
    | cons search rest ih =>
      have hpattern : ({ request with dryRun } : Request).pattern = request.pattern := rfl
      have hbranch : ({ request with dryRun } : Request).readBranch = request.readBranch := rfl
      rw [searchAll, searchAll, hpattern, hbranch]
      rcases Repository.listFiles search.directory request.pattern (some request.readBranch) repo
        with ⟨_ | files, next⟩
      · rfl
      · exact ih _ next
  unfold discover
  rw [hsearch]
  rfl

theorem discoverFiles_dryRun (observer : Observer) (request : Request) (dryRun : Bool) :
    (discoverFiles observer { request with dryRun } : Step R _) =
      discoverFiles observer request := by
  have hdiscover : (discover { request with dryRun } : R → _) = discover request :=
    funext (discover_dryRun request dryRun)
  unfold discoverFiles
  rw [hdiscover]
  rfl

theorem transformAll_dryRun (observer : Observer) (engine : Engine) (request : Request)
    (dryRun : Bool) (branch : String) (loaded : List (DiscoveredFile × String)) :
    (transformAll observer engine { request with dryRun } branch loaded : Step R _) =
      transformAll observer engine request branch loaded := by
  have hindex : (sourceIndex engine { request with dryRun } : Step R SourceIndex) =
      sourceIndex engine request := by
    have hdiscover : (discover { { request with dryRun } with operation := .migration } : R → _) =
        discover { request with operation := .migration } :=
      funext (discover_dryRun { request with operation := .migration } dryRun)
    unfold sourceIndex
    rw [hdiscover]
  have hfrom (sources : SourceIndex) (total done : Nat)
      (loaded : List (DiscoveredFile × String)) :
      (transformFrom observer engine { request with dryRun } branch sources total done loaded :
        Step R _) = transformFrom observer engine request branch sources total done loaded := by
    induction loaded generalizing done with
    | nil => rfl
    | cons pair rest ih =>
      unfold transformFrom
      simp only [ih]
      rfl
  unfold transformAll
  simp only [hindex, hfrom]

/-- The phases that generate the files of a run. -/
def generateFiles (observer : Observer) (settings : Settings) (engine : Engine) (request : Request)
    (branch : String) (files : List DiscoveredFile) :
    Step R (List Commit.Item × List Commit.Item) := do
  let loaded ← readFiles observer settings.reading files
  let items ← transformAll observer engine request branch loaded
  let skeleton ← skeletonItems observer engine request items
  return (items, skeleton)

/-- Whether a run is dry is asked before files are generated, and afterwards. -/
theorem process_eq (observer : Observer) (settings : Settings) (engine : Engine)
    (request : Request) (dryRun : Bool) (branches : List String) (files : List DiscoveredFile) :
    process observer settings engine { request with dryRun } branches files =
      (do
        let branch ← prepareBranch settings { request with dryRun } branches
        let (items, skeleton) ← generateFiles observer settings engine request branch files
        deliver observer settings.committing { request with dryRun } branch items skeleton
        : Step R Unit) := by
  have hskeleton (items : List Commit.Item) :
      (skeletonItems observer engine { request with dryRun } items : Step R _) =
        skeletonItems observer engine request items := by
    simp only [skeletonItems]
  simp only [process, generateFiles, deliver, transformAll_dryRun, hskeleton, bind_assoc, pure_bind]

end Forecast

/-! ### Reading -/

section Reading

variable {R : Type} {observer : Observer} {policy : Reading.Policy} {files : List DiscoveredFile}
  {s next : Session R}

theorem collectRead_failures {outcomes : List Reading.Outcome}
    {loaded : List (DiscoveredFile × String)} (h : Yields (collectRead outcomes) s loaded next) :
    next.events = s.events ∧ ∃ failures, failures + loaded.length = outcomes.length ∧
      next.summary = { s.summary with readFailures := s.summary.readFailures + failures } := by
  induction outcomes generalizing s loaded with
  | nil =>
    obtain ⟨rfl, rfl⟩ := yields_pure.mp h
    exact ⟨rfl, 0, rfl, rfl⟩
  | cons outcome rest ih =>
    unfold collectRead at h
    split at h
    next content hresult =>
      obtain ⟨others, _, hrest, hlast⟩ := yields_bind.mp h
      obtain ⟨rfl, rfl⟩ := yields_pure.mp hlast
      obtain ⟨hevents, failures, hlength, hsummary⟩ := ih hrest
      exact ⟨hevents, failures, by simp only [List.length_cons]; omega, hsummary⟩
    next e hresult =>
      simp only [yields_bind, yields_count, yields_resolve] at h
      obtain ⟨_, _, rfl, _, _, rfl, hrest⟩ := h
      obtain ⟨hevents, failures, hlength, hsummary⟩ := ih hrest
      refine ⟨hevents, failures + 1, by simp only [List.length_cons]; omega, ?_⟩
      rw [hsummary]
      simp only [Nat.add_assoc, Nat.add_comm 1]

/-- Once all files are read nothing stops the run. -/
theorem collectRead_entered_unfailing (outcomes : List Reading.Outcome) :
    Unfailing (do enter .analyzing 40; collectRead outcomes : Step R _) :=
  (Unfailing.modify _).bind fun _ ↦ collectRead_unfailing outcomes

variable [Repository R]

/-- Reading is stopped only by the observer, at the report of some file. -/
theorem completes_readPool_iff : Completes (readPool observer policy files) s ↔
    ∀ i < files.length,
      observer (s.events.length + i) (readEvent files.length (i + 1)) = none := by
  have hlength := (Reading.readAll_accounts policy
    (stopsReading observer s.events.length files.length) files s.repo s.now).1.length_eq
  constructor
  · rintro ⟨outcomes, next, h⟩
    obtain ⟨hpassed, _⟩ := yields_readPool.mp h
    rw [workers_of_passed hpassed, List.length_nil, Nat.zero_add] at hlength
    rwa [hlength] at hpassed
  · intro hpass
    exact ⟨_, _, yields_readPool.mpr ⟨fun i hi ↦ hpass i (by omega), rfl, rfl⟩⟩

theorem completes_readFiles_iff : Completes (readFiles observer policy files) s ↔
    observer s.events.length ⟨s!"Reading {files.length} files", .analyzing, 20⟩ = none ∧
      ∀ i < files.length,
        observer (s.events.length + 1 + i) (readEvent files.length (i + 1)) = none := by
  refine completes_bind_and ?_ fun _ announced hannounce ↦ ?_
  · constructor
    · rintro ⟨_, _, h⟩
      exact (yields_announce.mp h).1
    · exact fun h ↦ ⟨(), _, yields_announce.mpr ⟨h, rfl⟩⟩
  · obtain ⟨_, rfl⟩ := yields_announce.mp hannounce
    rw [completes_bind_unfailing collectRead_entered_unfailing, completes_readPool_iff]
    simp only [List.length_append, List.length_singleton]

/-- Reading reports its start and each file, and counts the files that could not be read. -/
theorem readFiles_counts {loaded : List (DiscoveredFile × String)}
    (h : Yields (readFiles observer policy files) s loaded next) :
    next.events.length = s.events.length + 1 + files.length ∧
      ∃ failures, failures + loaded.length = files.length ∧
        next.summary = { s.summary with readFailures := s.summary.readFailures + failures } := by
  simp only [readFiles, yields_bind, yields_announce, yields_enter] at h
  obtain ⟨_, _, ⟨_, rfl⟩, outcomes, _, hpool, _, _, rfl, hcollect⟩ := h
  obtain ⟨hevents, failures, hfailures, hsummary⟩ := collectRead_failures hcollect
  obtain ⟨stops, hdone, houtcomes, rfl⟩ := readPool_yields hpool
  have haccounts := (Reading.readAll_accounts policy stops files s.repo s.now).1
  have hlength := haccounts.length_eq
  rw [hdone, List.length_nil, Nat.zero_add] at hlength
  refine ⟨?_, failures, ?_, hsummary⟩
  · rw [hevents]
    simp only [List.length_append, List.length_singleton, List.length_map, List.length_range]
    exact congrArg _ hlength
  · have hfiles := congrArg List.length (haccounts.outcomes hdone)
    rw [List.length_map] at hfiles
    rw [hfailures, ← houtcomes]
    exact hfiles

/-- Reading that is stopped has not counted anything yet. -/
theorem readFiles_stopped (h : ¬ Completes (readFiles observer policy files) s) :
    (final (readFiles observer policy files) s).summary = s.summary := by
  refine final_bind_cases (P := fun last ↦ last.summary = s.summary)
    (fun _ ↦ (announce_sameTable _ _ _ _ s).2) fun _ announced hannounce ↦ ?_
  have hannounced := ((announce_sameTable _ _ _ _).yields hannounce).2
  refine final_bind_cases (P := fun last ↦ last.summary = s.summary)
    (fun _ ↦ (readPool_sameTable _ _ _ announced).2.trans hannounced) fun outcomes read hread ↦ ?_
  obtain ⟨loaded, last, hrest⟩ := collectRead_entered_unfailing outcomes read
  exact absurd ⟨loaded, last, yields_bind.mpr ⟨_, _, hannounce,
    yields_bind.mpr ⟨_, _, hread, hrest⟩⟩⟩ h

end Reading

/-! ### The branch for the output -/

section Branch

variable {settings : Settings} {request : Request} {branches : List String} {s next : Session Store}
  {branch : String}

/-- The name of the branch that the output goes to. -/
def outputBranch (settings : Settings) (request : Request) : String :=
  if request.operation.isTransformationOnly then request.readBranch
  else request.targetBranch.getD settings.newBranch

/-- Whether a run creates the branch that the output goes to. -/
def createsBranch (settings : Settings) (request : Request) (branches : List String) : Bool :=
  !request.operation.isTransformationOnly && !request.dryRun &&
    !branches.contains (outputBranch settings request)

theorem prepareBranch_kept (h : createsBranch settings request branches = false) :
    Yields (prepareBranch settings request branches) s (outputBranch settings request)
      { s with status := { s.status with branch := some (outputBranch settings request) } } := by
  unfold createsBranch outputBranch at h
  unfold prepareBranch outputBranch
  dsimp only
  rw [if_neg (Bool.eq_false_iff.mp h)]
  exact yields_bind.mpr ⟨⟨⟩, _, yields_modify.mpr rfl, yields_pure.mpr ⟨rfl, rfl⟩⟩

theorem prepareBranch_created (h : createsBranch settings request branches = true)
    (hprepare : Yields (prepareBranch settings request branches) s branch next) :
    branch = outputBranch settings request ∧ ∃ tree,
      s.repo.Branch request.sourceBranch tree ∧ next =
        { s with
          repo := { s.repo with branches := Assoc.insert branch tree s.repo.branches }
          status := { s.status with branch := some branch } } := by
  unfold createsBranch outputBranch at h
  unfold prepareBranch at hprepare
  dsimp only at hprepare
  rw [if_pos h] at hprepare
  simp only [yields_bind, yields_accessOr, yields_modify, yields_pure] at hprepare
  obtain ⟨_, _, ⟨hcreate, rfl⟩, _, _, rfl, rfl, rfl⟩ := hprepare
  obtain ⟨tree, htree, hcreated⟩ := createBranch_ok hcreate
  exact ⟨rfl, tree, htree, by rw [hcreated]⟩

/-- A run that is not dry creates the branch of a migration if it is not there. -/
theorem createsBranch_iff : createsBranch settings { request with dryRun := false }
    (Assoc.keys s.repo.branches) = true ↔ request.operation.isTransformationOnly = false ∧
      s.repo.branches.lookup (request.targetBranch.getD settings.newBranch) = none := by
  have hmissing (name : String) : (!(Assoc.keys s.repo.branches).contains name) = true ↔
      s.repo.branches.lookup name = none := by
    rw [Bool.not_eq_true', Bool.eq_false_iff, ne_eq, contains_keys_iff,
      Option.eq_none_iff_forall_ne_some]
    exact not_exists
  unfold createsBranch outputBranch
  dsimp only
  rw [Bool.and_eq_true, Bool.not_false, Bool.and_true, Bool.not_eq_true']
  refine and_congr_right fun hmigration ↦ ?_
  rw [hmigration, if_neg Bool.false_ne_true]
  exact hmissing _

end Branch

end SuiteMigration.Run
